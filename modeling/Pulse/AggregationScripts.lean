-- The Redis scripts of run aggregation. A run is one hash; three sorted sets
-- index the runs that wait for their deadline, the runs whose summary is not
-- yet acknowledged, and the runs that count against the capacity.
import Pulse.Contracts
import Pulse.Counters
import Pulse.Keyspace
import Pulse.LuaNumbers
import Pulse.SortedSets

open counters keyspace sorted_sets

namespace pulse.aggregation

/-! ## The run hash -/

/-- The `status` field. `Other` stands for a text that no script writes. -/
inductive RunStatus
  | Open
  | Partial
  | TimedOut
  | Cancelled
  | Complete
  | Other (text : String)
deriving DecidableEq, Repr

/-- What one accepted slice adds to its run. -/
structure Slice where
  index : Nat
  execution_key : String
  total : Nat
  success : Nat
  failure : Nat
  counts : List Nat
  errors : List (String × Nat)
deriving DecidableEq, Repr

/-- The fields that the slices of a run add up to: `slice:`, `execution:`, `latency:` and `error:`
are families of fields. -/
structure Tally where
  received_slices : Nat
  slices : AList fun _ : Nat => String
  executions : AList fun _ : String => Nat
  total : Nat
  success : Nat
  failure : Nat
  latency : Counts Nat
  error_kind_count : Nat
  errors : Counts String
deriving DecidableEq

namespace Tally

def empty : Tally := ⟨0, ∅, ∅, 0, 0, 0, ∅, 0, ∅⟩

/-- One error kind: a field that is not there makes a new kind. -/
def merge_error (state : Nat × Counts String) (error : String × Nat) : Nat × Counts String :=
  (if error.1 ∈ state.2 then state.1 else state.1 + 1, bump state.2 error.1 error.2)

/-- The writes of `INGEST_SCRIPT` for an accepted slice. The counts go to the fields `latency:0`,
`latency:1` and so on. -/
def merge (t : Tally) (s : Slice) : Tally :=
  let errors := s.errors.foldl merge_error (t.error_kind_count, t.errors)
  { received_slices := t.received_slices + 1
    slices := t.slices.insert s.index s.execution_key
    executions := t.executions.insert s.execution_key s.index
    total := t.total + s.total
    success := t.success + s.success
    failure := t.failure + s.failure
    latency := bumpAll t.latency (indexed s.counts)
    error_kind_count := errors.1
    errors := errors.2 }

end Tally

/-- The hash of a run. A script that makes one writes every field, and none deletes a field. -/
structure RunHash extends Tally where
  scenario_id : String
  run_id : String
  schema_version : UInt16
  expected_slices : lua.Text
  /-- The bounds in the joined text; no bounds are the empty text. -/
  histogram_bounds : List UInt64
  status : RunStatus
  first_result_at : lua.Text
  last_result_at : lua.Text
  deadline_at : lua.Text
  finalized_at : lua.Text
  summary_revision : Nat
  summary_pending_revision : lua.Text
  summary_ack_revision : lua.Text
deriving DecidableEq

namespace RunHash

/-- A finalized revision waits for its acknowledgement. -/
def isPending (h : RunHash) : Prop :=
  lua.tonumber h.summary_ack_revision < lua.tonumber h.summary_pending_revision

instance (h : RunHash) : Decidable h.isPending := inferInstanceAs (Decidable (_ < _))

/-- A late slice may still arrive. -/
def isLate (h : RunHash) : Prop := h.status = .Partial ∨ h.status = .TimedOut

instance (h : RunHash) : Decidable h.isLate := inferInstanceAs (Decidable (_ ∨ _))

/-- A new revision of the summary, with its status and time. -/
def finalize (h : RunHash) (status : RunStatus) (now : Nat) : RunHash :=
  { h with
    summary_revision := h.summary_revision + 1
    status
    finalized_at := lua.tostring now
    summary_pending_revision := lua.tostring (h.summary_revision + 1) }

end RunHash

/-! ## The keys -/

/-- The keys of the store at a Redis time. The key of a run is named by its `run_id`. -/
structure World where
  now : Nat
  runs : String → Option (Key RunHash)
  deadlines : SortedSet
  outbox : SortedSet
  active : SortedSet

namespace World

/-- The run hash that a script finds. -/
def find (w : World) (run_id : String) : Option RunHash := get w.now (w.runs run_id)

/-- `HSET` on a run: the expiry stays. -/
def hset (w : World) (run_id : String) (h : RunHash) : World :=
  { w with
    runs := Function.update w.runs run_id ((w.runs run_id).map fun k => { k with value := h }) }

/-- The run without an expiry, at the end of the active index. -/
def keep (w : World) (run_id : String) (h : RunHash) : World :=
  { w with
    runs := Function.update w.runs run_id (some ⟨h, none⟩)
    active := zadd w.active lua.MAX_EXACT run_id }

/-- The run with the retention from now. -/
def expire (w : World) (run_id : String) (retention_ms : Nat) (h : RunHash) : World :=
  { w with
    runs := Function.update w.runs run_id (some ⟨h, some (w.now + retention_ms)⟩)
    active := zadd w.active (w.now + retention_ms) run_id }

/-- `refresh_retention` with the hash as the script has written it. -/
def refresh_retention (w : World) (run_id : String) (retention_ms : Nat) (h : RunHash) : World :=
  if h.isPending then w.keep run_id h else w.expire run_id retention_ms h

/-- `ZREMRANGEBYSCORE` on the active index: the runs that have expired. -/
def prune (w : World) : World := { w with active := zremrangebyscore w.active w.now }

/-- The run leaves the indexes when its hash is gone. -/
def forget (w : World) (run_id : String) : World :=
  { w with
    deadlines := zrem w.deadlines run_id
    outbox := zrem w.outbox run_id
    active := zrem w.active run_id }

end World

/-- The reply of a script: its code, its message, and the hash as `HGETALL` reads it. -/
structure Reply where
  code : Nat
  message : String
  snapshot : Option RunHash
deriving DecidableEq

/-! ## `INGEST_SCRIPT` -/

structure IngestArgs where
  scenario_id : String
  run_id : String
  schema_version : UInt16
  expected_slices : Nat
  histogram_bounds : List UInt64
  slice : Slice
  retention_ms : Nat
  max_error_kinds : Nat
  max_active_runs : Nat
  partial_timeout_ms : Nat

namespace IngestArgs

/-- The first check of the script fails. -/
def areInvalid (a : IngestArgs) (now : Nat) : Prop :=
  a.expected_slices < 1 ∨ a.expected_slices ≤ a.slice.index ∨
    lua.MAX_EXACT < a.slice.total ∨ lua.MAX_EXACT < a.slice.success ∨
    lua.MAX_EXACT < a.slice.failure ∨ a.slice.success + a.slice.failure ≠ a.slice.total ∨
    a.retention_ms < 1 ∨ a.max_error_kinds < 1 ∨ a.max_active_runs < 1 ∨
    a.partial_timeout_ms < 1 ∨ lua.MAX_EXACT < now + a.partial_timeout_ms

instance (a : IngestArgs) (now : Nat) : Decidable (a.areInvalid now) :=
  inferInstanceAs (Decidable (_ ∨ _))

/-- The hash is of another run, another plan or other buckets. -/
def conflicts (a : IngestArgs) (h : RunHash) : Prop :=
  h.scenario_id ≠ a.scenario_id ∨ h.run_id ≠ a.run_id ∨ h.schema_version ≠ a.schema_version ∨
    lua.tonumber h.expected_slices ≠ a.expected_slices ∨
    (h.histogram_bounds ≠ [] ∧ h.histogram_bounds ≠ a.histogram_bounds)

instance (a : IngestArgs) (h : RunHash) : Decidable (a.conflicts h) :=
  inferInstanceAs (Decidable (_ ∨ _))

end IngestArgs

def sum_is_exact (current incoming : Nat) : Prop :=
  current ≤ lua.MAX_EXACT ∧ incoming ≤ lua.MAX_EXACT - current

instance (current incoming : Nat) : Decidable (sum_is_exact current incoming) :=
  inferInstanceAs (Decidable (_ ∧ _))

/-- The code and message with which the counters of a slice are refused. -/
def refusal (a : IngestArgs) (t : Tally) : Option (Nat × String) :=
  let additional_error_kinds := (a.slice.errors.filter fun e => e.1 ∉ t.errors).length
  if a.max_error_kinds < t.error_kind_count + additional_error_kinds then
    some (6, "bounded error-kind capacity exceeded")
  else if ¬ sum_is_exact t.total a.slice.total ∨ ¬ sum_is_exact t.success a.slice.success ∨
      ¬ sum_is_exact t.failure a.slice.failure then
    some (9, "aggregate result counter exceeds the exact Redis Lua range")
  else if ∃ c ∈ indexed a.slice.counts, ¬ sum_is_exact (count t.latency c.1) c.2 then
    some (9, "aggregate latency counter exceeds the exact Redis Lua range")
  else if ∃ e ∈ a.slice.errors, ¬ sum_is_exact (count t.errors e.1) e.2 then
    some (9, "aggregate error counter exceeds the exact Redis Lua range")
  else none

/-- The hash that a first result makes. -/
def first_hash (a : IngestArgs) (now : Nat) : RunHash :=
  { Tally.empty with
    scenario_id := a.scenario_id
    run_id := a.run_id
    schema_version := a.schema_version
    expected_slices := lua.tostring a.expected_slices
    histogram_bounds := a.histogram_bounds
    status := .Open
    first_result_at := lua.tostring now
    last_result_at := lua.tostring now
    deadline_at := lua.tostring (now + a.partial_timeout_ms)
    finalized_at := lua.tostring 0
    summary_revision := 0
    summary_pending_revision := lua.tostring 0
    summary_ack_revision := lua.tostring 0 }

/-- The hash with the slice merged. -/
def merged_hash (a : IngestArgs) (now : Nat) (h : RunHash) : RunHash :=
  { h with
    toTally := h.toTally.merge a.slice
    first_result_at :=
      if lua.tonumber h.first_result_at = 0 then lua.tostring now else h.first_result_at
    last_result_at :=
      if lua.tonumber h.last_result_at < now then lua.tostring now else h.last_result_at }

/-- The slice is accepted into the hash `h`. The last slice completes the run. -/
def accept (a : IngestArgs) (w : World) (h : RunHash) : Reply × World :=
  let merged := merged_hash a w.now h
  let w₁ := w.refresh_retention a.run_id a.retention_ms merged
  if merged.received_slices = a.expected_slices then
    let final := merged.finalize .Complete w.now
    let w₂ := { w₁ with
      deadlines := zrem w₁.deadlines a.run_id
      outbox := zadd w₁.outbox w.now a.run_id }
    (⟨if h.isLate then 4 else 3, "", some final⟩,
      w₂.refresh_retention a.run_id a.retention_ms final)
  else (⟨if h.isLate then 7 else 1, "", some merged⟩, w₁)

/-- What the script decides on a slice of a run that exists. -/
inductive Verdict
  | Duplicate
  | Reject (code : Nat) (message : String)
  | Accept
deriving DecidableEq

def verdict (a : IngestArgs) (h : RunHash) : Verdict :=
  match h.status with
  | .Other _ => .Reject 5 "stored aggregation status is invalid"
  | status =>
    match h.slices.lookup a.slice.index, h.executions.lookup a.slice.execution_key with
    | some key, _ =>
      if key = a.slice.execution_key then .Duplicate
      else .Reject 5 "slice index already belongs to a different execution identity"
    | none, some index =>
      if index = a.slice.index then .Duplicate
      else .Reject 5 "execution identity already belongs to a different slice"
    | none, none =>
      if status = .Complete ∨ status = .Cancelled then
        .Reject 5 "terminal run cannot accept an unrecorded slice"
      else if a.expected_slices ≤ h.received_slices then
        .Reject 5 "stored aggregation counters are invalid"
      else
        match refusal a h.toTally with
        | some (code, message) => .Reject code message
        | none => .Accept

/-- The rest of the script for a run that exists, after its bounds are set. -/
def ingest_bound (a : IngestArgs) (w : World) (h : RunHash) : Reply × World :=
  match verdict a h with
  | .Duplicate => (⟨2, "", some h⟩, w.refresh_retention a.run_id a.retention_ms h)
  | .Reject code message => (⟨code, message, some h⟩, w)
  | .Accept => accept a w h

def ingest_script (a : IngestArgs) (w : World) : Reply × World :=
  if a.areInvalid w.now then (⟨5, "invalid aggregation script arguments", none⟩, w)
  else if ∃ c ∈ a.slice.counts, lua.MAX_EXACT < c then
    (⟨5, "latency bucket count is outside the exact Redis Lua range", none⟩, w)
  else if ∃ e ∈ a.slice.errors, lua.MAX_EXACT < e.2 then
    (⟨5, "error count is outside the exact Redis Lua range", none⟩, w)
  else
    let pruned := w.prune
    match w.find a.run_id with
    | none =>
      if a.max_active_runs ≤ zcard pruned.active then
        (⟨8, "bounded active-run capacity exceeded", none⟩, pruned)
      else
        match refusal a Tally.empty with
        | some (code, message) => (⟨code, message, none⟩, pruned)
        | none =>
          accept a
            { pruned with
              deadlines := zadd pruned.deadlines (w.now + a.partial_timeout_ms) a.run_id }
            (first_hash a w.now)
    | some h =>
      if a.conflicts h then
        (⟨5, "scenario, schema, expected slices, or histogram bounds changed", some h⟩, pruned)
      else if h.histogram_bounds = [] then
        if h.received_slices ≠ 0 then
          (⟨5, "registered run histogram is unset after accepting slices", some h⟩, pruned)
        else
          let bound := { h with histogram_bounds := a.histogram_bounds }
          ingest_bound a (pruned.hset a.run_id bound) bound
      else ingest_bound a pruned h

/-! ## The script of `register_run` -/

structure RegisterArgs where
  run_id : String
  scenario_id : String
  schema_version : UInt16
  expected_slices : Nat
  deadline_at : Nat
  retention_ms : Nat
  max_active : Nat

/-- The hash of a registered run with no result. -/
def registered_hash (a : RegisterArgs) : RunHash :=
  { Tally.empty with
    scenario_id := a.scenario_id
    run_id := a.run_id
    schema_version := a.schema_version
    expected_slices := lua.tostring a.expected_slices
    histogram_bounds := []
    status := .Open
    first_result_at := lua.tostring 0
    last_result_at := lua.tostring 0
    deadline_at := lua.tostring a.deadline_at
    finalized_at := lua.tostring 0
    summary_revision := 0
    summary_pending_revision := lua.tostring 0
    summary_ack_revision := lua.tostring 0 }

def register_script (a : RegisterArgs) (w : World) : (Nat × String) × World :=
  if a.expected_slices < 1 ∨ lua.MAX_EXACT < a.deadline_at ∨ a.retention_ms < 1 ∨
    a.max_active < 1 then
    ((3, "invalid run registration arguments"), w)
  else
    let pruned := w.prune
    match w.find a.run_id with
    | some h =>
      if h.run_id ≠ a.run_id ∨ h.scenario_id ≠ a.scenario_id ∨
          h.schema_version ≠ a.schema_version ∨
          lua.tonumber h.expected_slices ≠ a.expected_slices then
        ((3, "registered run metadata changed"), pruned)
      else ((2, ""), pruned.refresh_retention a.run_id a.retention_ms h)
    | none =>
      if a.max_active ≤ zcard pruned.active then
        ((4, "bounded active-run capacity exceeded"), pruned)
      else
        ((1, ""), { pruned with deadlines := zadd pruned.deadlines a.deadline_at a.run_id }.expire
          a.run_id a.retention_ms (registered_hash a))

/-! ## Finalization -/

/-- The run is finalized: it leaves the deadlines, enters the outbox, and does not expire. -/
def finalize_now (w : World) (run_id : String) (h : RunHash) (status : RunStatus) :
    RunHash × World :=
  let final := h.finalize status w.now
  (final, { w with
    deadlines := zrem w.deadlines run_id
    outbox := zadd w.outbox w.now run_id }.keep run_id final)

/-- A finalized run is found again: it leaves the deadlines, and stays while it is pending. -/
def touch_finalized (w : World) (run_id : String) (h : RunHash) : World :=
  let w₁ := { w with deadlines := zrem w.deadlines run_id }
  if h.isPending then w₁.keep run_id h else w₁

/-- The message of `MARK_EXPIRED_SCRIPT` is a text, or the time that is left. -/
inductive Message
  | text (text : String)
  | number (delay : lua.Text)
deriving DecidableEq

structure ExpiryReply where
  code : Nat
  message : Message
  snapshot : Option RunHash
deriving DecidableEq

def mark_expired_script (retention_ms : Nat) (run_id : String) (w : World) : ExpiryReply × World :=
  match w.find run_id with
  | none => (⟨0, .text "", none⟩, w.forget run_id)
  | some h =>
    if retention_ms < 1 ∨ lua.MAX_EXACT < w.now + retention_ms then
      (⟨4, .text "invalid expiration arguments", some h⟩, w)
    else
      match h.status with
      | .Open =>
        let deadline_at := lua.tonumber h.deadline_at
        if w.now < deadline_at then
          (⟨1, .number (lua.tostring (deadline_at - w.now)), some h⟩, w)
        else
          let (final, w) := finalize_now w run_id h .TimedOut
          (⟨2, .text "", some final⟩, w)
      | .Other _ => (⟨4, .text "stored aggregation status is invalid", some h⟩, w)
      | _ => (⟨3, .text "", some h⟩, touch_finalized w run_id h)

/-- `requested_status` is `Partial` or `Cancelled`: the caller sends no other. -/
def finalize_run_script (requested_status : RunStatus) (retention_ms : Nat) (run_id : String)
    (w : World) : Reply × World :=
  if requested_status ≠ .Partial ∧ requested_status ≠ .Cancelled then
    (⟨3, "only partial or cancelled explicit finalization is supported", none⟩, w)
  else if retention_ms < 1 ∨ lua.MAX_EXACT < w.now + retention_ms then
    (⟨3, "invalid explicit finalization arguments", none⟩, w)
  else
    match w.find run_id with
    | none => (⟨0, "", none⟩, w.forget run_id)
    | some h =>
      match h.status with
      | .Open =>
        let (final, w) := finalize_now w run_id h requested_status
        (⟨1, "", some final⟩, w)
      | .Other _ => (⟨3, "stored aggregation status is invalid", some h⟩, w)
      | _ => (⟨2, "", some h⟩, touch_finalized w run_id h)

/-! ## The outbox -/

/-- The summary is acknowledged: the run leaves the outbox, and its retention starts. -/
def settle (w : World) (run_id : String) (retention_ms : Nat) (h : RunHash) : World :=
  { w with outbox := zrem w.outbox run_id }.expire run_id retention_ms h

structure AcknowledgeReply where
  code : Nat
  current : Nat
  message : String
deriving DecidableEq

def acknowledge_script (revision : Nat) (run_id : String) (retention_ms : Nat) (w : World) :
    AcknowledgeReply × World :=
  match w.find run_id with
  | none =>
    (⟨0, 0, ""⟩, { w with
      outbox := zrem w.outbox run_id
      active := zrem w.active run_id })
  | some h =>
    let current := h.summary_revision
    let acknowledged := lua.tonumber h.summary_ack_revision
    let pending := lua.tonumber h.summary_pending_revision
    let marked := { h with summary_ack_revision := lua.tostring revision }
    if revision < 1 ∨ retention_ms < 1 ∨ current < 1 then
      (⟨4, current, "stored summary revision is invalid"⟩, w)
    else if current < revision then
      (⟨4, current, "cannot acknowledge a future summary revision"⟩, w)
    else if revision < current then
      (⟨3, current, ""⟩, if acknowledged < revision then w.hset run_id marked else w)
    else if revision ≤ acknowledged then
      (⟨2, current, ""⟩, if pending ≤ acknowledged then settle w run_id retention_ms h else w)
    else
      (⟨1, current, ""⟩,
        if pending = revision then settle w run_id retention_ms marked
        else w.hset run_id marked)

def clean_outbox_script (run_id : String) (w : World) : World :=
  match w.find run_id with
  | none => { w with outbox := zrem w.outbox run_id }
  | some h => if h.isPending then w else { w with outbox := zrem w.outbox run_id }

def due_runs_script (limit : Nat) (w : World) : List String :=
  zrangebyscore w.deadlines w.now limit

end pulse.aggregation
