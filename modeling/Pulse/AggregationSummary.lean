-- What the aggregation store reads back from a run hash: the progress of an
-- open run, and the summary of a finalized one.
import Pulse.AggregationScripts
import Pulse.Durations
import Pulse.Floats

open checks counters durations sorted_sets strings
open pulse.contracts

namespace pulse.aggregation

/-! ## The types of the store -/

inductive RunAggregationStoreError
  | Contract (error : ContractError)
  | Unavailable (operation message : String)
  | Timeout (operation : String)
  | InvalidState (operation message : String)
  | InconsistentResult (message : String)
  | ErrorKindCapacity (max_error_kinds : Nat)
  | ActiveRunCapacity (max_active_runs : Nat)
deriving DecidableEq, Repr

abbrev StoreResult := Except RunAggregationStoreError

inductive ScenarioRunSummaryStatus
  | Complete
  | Partial
  | TimedOut
  | Cancelled
deriving DecidableEq, Repr

/-- The counts of a summary are numbers that were parsed from the hash. -/
structure ScenarioRunSummary where
  schema_version : UInt16
  scenario_id : String
  run_id : String
  status : ScenarioRunSummaryStatus
  expected_slices : Nat
  received_slices : Nat
  missing_slices : List Nat
  total : Nat
  success : Nat
  failure : Nat
  scenario_latency_p50_ms : Nat
  scenario_latency_p95_ms : Nat
  scenario_latency_p99_ms : Nat
  latency_histogram : List (UInt64 × Nat)
  error_breakdown : List (String × Nat)
  first_result_at_unix_ms : Nat
  finalized_at_unix_ms : Nat
deriving DecidableEq, Repr

inductive RunAggregationUpdate
  | Accepted (received_slices expected_slices : Nat)
  | LateAccepted (received_slices expected_slices : Nat)
  | Duplicate (received_slices expected_slices : Nat)
      (finalized_status : Option ScenarioRunSummaryStatus)
  | Completed (summary : ScenarioRunSummary)
  | LateCompleted (summary : ScenarioRunSummary)
deriving DecidableEq, Repr

inductive RunExpiryOutcome
  | Missing
  | NotExpired (retry_after : Nat)
  | MarkedTimedOut (summary : ScenarioRunSummary)
  | AlreadyFinalized (summary : ScenarioRunSummary)
deriving DecidableEq, Repr

inductive RunFinalizationOutcome
  | Missing
  | Finalized (summary : ScenarioRunSummary)
  | AlreadyFinalized (summary : ScenarioRunSummary)
deriving DecidableEq, Repr

structure DurableRunSummary where
  revision : Nat
  event_id : String
  pending_publication : Bool
  summary : ScenarioRunSummary
deriving DecidableEq, Repr

inductive SummaryAcknowledgement
  | Acknowledged
  | AlreadyAcknowledged
  | Stale (current_revision : Nat)
  | Missing
deriving DecidableEq, Repr

def U32_MAX : Nat := 2 ^ 32 - 1
def U64_MAX : Nat := 2 ^ 64 - 1
def U128_MAX : Nat := 2 ^ 128 - 1
def I64_MAX : Nat := 2 ^ 63 - 1

def invalid_state (operation message : String) : RunAggregationStoreError :=
  .InvalidState operation message

/-! ## Reading a hash -/

/-- `parse_field` on a field that a script wrote with `tostring`. -/
def parse_field (operation field : String) (limit : Nat) (text : lua.Text) : StoreResult Nat :=
  okOr (lua.parse limit text)
    (invalid_state operation ("aggregation field '" ++ field ++ "' is invalid"))

/-- `parse_field` on a field that `HINCRBY` counts. -/
def parse_count (operation field : String) (limit n : Nat) : StoreResult Nat :=
  parse_field operation field limit (.decimal n)

def status_text : RunStatus → String
  | .Open => "open"
  | .Partial => "partial"
  | .TimedOut => "timed_out"
  | .Cancelled => "cancelled"
  | .Complete => "complete"
  | .Other text => text

/-- A hash that is not there misses the field that is read first. -/
def required (snapshot : Option RunHash) (operation field : String) : StoreResult RunHash :=
  okOr snapshot (invalid_state operation ("aggregation field '" ++ field ++ "' is missing"))

def progress (snapshot : Option RunHash) (operation : String) :
    StoreResult (Nat × Nat × RunStatus) := do
  let h ← required snapshot operation "received_slices"
  let received ← parse_count operation "received_slices" U32_MAX h.received_slices
  let expected ← parse_field operation "expected_slices" U32_MAX h.expected_slices
  match h.status with
  | .Other _ => .error (invalid_state operation "aggregation status is invalid")
  | status => return (received, expected, status)

def finalized_status (status : RunStatus) (operation : String) :
    StoreResult (Option ScenarioRunSummaryStatus) :=
  match status with
  | .Open => .ok none
  | .Partial => .ok (some .Partial)
  | .TimedOut => .ok (some .TimedOut)
  | .Cancelled => .ok (some .Cancelled)
  | .Complete => .ok (some .Complete)
  | .Other _ => .error (invalid_state operation "aggregation status is invalid")

/-- The doubles 0.50, 0.95 and 0.99. -/
inductive Quantile
  | p50
  | p95
  | p99

def Quantile.mantissa : Quantile → Nat
  | .p50 => 4503599627370496
  | .p95 => 8556839292003942
  | .p99 => 8917127262193582

/-- The loop of `histogram_quantile`: the bound of the bucket that reaches the rank. -/
def quantile_bound (rank : Nat) : List (UInt64 × Nat) → Nat → Nat → Nat
  | [], _, previous_bound => previous_bound
  | (bound, count) :: rest, cumulative, previous_bound =>
    let cumulative := min (cumulative + count) U64_MAX
    if rank ≤ cumulative then
      if bound.toNat = U64_MAX then previous_bound else bound.toNat
    else quantile_bound rank rest cumulative bound.toNat

def histogram_quantile (histogram : List (UInt64 × Nat)) (quantile : Quantile) : Nat :=
  let total := (histogram.map (·.2)).sum
  if total = 0 then 0
  else quantile_bound (max (floats.mulCeil total quantile.mantissa) 1) histogram 0 0

/-- One bucket of the stored histogram: the bounds rise, and each has its count. -/
def read_bucket (operation : String) (latency : Counts Nat)
    (state : Option UInt64 × List (UInt64 × Nat)) (bucket : UInt64 × Nat) :
    StoreResult (Option UInt64 × List (UInt64 × Nat)) := do
  rejectIf (∃ previous ∈ state.1, bucket.1 ≤ previous)
    (invalid_state operation "stored latency histogram bounds are not strictly increasing")
  let stored ← okOr (latency.lookup bucket.2)
    (invalid_state operation "latency bucket count is missing")
  let count ← okOr (lua.parse U64_MAX (.decimal stored))
    (invalid_state operation "latency bucket count is invalid")
  return (some bucket.1, state.2 ++ [(bucket.1, count)])

/-- The stored error counts. -/
def read_errors (operation : String) (errors : Counts String) : StoreResult (List (String × Nat)) :=
  errors.entries.mapM fun e => do
    let count ← okOr (lua.parse U64_MAX (.decimal e.2))
      (invalid_state operation "stored error count is invalid")
    return (e.1, count)

/-- The kinds in the order of a `BTreeMap`. -/
def by_kind (errors : List (String × Nat)) : List (String × Nat) :=
  errors.insertionSort fun a b => a.1 ≤ b.1

def summary_status (status : RunStatus) (operation : String) :
    StoreResult ScenarioRunSummaryStatus :=
  match status with
  | .Partial => .ok .Partial
  | .TimedOut => .ok .TimedOut
  | .Cancelled => .ok .Cancelled
  | .Complete => .ok .Complete
  | other => .error (invalid_state operation
      ("cannot build a final summary from status '" ++ status_text other ++ "'"))

/-- A `u64::checked_add` over the counts of a histogram. -/
def add_count (operation : String) (total : Nat) (bucket : UInt64 × Nat) : StoreResult Nat :=
  okOr (checked_add total bucket.2)
    (invalid_state operation "stored latency histogram count overflowed")

def summary_from_snapshot (snapshot : Option RunHash) (operation : String) :
    StoreResult ScenarioRunSummary := do
  let h ← required snapshot operation "status"
  let status ← summary_status h.status operation
  let expected_slices ← parse_field operation "expected_slices" U32_MAX h.expected_slices
  let received_slices ← parse_count operation "received_slices" U32_MAX h.received_slices
  rejectIf (expected_slices < received_slices)
    (invalid_state operation "received slice count exceeds expected slice count")
  rejectIf (status = .Complete ∧ received_slices ≠ expected_slices)
    (invalid_state operation "complete aggregation does not contain every expected slice")
  rejectIf (status ≠ .Complete ∧ received_slices = expected_slices)
    (invalid_state operation "incomplete aggregation status contains every expected slice")
  rejectIf (∃ index ∈ h.slices.keys, expected_slices ≤ index)
    (invalid_state operation "stored slice index exceeds expected slice count")
  rejectIf (h.slices.keys.length ≠ received_slices)
    (invalid_state operation "stored received-slice count does not match slice identities")
  let missing_slices := (List.range expected_slices).filter fun index => index ∉ h.slices.keys
  let buckets ← h.histogram_bounds.zipIdx.foldlM (read_bucket operation h.latency) (none, [])
  let latency_histogram := buckets.2
  let errors ← read_errors operation h.errors
  let error_breakdown := by_kind errors
  let stored_error_kind_count ← parse_count operation "error_kind_count" U64_MAX h.error_kind_count
  rejectIf (error_breakdown.length ≠ stored_error_kind_count)
    (invalid_state operation "stored error-kind count does not match error fields")
  let total ← parse_count operation "total" U64_MAX h.total
  let success ← parse_count operation "success" U64_MAX h.success
  let failure ← parse_count operation "failure" U64_MAX h.failure
  rejectIf (checked_add success failure ≠ some total)
    (invalid_state operation "stored success and failure counts do not equal total")
  let histogram_total ← latency_histogram.foldlM (add_count operation) 0
  rejectIf (latency_histogram ≠ [] ∧ histogram_total ≠ total)
    (invalid_state operation "stored latency histogram count does not equal total")
  let first_result_at_unix_ms ← parse_field operation "first_result_at" U128_MAX h.first_result_at
  let finalized_at_unix_ms ← parse_field operation "finalized_at" U128_MAX h.finalized_at
  return {
    schema_version := h.schema_version
    scenario_id := h.scenario_id
    run_id := h.run_id
    status, expected_slices, received_slices, missing_slices, total, success, failure
    scenario_latency_p50_ms := histogram_quantile latency_histogram .p50
    scenario_latency_p95_ms := histogram_quantile latency_histogram .p95
    scenario_latency_p99_ms := histogram_quantile latency_histogram .p99
    latency_histogram, error_breakdown, first_result_at_unix_ms, finalized_at_unix_ms }

/-- What a summary tells about the hash that it was read from. -/
structure Decoded (h : RunHash) (operation : String) (summary : ScenarioRunSummary) : Prop where
  run_id : summary.run_id = h.run_id
  buckets : ∃ buckets,
    h.histogram_bounds.zipIdx.foldlM (read_bucket operation h.latency) (none, []) = .ok buckets
  finalized_at : lua.parse U128_MAX h.finalized_at = some summary.finalized_at_unix_ms

theorem decoded_of_summary {h : RunHash} {operation : String} {summary : ScenarioRunSummary}
    (hok : summary_from_snapshot (some h) operation = .ok summary) :
    Decoded h operation summary := by
  simp only [summary_from_snapshot, bind_eq_ok] at hok
  -- only the reads of the buckets and of the last time are kept
  obtain ⟨g, hg, _, -, _, -, _, -, _, -, _, -, _, -, _, -, _, -, buckets, hbuckets, _, -, _, -,
    _, -, _, -, _, -, _, -, _, -, _, -, _, -, _, -, final, hfinal, hsummary⟩ := hok
  cases hg
  cases hsummary
  rw [parse_field, okOr_eq_ok] at hfinal
  exact ⟨rfl, ⟨buckets, hbuckets⟩, hfinal⟩

def status_label : ScenarioRunSummaryStatus → String
  | .Partial => "partial"
  | .Complete => "complete"
  | .TimedOut => "timed-out"
  | .Cancelled => "cancelled"

def summary_event_id (run_id : String) (revision : Nat) (status : ScenarioRunSummaryStatus) :
    String :=
  run_id ++ ":summary:r" ++ toString revision ++ ":" ++ status_label status

/-- `none` is the empty reply for a key that is not there. -/
def durable_summary_from_snapshot (snapshot : Option RunHash) (operation : String) :
    StoreResult (Option DurableRunSummary) :=
  match snapshot with
  | none => .ok none
  | some h =>
    match h.status with
    | .Open => .ok none
    | .Other _ => .error (invalid_state operation "aggregation status is invalid")
    | _ => do
      let revision ← parse_count operation "summary_revision" U64_MAX h.summary_revision
      let pending_revision ←
        parse_field operation "summary_pending_revision" U64_MAX h.summary_pending_revision
      let acknowledged_revision ←
        parse_field operation "summary_ack_revision" U64_MAX h.summary_ack_revision
      rejectIf (revision = 0 ∨ revision < pending_revision ∨ revision < acknowledged_revision)
        (invalid_state operation "stored summary publication revisions are inconsistent")
      let summary ← summary_from_snapshot snapshot operation
      return some {
        revision
        event_id := summary_event_id summary.run_id revision summary.status
        pending_publication := acknowledged_revision < pending_revision
        summary }

end pulse.aggregation
