-- The aggregation store and the run registration of the dispatcher: each
-- operation checks its input, runs one script, and decodes the reply.
import Pulse.AggregationSummary
import Pulse.Config
import Pulse.ExecutionLease

open checks counters durations sorted_sets strings
open pulse.config pulse.contracts pulse.coordination

namespace pulse.aggregation

def MAX_IDENTITY_BYTES : Nat := 1024
def DEFAULT_MAX_ERROR_KINDS : Nat := 64
def DEFAULT_MAX_ACTIVE_RUNS : Nat := 10000
def DEFAULT_MAX_SCAN_LIMIT : Nat := 1024

/-! ## Checks -/

def checked_duration_ms (operation : String) (duration : Nat) : StoreResult Nat := do
  rejectIf (duration = 0) (invalid_state operation "duration must be at least one millisecond")
  rejectIf (I64_MAX < Duration.as_millis duration)
    (invalid_state operation "duration exceeds the Redis integer range")
  return Duration.as_millis duration

def checked_lua_duration_ms (operation : String) (duration : Nat) : StoreResult Nat := do
  let millis ← checked_duration_ms operation duration
  rejectIf (MAX_CONTRACT_EXACT_INTEGER < millis)
    (invalid_state operation "duration exceeds Redis Lua's exact integer range")
  return millis

def exact_result_integer (field : String) (value : Nat) : StoreResult Unit :=
  rejectIf (MAX_CONTRACT_EXACT_INTEGER < value)
    (.Contract (.InvalidResult (field ++ " exceeds Redis Lua's exact integer range")))

def validate_identity (field value : String) : StoreResult Unit :=
  rejectIf (is_blank value = true ∨ MAX_IDENTITY_BYTES < len value)
    (invalid_state "aggregation_ingest"
      (field ++ " must be non-empty and at most " ++ toString MAX_IDENTITY_BYTES ++ " bytes"))

/-! ## The store -/

/-- A duration that `checked_lua_duration_ms` accepts. -/
def IsExact (duration : Nat) : Prop := 0 < duration ∧ Duration.as_millis duration ≤ lua.MAX_EXACT

instance (duration : Nat) : Decidable (IsExact duration) := inferInstanceAs (Decidable (_ ∧ _))

/-- A limit that the `with_` functions accept. -/
def IsLimit (limit : Nat) : Prop := 0 < limit ∧ limit ≤ lua.MAX_EXACT

instance (limit : Nat) : Decidable (IsLimit limit) := inferInstanceAs (Decidable (_ ∧ _))

/-- The settings of a store. Only `new` and the `with_` functions make one. -/
@[ext]
structure RedisRunAggregationStore where
  partial_timeout : Nat
  retention_ttl : Nat
  max_error_kinds : Nat
  max_active_runs : Nat
  max_scan_limit : Nat
  partial_timeout_exact : IsExact partial_timeout
  retention_exact : IsExact retention_ttl
  retention_exceeds : partial_timeout < retention_ttl
  error_kinds_limit : IsLimit max_error_kinds
  active_runs_limit : IsLimit max_active_runs
  scan_limit : IsLimit max_scan_limit

theorem checked_duration_ms_eq_ok {operation : String} {d m : Nat} :
    checked_duration_ms operation d = .ok m ↔
      0 < d ∧ Duration.as_millis d ≤ I64_MAX ∧ m = Duration.as_millis d := by
  simp only [checked_duration_ms, seq_eq_ok, rejectIf_eq_ok, pure, Except.pure, Except.ok.injEq]
  omega

theorem checked_lua_duration_ms_eq_ok {operation : String} {d m : Nat} :
    checked_lua_duration_ms operation d = .ok m ↔ IsExact d ∧ m = Duration.as_millis d := by
  have hmax : lua.MAX_EXACT ≤ I64_MAX := by decide
  have heq : MAX_CONTRACT_EXACT_INTEGER = lua.MAX_EXACT := rfl
  simp only [checked_lua_duration_ms, bind_eq_ok, checked_duration_ms_eq_ok, rejectIf_eq_ok, heq,
    IsExact, pure, Except.pure, Except.ok.injEq]
  constructor
  · rintro ⟨n, ⟨hpos, hle, rfl⟩, _, hexact, rfl⟩
    exact ⟨⟨hpos, by omega⟩, rfl⟩
  · rintro ⟨⟨hpos, hle⟩, rfl⟩
    exact ⟨_, ⟨hpos, by omega, rfl⟩, (), by omega, rfl⟩

namespace RedisRunAggregationStore

def new (key_space : String) (partial_timeout retention_ttl : Nat) :
    StoreResult RedisRunAggregationStore :=
  if is_blank key_space = true ∨ MAX_IDENTITY_BYTES < len key_space ∨
      '\x7b' ∈ key_space.toList ∨ '\x7d' ∈ key_space.toList then
    .error (invalid_state "aggregation_config" ("Redis aggregation key prefix must be " ++
      "non-empty, bounded, and contain no hash-tag braces"))
  else
    match hp : checked_lua_duration_ms "aggregation_config" partial_timeout with
    | .error e => .error e
    | .ok _ =>
      match hr : checked_lua_duration_ms "aggregation_config" retention_ttl with
      | .error e => .error e
      | .ok _ =>
        if hlt : partial_timeout < retention_ttl then
          .ok {
            partial_timeout, retention_ttl
            max_error_kinds := DEFAULT_MAX_ERROR_KINDS
            max_active_runs := DEFAULT_MAX_ACTIVE_RUNS
            max_scan_limit := DEFAULT_MAX_SCAN_LIMIT
            partial_timeout_exact := (checked_lua_duration_ms_eq_ok.mp hp).1
            retention_exact := (checked_lua_duration_ms_eq_ok.mp hr).1
            retention_exceeds := hlt
            error_kinds_limit := by decide
            active_runs_limit := by decide
            scan_limit := by decide }
        else
          .error (invalid_state "aggregation_config"
            "aggregation retention TTL must exceed the partial-run timeout")

/-- The timeout of the calls is only checked here: no script gets it. -/
def with_operation_timeout (store : RedisRunAggregationStore) (operation_timeout : Nat) :
    StoreResult RedisRunAggregationStore := do
  let _ ← checked_duration_ms "aggregation_config" operation_timeout
  return store

def with_max_error_kinds (store : RedisRunAggregationStore) (max_error_kinds : Nat) :
    StoreResult RedisRunAggregationStore :=
  if h : IsLimit max_error_kinds then .ok { store with max_error_kinds, error_kinds_limit := h }
  else .error (invalid_state "aggregation_config"
    "maximum error kinds must fit in Redis and be greater than zero")

def with_max_active_runs (store : RedisRunAggregationStore) (max_active_runs : Nat) :
    StoreResult RedisRunAggregationStore :=
  if h : IsLimit max_active_runs then .ok { store with max_active_runs, active_runs_limit := h }
  else .error (invalid_state "aggregation_config"
    "maximum active runs must fit in Redis and be greater than zero")

def with_max_scan_limit (store : RedisRunAggregationStore) (max_scan_limit : Nat) :
    StoreResult RedisRunAggregationStore :=
  if h : IsLimit max_scan_limit then .ok { store with max_scan_limit, scan_limit := h }
  else .error (invalid_state "aggregation_config"
    "maximum aggregation scan limit must fit in Redis and be greater than zero")

def partial_timeout_ms (store : RedisRunAggregationStore) : Nat :=
  Duration.as_millis store.partial_timeout

def retention_ms (store : RedisRunAggregationStore) : Nat := Duration.as_millis store.retention_ttl

/-- The milliseconds of the retention fit in Redis: only `new` checks it. -/
theorem checked_retention (store : RedisRunAggregationStore) (operation : String) :
    checked_duration_ms operation store.retention_ttl = .ok store.retention_ms := by
  have hmax : lua.MAX_EXACT ≤ I64_MAX := by decide
  have h := store.retention_exact
  exact checked_duration_ms_eq_ok.mpr ⟨h.1, Nat.le_trans h.2 hmax, rfl⟩

theorem checked_partial_timeout (store : RedisRunAggregationStore) (operation : String) :
    checked_duration_ms operation store.partial_timeout = .ok store.partial_timeout_ms := by
  have hmax : lua.MAX_EXACT ≤ I64_MAX := by decide
  have h := store.partial_timeout_exact
  exact checked_duration_ms_eq_ok.mpr ⟨h.1, Nat.le_trans h.2 hmax, rfl⟩

/-! ## `ingest` -/

/-- One error of a result, counted under its kind. -/
def normalize_error (errors : Counts String) (error : ErrorCount) :
    StoreResult (Counts String) := do
  rejectIf (is_blank error.kind = true ∨ MAX_CONTRACT_ERROR_KIND_BYTES < len error.kind)
    (invalid_state "aggregation_ingest" "error kind must be non-empty and at most 256 bytes")
  exact_result_integer "error count" error.count.toNat
  let count ← okOr (checked_add (count errors error.kind) error.count.toNat)
    (invalid_state "aggregation_ingest" "error count overflowed u64")
  exact_result_integer "merged error count" count
  return bump errors error.kind error.count.toNat

structure NormalizedResult where
  histogram_bounds : List UInt64
  histogram_counts : List Nat
  error_counts : List (String × Nat)

/-- The pairs of the error map in its order. -/
def error_pairs (errors : Counts String) : List (String × Nat) := by_kind (pairs errors)

/-- The passage of `normalize_result` before the histogram and the errors are read. -/
def check_result (store : RedisRunAggregationStore) (result : ScenarioRunResult) :
    StoreResult Unit := do
  result.validate.mapError .Contract
  rejectIf (MAX_CONTRACT_SLICES < result.slice.total)
    (invalid_state "aggregation_ingest"
      ("expected slices exceed the bounded maximum of " ++ toString MAX_CONTRACT_SLICES))
  rejectIf (MAX_CONTRACT_HISTOGRAM_BUCKETS < result.latency_histogram.length)
    (invalid_state "aggregation_ingest" ("latency histogram exceeds the bounded maximum of " ++
      toString MAX_CONTRACT_HISTOGRAM_BUCKETS ++ " buckets"))
  rejectIf (store.max_error_kinds < result.error_breakdown.length)
    (.ErrorKindCapacity store.max_error_kinds)
  validate_identity "scenario_id" result.scenario_id
  validate_identity "run_id" result.run_id
  validate_identity "execution_key" result.execution_key
  exact_result_integer "total" result.total.toNat
  exact_result_integer "success" result.success.toNat
  exact_result_integer "failure" result.failure.toNat

def normalize_result (store : RedisRunAggregationStore) (result : ScenarioRunResult) :
    StoreResult NormalizedResult := do
  store.check_result result
  result.latency_histogram.forM fun bucket =>
    exact_result_integer "latency bucket count" bucket.count.toNat
  let errors ← result.error_breakdown.foldlM normalize_error ∅
  rejectIf (store.max_error_kinds < errors.keys.length) (.ErrorKindCapacity store.max_error_kinds)
  return {
    histogram_bounds := result.latency_histogram.map (·.upper_bound_ms)
    histogram_counts := result.latency_histogram.map (·.count.toNat)
    error_counts := error_pairs errors }

/-- The arguments of `INGEST_SCRIPT` for a normalized result. -/
def script_args (store : RedisRunAggregationStore) (result : ScenarioRunResult)
    (normalized : NormalizedResult) (retention_ms partial_timeout_ms : Nat) : IngestArgs where
  scenario_id := result.scenario_id
  run_id := result.run_id
  schema_version := result.schema_version
  expected_slices := result.slice.total.toNat
  histogram_bounds := normalized.histogram_bounds
  slice :=
    { index := result.slice.index.toNat
      execution_key := result.execution_key
      total := result.total.toNat
      success := result.success.toNat
      failure := result.failure.toNat
      counts := normalized.histogram_counts
      errors := normalized.error_counts }
  retention_ms := retention_ms
  max_error_kinds := store.max_error_kinds
  max_active_runs := store.max_active_runs
  partial_timeout_ms := partial_timeout_ms

def ingest_args (store : RedisRunAggregationStore) (result : ScenarioRunResult) :
    StoreResult IngestArgs := do
  let normalized ← store.normalize_result result
  let retention_ms ← checked_duration_ms "aggregation_ingest" store.retention_ttl
  let partial_timeout_ms ← checked_duration_ms "aggregation_ingest" store.partial_timeout
  return store.script_args result normalized retention_ms partial_timeout_ms

end RedisRunAggregationStore

def is_permanent_result_conflict (message : String) : Prop :=
  message = "scenario, schema, expected slices, or histogram bounds changed" ∨
    message = "slice index already belongs to a different execution identity" ∨
    message = "execution identity already belongs to a different slice" ∨
    message = "terminal run cannot accept an unrecorded slice"

instance (message : String) : Decidable (is_permanent_result_conflict message) :=
  inferInstanceAs (Decidable (_ ∨ _))

def unknown_code (operation : String) (code : Nat) : RunAggregationStoreError :=
  invalid_state operation ("unknown Redis response code " ++ toString code)

namespace RedisRunAggregationStore

/-- What `ingest` makes of the reply of its script. -/
def ingest_reply (store : RedisRunAggregationStore) (reply : Reply) :
    StoreResult RunAggregationUpdate :=
  let operation := "aggregation_ingest"
  match reply.code with
  | 1 => do
    let (received_slices, expected_slices, _) ← progress reply.snapshot operation
    return .Accepted received_slices expected_slices
  | 2 => do
    let (received_slices, expected_slices, status) ← progress reply.snapshot operation
    let status ← finalized_status status operation
    return .Duplicate received_slices expected_slices status
  | 3 => do
    let summary ← summary_from_snapshot reply.snapshot operation
    return .Completed summary
  | 4 => do
    let summary ← summary_from_snapshot reply.snapshot operation
    return .LateCompleted summary
  | 5 =>
    if is_permanent_result_conflict reply.message then .error (.InconsistentResult reply.message)
    else .error (invalid_state operation reply.message)
  | 6 => .error (.ErrorKindCapacity store.max_error_kinds)
  | 7 => do
    let (received_slices, expected_slices, _) ← progress reply.snapshot operation
    return .LateAccepted received_slices expected_slices
  | 8 => .error (.ActiveRunCapacity store.max_active_runs)
  | 9 => .error (.Contract (.InvalidResult reply.message))
  | other => .error (unknown_code operation other)

def ingest (store : RedisRunAggregationStore) (result : ScenarioRunResult) (w : World) :
    StoreResult RunAggregationUpdate × World :=
  match store.ingest_args result with
  | .error error => (.error error, w)
  | .ok args =>
    let (reply, w) := ingest_script args w
    (store.ingest_reply reply, w)

/-! ## `mark_expired` and `finalize_run` -/

def expiry_reply (reply : ExpiryReply) : StoreResult RunExpiryOutcome :=
  let operation := "aggregation_mark_expired"
  match reply.code, reply.message with
  | 0, _ => .ok .Missing
  | 1, .number delay => do
    let retry_ms ← okOr (lua.parse U64_MAX delay)
      (invalid_state operation "Redis returned an invalid expiration delay")
    return .NotExpired (Duration.from_millis retry_ms)
  | 2, _ => do
    let summary ← summary_from_snapshot reply.snapshot operation
    return .MarkedTimedOut summary
  | 3, _ => do
    let summary ← summary_from_snapshot reply.snapshot operation
    return .AlreadyFinalized summary
  | 4, .text message => .error (invalid_state operation message)
  | other, _ => .error (unknown_code operation other)

def mark_expired (store : RedisRunAggregationStore) (run_id : String) (w : World) :
    StoreResult RunExpiryOutcome × World :=
  match validate_identity "run_id" run_id,
      checked_duration_ms "aggregation_mark_expired" store.retention_ttl with
  | .error error, _ => (.error error, w)
  | _, .error error => (.error error, w)
  | .ok (), .ok retention_ms =>
    let (reply, w) := mark_expired_script retention_ms run_id w
    (expiry_reply reply, w)

/-- The status that `finalize_run` sends. -/
def requested_status : ScenarioRunSummaryStatus → StoreResult RunStatus
  | .Partial => .ok .Partial
  | .Cancelled => .ok .Cancelled
  | .Complete | .TimedOut => .error (invalid_state "aggregation_finalize_run"
      "explicit finalization only accepts Partial or Cancelled")

def finalization_args (store : RedisRunAggregationStore) (run_id : String)
    (status : ScenarioRunSummaryStatus) : StoreResult (RunStatus × Nat) := do
  validate_identity "run_id" run_id
  let status ← requested_status status
  let retention_ms ← checked_duration_ms "aggregation_finalize_run" store.retention_ttl
  return (status, retention_ms)

def finalization_reply (reply : Reply) : StoreResult RunFinalizationOutcome :=
  let operation := "aggregation_finalize_run"
  match reply.code with
  | 0 => .ok .Missing
  | 1 => do
    let summary ← summary_from_snapshot reply.snapshot operation
    return .Finalized summary
  | 2 => do
    let summary ← summary_from_snapshot reply.snapshot operation
    return .AlreadyFinalized summary
  | 3 => .error (invalid_state operation reply.message)
  | other => .error (unknown_code operation other)

def finalize_run (store : RedisRunAggregationStore) (run_id : String)
    (status : ScenarioRunSummaryStatus) (w : World) : StoreResult RunFinalizationOutcome × World :=
  match store.finalization_args run_id status with
  | .error error => (.error error, w)
  | .ok (status, retention_ms) =>
    let (reply, w) := finalize_run_script status retention_ms run_id w
    (finalization_reply reply, w)

/-! ## The outbox and the deadlines -/

def acknowledge_args (store : RedisRunAggregationStore) (run_id : String) (revision : UInt64) :
    StoreResult Nat := do
  let operation := "aggregation_acknowledge_summary"
  validate_identity "run_id" run_id
  rejectIf (revision = 0 ∨ I64_MAX < revision.toNat)
    (invalid_state operation "summary revision must be within 1..=i64::MAX")
  checked_duration_ms operation store.retention_ttl

def acknowledge_reply (reply : AcknowledgeReply) : StoreResult SummaryAcknowledgement :=
  let operation := "aggregation_acknowledge_summary"
  match reply.code with
  | 0 => .ok .Missing
  | 1 => .ok .Acknowledged
  | 2 => .ok .AlreadyAcknowledged
  | 3 => .ok (.Stale reply.current)
  | 4 => .error (invalid_state operation reply.message)
  | other => .error (unknown_code operation other)

def acknowledge_summary (store : RedisRunAggregationStore) (run_id : String) (revision : UInt64)
    (w : World) : StoreResult SummaryAcknowledgement × World :=
  match store.acknowledge_args run_id revision with
  | .error error => (.error error, w)
  | .ok retention_ms =>
    let (reply, w) := acknowledge_script revision.toNat run_id retention_ms w
    (acknowledge_reply reply, w)

def validate_scan_limit (store : RedisRunAggregationStore) (limit : Nat) : StoreResult Nat := do
  rejectIf (limit = 0 ∨ store.max_scan_limit < limit)
    (invalid_state "aggregation_scan"
      ("scan limit must be within 1..=" ++ toString store.max_scan_limit))
  rejectIf (I64_MAX < limit) (invalid_state "aggregation_scan" "scan limit exceeds Redis range")
  return limit

def due_runs (store : RedisRunAggregationStore) (limit : Nat) (w : World) :
    StoreResult (List String) := do
  let limit ← store.validate_scan_limit limit
  return due_runs_script limit w

def load_summary (run_id : String) (w : World) : StoreResult (Option DurableRunSummary) := do
  validate_identity "run_id" run_id
  durable_summary_from_snapshot (w.find run_id) "aggregation_load_summary"

/-- The loop of `pending_summaries` over the snapshots that it has read: the summaries that wait
for publication, and the runs to be cleaned from the outbox. -/
def collect_pending (snapshots : List (String × Option RunHash)) :
    StoreResult (List DurableRunSummary × List String) :=
  snapshots.foldlM (fun (summaries, stale) (run_id, snapshot) => do
    match ← durable_summary_from_snapshot snapshot "aggregation_pending_summaries" with
    | some summary =>
      if summary.pending_publication then return (summaries ++ [summary], stale)
      else return (summaries, stale ++ [run_id])
    | none => return (summaries, stale ++ [run_id])) ([], [])

end RedisRunAggregationStore

/-! ## `register_run` of the dispatcher -/

structure AggregationRegistrationConfig where
  partial_timeout : Nat
  retention : Nat
  max_active_runs : Nat

/-- The fields of a dispatch window that `register_run` reads. -/
structure DispatchWindow where
  scenario_id : String
  run_id : String
  scheduled_at_unix_ms : Nat
  contract_version : UInt16
  total_slices : UInt32
deriving DecidableEq

def registration_error (message : String) : CoordinationError :=
  .InvalidState "aggregation_register_run" message

/-- `u128::checked_add`. -/
def checked_add_u128 (a b : Nat) : Option Nat := if a + b ≤ U128_MAX then some (a + b) else none

def register_args (config : AggregationRegistrationConfig) (window : DispatchWindow)
    (load_duration : Nat) : Except CoordinationError RegisterArgs := do
  let load_ms := Duration.as_millis load_duration
  rejectIf (U64_MAX < load_ms) (registration_error "load duration exceeds u64 milliseconds")
  let partial_ms := Duration.as_millis config.partial_timeout
  rejectIf (U64_MAX < partial_ms) (registration_error "partial timeout exceeds u64 milliseconds")
  let deadline ← okOr
    ((checked_add_u128 window.scheduled_at_unix_ms load_ms).bind (checked_add_u128 · partial_ms))
    (registration_error "run deadline overflowed")
  rejectIf (lua.MAX_EXACT < deadline)
    (registration_error "run deadline exceeds Redis Lua's exact integer range")
  let retention_ms ← duration_ms "aggregation_register_run" config.retention
  rejectIf (I64_MAX < config.max_active_runs)
    (registration_error "active-run limit exceeds Redis range")
  rejectIf (config.max_active_runs < 1) (registration_error "active-run limit must be positive")
  return {
    run_id := window.run_id
    scenario_id := window.scenario_id
    schema_version := window.contract_version
    expected_slices := window.total_slices.toNat
    deadline_at := deadline
    retention_ms
    max_active := config.max_active_runs }

def registration_reply (reply : Nat × String) : Except CoordinationError Unit :=
  match reply.1 with
  | 1 | 2 => .ok ()
  | 3 | 4 => .error (registration_error reply.2)
  | other => .error (registration_error ("unknown Redis response code " ++ toString other))

/-- A dispatcher without a registration config registers nothing. -/
def register_run (registration : Option AggregationRegistrationConfig) (window : DispatchWindow)
    (load_duration : Nat) (w : World) : Except CoordinationError Unit × World :=
  match registration with
  | none => (.ok (), w)
  | some config =>
    match register_args config window load_duration with
    | .error error => (.error error, w)
    | .ok args =>
      let (reply, w) := register_script args w
      (registration_reply reply, w)

/-! ## The wiring of a node -/

/-- The registration config that a node makes from the settings of its store. -/
def RedisRunAggregationStore.registration (store : RedisRunAggregationStore) :
    AggregationRegistrationConfig :=
  ⟨store.partial_timeout, store.retention_ttl, store.max_active_runs⟩

/-- The store of a node with aggregation enabled. -/
def aggregation_store (config : AppConfig) : StoreResult RedisRunAggregationStore := do
  let store ← RedisRunAggregationStore.new config.redis_aggregation_prefix
    config.aggregation_partial_timeout config.aggregation_retention
  let store ← store.with_operation_timeout config.redis_operation_timeout
  let store ← store.with_max_error_kinds config.aggregation_max_error_kinds
  let store ← store.with_max_active_runs config.aggregation_max_active_runs
  store.with_max_scan_limit config.aggregation_scan_batch

/-! ## Samples -/

/-- The store of a node with the default settings. -/
def defaultStore : RedisRunAggregationStore where
  partial_timeout := Duration.from_millis 60000
  retention_ttl := Duration.from_millis 86400000
  max_error_kinds := 64
  max_active_runs := 10000
  max_scan_limit := 128
  partial_timeout_exact := by decide
  retention_exact := by decide
  retention_exceeds := by decide
  error_kinds_limit := by decide
  active_runs_limit := by decide
  scan_limit := by decide

/-- The second of two slices, with three observations and two kinds of errors. -/
def sampleResult : ScenarioRunResult where
  schema_version := 2
  scenario_id := "checkout"
  run_id := "run-1"
  execution_key := "run-1:slice-1-of-2"
  event_id := "run-1:slice-1-of-2:attempt-0:result"
  attempt := 0
  slice := ⟨1, 2⟩
  started_at_unix_ms := 0
  finished_at_unix_ms := 5
  status := .Failed
  total := 3
  success := 1
  failure := 2
  latency_histogram := [⟨10, 2⟩, ⟨100, 1⟩]
  error_breakdown := [⟨"timeout", 1⟩, ⟨"refused", 1⟩]

/-- The only slice of a run. -/
def singleResult : ScenarioRunResult := { sampleResult with slice := ⟨0, 1⟩ }

end pulse.aggregation
