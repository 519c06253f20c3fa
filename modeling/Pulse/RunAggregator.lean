-- The aggregator of runs in memory (application/aggregation.rs): a map of run
-- states, the merge of a result into its run, and the runs whose results do not
-- come in time.
import Pulse.AggregationSummary
import Mathlib.Data.Finset.Card

open checks counters durations
open pulse.contracts

namespace pulse.aggregation

inductive AggregationUpdate
  | Accepted
  | Duplicate
  | Finalized (summary : ScenarioRunSummary)
  | LateUpdate (summary : ScenarioRunSummary)
deriving DecidableEq, Repr

inductive AggregationError
  | Contract (error : ContractError)
  | Capacity (max_runs : Nat)
  | InconsistentRun (message : String)
deriving DecidableEq, Repr

def saturating_add (a b : Nat) : Nat := min (a + b) U64_MAX

/-- `*map.entry(key).or_insert(0) += n` on counters of 64 bits. -/
def add_entry {κ : Type} [DecidableEq κ] (m : Counts κ) (entry : κ × Nat) : Counts κ :=
  m.insert entry.1 ((count m entry.1 + entry.2) % 2 ^ 64)

/-- The buckets in the order of their bounds. -/
def by_bound (buckets : List (UInt64 × Nat)) : List (UInt64 × Nat) :=
  buckets.insertionSort fun a b => a.1 ≤ b.1

/-! ## The state of a run -/

structure RunState where
  schema_version : UInt16
  scenario_id : String
  run_id : String
  expected_slices : UInt32
  received_execution_keys : Finset String
  received_slice_indexes : Finset UInt32
  total : Nat
  success : Nat
  failure : Nat
  histogram : Counts UInt64
  errors : Counts String
  first_result_at_unix_ms : Nat
  last_result_at_unix_ms : Nat
  finalized_status : Option ScenarioRunSummaryStatus

namespace RunState

def from_first (result : ScenarioRunResult) (now_unix_ms : Nat) : RunState where
  schema_version := result.schema_version
  scenario_id := result.scenario_id
  run_id := result.run_id
  expected_slices := result.slice.total
  received_execution_keys := ∅
  received_slice_indexes := ∅
  total := 0
  success := 0
  failure := 0
  histogram := ∅
  errors := ∅
  first_result_at_unix_ms := now_unix_ms
  last_result_at_unix_ms := now_unix_ms
  finalized_status := none

def validate_compatible (state : RunState) (result : ScenarioRunResult) :
    Except AggregationError Unit :=
  rejectIf (state.scenario_id ≠ result.scenario_id ∨ state.expected_slices ≠ result.slice.total ∨
      state.schema_version ≠ result.schema_version)
    (.InconsistentRun ("run '" ++ result.run_id ++
      "' changed scenario, slice total, or schema version"))

/-- The bounds of the histogram in their order. -/
def existing_bounds (state : RunState) : List UInt64 :=
  (by_bound (pairs state.histogram)).map (·.1)

def merge (state : RunState) (result : ScenarioRunResult) (received_at_unix_ms : Nat) :
    Except AggregationError RunState := do
  rejectIf (pairs state.histogram ≠ [] ∧ result.latency_histogram ≠ [] ∧
      state.existing_bounds ≠ result.latency_histogram.map (·.upper_bound_ms))
    (.InconsistentRun "latency histogram bounds changed between slices")
  return { state with
    received_execution_keys := insert result.execution_key state.received_execution_keys
    received_slice_indexes := insert result.slice.index state.received_slice_indexes
    total := saturating_add state.total result.total.toNat
    success := saturating_add state.success result.success.toNat
    failure := saturating_add state.failure result.failure.toNat
    histogram := (result.latency_histogram.map fun bucket =>
      (bucket.upper_bound_ms, bucket.count.toNat)).foldl add_entry state.histogram
    errors := (result.error_breakdown.map fun error =>
      (error.kind, error.count.toNat)).foldl add_entry state.errors
    last_result_at_unix_ms := received_at_unix_ms }

/-- `histogram_quantile` is the same code here as in the store. -/
def summary (state : RunState) (status : ScenarioRunSummaryStatus) (finalized_at_unix_ms : Nat) :
    ScenarioRunSummary :=
  let histogram := by_bound (pairs state.histogram)
  { schema_version := state.schema_version
    scenario_id := state.scenario_id
    run_id := state.run_id
    status := status
    expected_slices := state.expected_slices.toNat
    received_slices := state.received_slice_indexes.card
    missing_slices := (List.range state.expected_slices.toNat).filter fun index =>
      UInt32.ofNat index ∉ state.received_slice_indexes
    total := state.total
    success := state.success
    failure := state.failure
    scenario_latency_p50_ms := histogram_quantile histogram .p50
    scenario_latency_p95_ms := histogram_quantile histogram .p95
    scenario_latency_p99_ms := histogram_quantile histogram .p99
    latency_histogram := histogram
    error_breakdown := by_kind (pairs state.errors)
    first_result_at_unix_ms := state.first_result_at_unix_ms
    finalized_at_unix_ms := finalized_at_unix_ms }

/-- The result has arrived already. -/
def knows (state : RunState) (result : ScenarioRunResult) : Prop :=
  result.execution_key ∈ state.received_execution_keys ∨
    result.slice.index ∈ state.received_slice_indexes

instance (state : RunState) (result : ScenarioRunResult) : Decidable (state.knows result) :=
  inferInstanceAs (Decidable (_ ∨ _))

/-- The passage of `RunAggregator::ingest` on the entry of the run. -/
def ingest (state : RunState) (result : ScenarioRunResult) (received_at_unix_ms : Nat) :
    Except AggregationError AggregationUpdate × RunState :=
  match state.validate_compatible result with
  | .error error => (.error error, state)
  | .ok () =>
    if state.knows result then (.ok .Duplicate, state)
    else
      match state.merge result received_at_unix_ms with
      | .error error => (.error error, state)
      | .ok merged =>
        if merged.received_slice_indexes.card = merged.expected_slices.toNat then
          let final := { merged with finalized_status := some .Complete }
          let summary := final.summary .Complete received_at_unix_ms
          (.ok (if state.finalized_status.isSome then .LateUpdate summary else .Finalized summary),
            final)
        else (.ok .Accepted, merged)

/-- The turn of `finalize_expired` for one run. -/
def expire (state : RunState) (now_unix_ms timeout_ms : Nat) :
    Option ScenarioRunSummary × RunState :=
  if state.finalized_status.isSome ∨ now_unix_ms - state.first_result_at_unix_ms < timeout_ms then
    (none, state)
  else
    let final := { state with finalized_status := some .TimedOut }
    (some (final.summary .TimedOut now_unix_ms), final)

end RunState

/-! ## The aggregator -/

/-- The runs by their identity. -/
structure RunAggregator where
  runs : List (String × RunState)
  max_runs : Nat
  max_runs_pos : 0 < max_runs

namespace RunAggregator

def new (max_runs : Nat) (h : 0 < max_runs) : RunAggregator := ⟨[], max_runs, h⟩

/-- The entry of a run is replaced, or added. -/
def put (run_id : String) (state : RunState) :
    List (String × RunState) → List (String × RunState)
  | [] => [(run_id, state)]
  | entry :: rest =>
    if entry.1 = run_id then (run_id, state) :: rest else entry :: put run_id state rest

def ingest (aggregator : RunAggregator) (result : ScenarioRunResult)
    (received_at_unix_ms : Nat) : Except AggregationError AggregationUpdate × RunAggregator :=
  match result.validate with
  | .error error => (.error (.Contract error), aggregator)
  | .ok () =>
    let found := aggregator.runs.lookup result.run_id
    if found.isNone ∧ aggregator.max_runs ≤ aggregator.runs.length then
      (.error (.Capacity aggregator.max_runs), aggregator)
    else
      -- a run that was not there stays in the map, also when the result is refused
      let state := found.getD (.from_first result received_at_unix_ms)
      let (reply, state) := state.ingest result received_at_unix_ms
      (reply, { aggregator with runs := put result.run_id state aggregator.runs })

def finalize_expired (aggregator : RunAggregator) (now_unix_ms timeout : Nat) :
    List ScenarioRunSummary × RunAggregator :=
  let timeout_ms := Duration.as_millis timeout
  let summaries := aggregator.runs.filterMap fun entry => (entry.2.expire now_unix_ms timeout_ms).1
  (summaries.insertionSort fun a b => a.run_id ≤ b.run_id, { aggregator with
      runs := aggregator.runs.map fun entry =>
        (entry.1, (entry.2.expire now_unix_ms timeout_ms).2) })

def cancel (aggregator : RunAggregator) (run_id : String) (now_unix_ms : Nat) :
    Option ScenarioRunSummary × RunAggregator :=
  match aggregator.runs.lookup run_id with
  | none => (none, aggregator)
  | some state =>
    let final := { state with finalized_status := some .Cancelled }
    (some (final.summary .Cancelled now_unix_ms),
      { aggregator with runs := put run_id final aggregator.runs })

end RunAggregator

end pulse.aggregation
