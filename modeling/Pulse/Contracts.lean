-- The contract of a slice result: what a worker sends for one slice of a
-- run, and the checks that accept it.
import Pulse.Checks
import Pulse.Strings

open checks strings

namespace pulse.contracts

/-! ## The result -/

def CURRENT_CONTRACT_VERSION : UInt16 := 2
def MIN_SUPPORTED_CONTRACT_VERSION : UInt16 := 1
def MAX_CONTRACT_ID_BYTES : Nat := 1024
def MAX_CONTRACT_SLICES : UInt32 := 4096
def MAX_CONTRACT_ATTEMPT : UInt32 := 32
def MAX_CONTRACT_ERROR_KINDS : Nat := 64
def MAX_CONTRACT_ERROR_KIND_BYTES : Nat := 256
def MAX_CONTRACT_HISTOGRAM_BUCKETS : Nat := 128
def MAX_CONTRACT_EXACT_INTEGER : Nat := 9007199254740991

inductive ContractError
  | UnsupportedVersion (found min_supported max_supported : UInt16)
  | FutureVersion (found max_supported : UInt16)
  | MissingField (field : String)
  | InvalidLoad (message : String)
  | InvalidSlice (message : String)
  | InvalidAttempt (attempt max_retries : UInt32)
  | InvalidResult (message : String)
  | SafetyLimit (message : String)
  | Malformed (message : String)
deriving DecidableEq, Repr

structure JobSlice where
  index : UInt32
  total : UInt32
deriving DecidableEq, Repr

inductive ScenarioRunStatus
  | Success
  | Failed
deriving DecidableEq, Repr

/-- `UInt64.size - 1` is the bound of the overflow bucket. -/
structure LatencyBucket where
  upper_bound_ms : UInt64
  count : UInt64
deriving DecidableEq, Repr

structure ErrorCount where
  kind : String
  count : UInt64
deriving DecidableEq, Repr

structure ScenarioRunResult where
  schema_version : UInt16
  scenario_id : String
  run_id : String
  execution_key : String
  event_id : String
  attempt : UInt32
  slice : JobSlice
  started_at_unix_ms : Nat
  finished_at_unix_ms : Nat
  status : ScenarioRunStatus
  total : UInt64
  success : UInt64
  failure : UInt64
  latency_histogram : List LatencyBucket
  error_breakdown : List ErrorCount
deriving DecidableEq, Repr

/-! ## The checks -/

/-- `u64::checked_add`. -/
def checked_add (a b : Nat) : Option Nat := if a + b < UInt64.size then some (a + b) else none

def build_terminal_event_id (execution_key : String) (attempt : UInt32) (kind : String) : String :=
  execution_key ++ ":attempt-" ++ toString attempt ++ ":" ++ kind

def validate_contract_version (version : UInt16) : Except ContractError Unit := do
  rejectIf (version < MIN_SUPPORTED_CONTRACT_VERSION)
    (.UnsupportedVersion version MIN_SUPPORTED_CONTRACT_VERSION CURRENT_CONTRACT_VERSION)
  rejectIf (CURRENT_CONTRACT_VERSION < version) (.FutureVersion version CURRENT_CONTRACT_VERSION)

def require_non_empty (field value : String) : Except ContractError Unit :=
  rejectIf (is_blank value = true) (.MissingField field)

def validate_identity_lengths (fields : List (String × String)) : Except ContractError Unit :=
  fields.forM fun (field, value) =>
    rejectIf (MAX_CONTRACT_ID_BYTES < len value)
      (.Malformed (field ++ " exceeds " ++ toString MAX_CONTRACT_ID_BYTES ++ " bytes"))

def validate_slice (slice : JobSlice) : Except ContractError Unit := do
  rejectIf (slice.total = 0) (.InvalidSlice "slice total must be greater than zero")
  rejectIf (MAX_CONTRACT_SLICES < slice.total)
    (.InvalidSlice ("slice total " ++ toString slice.total ++ " exceeds maximum " ++
      toString MAX_CONTRACT_SLICES))
  rejectIf (slice.total ≤ slice.index)
    (.InvalidSlice ("slice index " ++ toString slice.index ++ " must be less than total " ++
      toString slice.total))

/-- One bucket: its bound is above the previous one, and its count is added. -/
def validate_latency_bucket (state : Option UInt64 × Nat) (bucket : LatencyBucket) :
    Except ContractError (Option UInt64 × Nat) := do
  rejectIf (∃ bound ∈ state.1, bucket.upper_bound_ms ≤ bound)
    (.InvalidResult "latency histogram bounds must be strictly increasing")
  let count ← okOr (checked_add state.2 bucket.count.toNat)
    (.InvalidResult "latency histogram count overflowed u64")
  return (some bucket.upper_bound_ms, count)

def validate_latency_buckets (buckets : List LatencyBucket) (expected_total : UInt64) :
    Except ContractError Unit := do
  rejectIf (MAX_CONTRACT_HISTOGRAM_BUCKETS < buckets.length)
    (.InvalidResult ("latency histogram has " ++ toString buckets.length ++
      " buckets; maximum is " ++ toString MAX_CONTRACT_HISTOGRAM_BUCKETS))
  if buckets = [] then .ok ()
  else do
    let state ← buckets.foldlM validate_latency_bucket (none, 0)
    rejectIf (state.2 ≠ expected_total.toNat)
      (.InvalidResult ("latency histogram count " ++ toString state.2 ++
        " does not equal total " ++ toString expected_total))

/-- One error kind: it is new, and its count is added. -/
def validate_error_count (state : List String × Nat) (error : ErrorCount) :
    Except ContractError (List String × Nat) := do
  require_non_empty "error_breakdown.kind" error.kind
  rejectIf (MAX_CONTRACT_ERROR_KIND_BYTES < len error.kind)
    (.InvalidResult ("error kind exceeds " ++ toString MAX_CONTRACT_ERROR_KIND_BYTES ++ " bytes"))
  rejectIf (error.kind ∈ state.1) (.InvalidResult ("duplicate error kind '" ++ error.kind ++ "'"))
  let total ← okOr (checked_add state.2 error.count.toNat)
    (.InvalidResult "error counts overflowed u64")
  return (error.kind :: state.1, total)

namespace ScenarioRunResult

/-- The passage of `validate` on the identities. -/
def validate_identity (result : ScenarioRunResult) : Except ContractError Unit := do
  validate_contract_version result.schema_version
  require_non_empty "scenario_id" result.scenario_id
  require_non_empty "run_id" result.run_id
  require_non_empty "execution_key" result.execution_key
  validate_identity_lengths [("scenario_id", result.scenario_id), ("run_id", result.run_id),
    ("execution_key", result.execution_key)]
  validate_slice result.slice
  rejectIf (MAX_CONTRACT_ATTEMPT < result.attempt)
    (.InvalidResult ("attempt " ++ toString result.attempt ++ " exceeds maximum " ++
      toString MAX_CONTRACT_ATTEMPT))
  if 2 ≤ result.schema_version then
    require_non_empty "event_id" result.event_id
    rejectIf (MAX_CONTRACT_ID_BYTES < len result.event_id)
      (.InvalidResult ("event_id exceeds " ++ toString MAX_CONTRACT_ID_BYTES ++ " bytes"))
    rejectIf (result.event_id ≠ build_terminal_event_id result.execution_key
      result.attempt "result")
      (.InvalidResult "event_id is not the deterministic result identity")
    rejectIf (0 < result.total ∧ result.latency_histogram = [])
      (.InvalidResult "version 2 results with observations require a mergeable latency histogram")

/-- The passage of `validate` on the total of the error counts. -/
def validate_error_total (result : ScenarioRunResult) (error_total : Nat) :
    Except ContractError Unit := do
  if 2 ≤ result.schema_version then
    [("total", result.total.toNat), ("success", result.success.toNat),
      ("failure", result.failure.toNat), ("error count", error_total)].forM fun (field, value) =>
        rejectIf (MAX_CONTRACT_EXACT_INTEGER < value)
          (.InvalidResult (field ++ " exceeds the exact aggregation integer range"))
    rejectIf (error_total ≠ result.failure.toNat)
      (.InvalidResult ("error count total " ++ toString error_total ++
        " does not equal failure count " ++ toString result.failure))
    rejectIf (∃ bucket ∈ result.latency_histogram, MAX_CONTRACT_EXACT_INTEGER < bucket.count.toNat)
      (.InvalidResult "latency bucket count exceeds the exact aggregation integer range")
  else
    rejectIf (result.failure.toNat < error_total)
      (.InvalidResult ("error count total " ++ toString error_total ++ " exceeds failure count " ++
        toString result.failure))

def validate (result : ScenarioRunResult) : Except ContractError Unit := do
  result.validate_identity
  let outcome_total ← okOr (checked_add result.success.toNat result.failure.toNat)
    (.InvalidResult "success + failure overflowed u64")
  rejectIf (outcome_total ≠ result.total.toNat)
    (.InvalidResult "success + failure must equal total")
  rejectIf (MAX_CONTRACT_ERROR_KINDS < result.error_breakdown.length)
    (.InvalidResult ("error breakdown has " ++ toString result.error_breakdown.length ++
      " kinds; maximum is " ++ toString MAX_CONTRACT_ERROR_KINDS))
  let state ← result.error_breakdown.foldlM validate_error_count ([], 0)
  result.validate_error_total state.2
  rejectIf (result.finished_at_unix_ms < result.started_at_unix_ms)
    (.InvalidResult "finished timestamp precedes started timestamp")
  validate_latency_buckets result.latency_histogram result.total

/-! ## What an accepted result promises -/

structure Valid (result : ScenarioRunResult) : Prop where
  scenario_id : is_blank result.scenario_id = false ∧ len result.scenario_id ≤ MAX_CONTRACT_ID_BYTES
  run_id : is_blank result.run_id = false ∧ len result.run_id ≤ MAX_CONTRACT_ID_BYTES
  execution_key : is_blank result.execution_key = false ∧
    len result.execution_key ≤ MAX_CONTRACT_ID_BYTES
  slice : result.slice.index < result.slice.total ∧ result.slice.total ≤ MAX_CONTRACT_SLICES
  outcome : result.success.toNat + result.failure.toNat = result.total.toNat
  kinds : ∀ error ∈ result.error_breakdown, is_blank error.kind = false ∧
    len error.kind ≤ MAX_CONTRACT_ERROR_KIND_BYTES
  kinds_nodup : (result.error_breakdown.map (·.kind)).Nodup
  buckets : result.latency_histogram.length ≤ MAX_CONTRACT_HISTOGRAM_BUCKETS
  bounds : (result.latency_histogram.map (·.upper_bound_ms)).Pairwise (· < ·)
  counts : result.latency_histogram ≠ [] →
    (result.latency_histogram.map (·.count.toNat)).sum = result.total.toNat

/-- The loop over the kinds accepts distinct kinds that are new. -/
theorem validate_error_counts_ok {errors : List ErrorCount} {state state' : List String × Nat}
    (h : errors.foldlM validate_error_count state = .ok state') :
    (∀ error ∈ errors, is_blank error.kind = false ∧
        len error.kind ≤ MAX_CONTRACT_ERROR_KIND_BYTES ∧ error.kind ∉ state.1) ∧
      (errors.map (·.kind)).Nodup := by
  induction errors generalizing state with
  | nil => simp
  | cons error errors ih =>
    rw [List.foldlM_cons, bind_eq_ok] at h
    obtain ⟨next, hstep, hrest⟩ := h
    simp only [validate_error_count, require_non_empty, bind_eq_ok, rejectIf_eq_ok] at hstep
    obtain ⟨_, hblank, _, hlen, _, hnew, total, -, hnext⟩ := hstep
    cases hnext
    obtain ⟨hall, hnodup⟩ := ih hrest
    constructor
    · intro e he
      rcases List.mem_cons.mp he with rfl | he
      · exact ⟨by simpa using hblank, by omega, hnew⟩
      · obtain ⟨h₁, h₂, h₃⟩ := hall e he
        exact ⟨h₁, h₂, fun hmem => h₃ (List.mem_cons_of_mem _ hmem)⟩
    · rw [List.map_cons, List.nodup_cons]
      refine ⟨?_, hnodup⟩
      intro hmem
      obtain ⟨e, he, hkind⟩ := List.mem_map.mp hmem
      exact (hall e he).2.2 (by rw [hkind]; exact List.mem_cons_self)

variable {buckets : List LatencyBucket}

/-- The loop over the buckets accepts rising bounds, and adds up the counts. -/
theorem validate_latency_buckets_fold {state state' : Option UInt64 × Nat}
    (h : buckets.foldlM validate_latency_bucket state = .ok state') :
    (∀ bound ∈ state.1, ∀ bucket ∈ buckets, bound < bucket.upper_bound_ms) ∧
      (buckets.map (·.upper_bound_ms)).Pairwise (· < ·) ∧
      state'.2 = state.2 + (buckets.map (·.count.toNat)).sum := by
  induction buckets generalizing state with
  | nil =>
    cases h
    simp
  | cons bucket buckets ih =>
    rw [List.foldlM_cons, bind_eq_ok] at h
    obtain ⟨next, hstep, hrest⟩ := h
    simp only [validate_latency_bucket, bind_eq_ok, rejectIf_eq_ok, okOr_eq_ok] at hstep
    obtain ⟨_, hbound, count, hcount, hnext⟩ := hstep
    cases hnext
    obtain ⟨habove, hpairwise, hsum⟩ := ih hrest
    have hfirst : ∀ bound ∈ state.1, bound < bucket.upper_bound_ms := by
      intro bound hmem
      have hnot : ¬ bucket.upper_bound_ms ≤ bound := fun hle => hbound ⟨bound, hmem, hle⟩
      exact UInt64.not_le.mp hnot
    refine ⟨?_, ?_, ?_⟩
    · intro bound hmem b hb
      rcases List.mem_cons.mp hb with rfl | hb
      · exact hfirst bound hmem
      · exact UInt64.lt_trans (hfirst bound hmem) (habove bucket.upper_bound_ms rfl b hb)
    · rw [List.map_cons, List.pairwise_cons]
      refine ⟨?_, hpairwise⟩
      intro bound hmem
      obtain ⟨b, hb, rfl⟩ := List.mem_map.mp hmem
      exact habove bucket.upper_bound_ms rfl b hb
    · have hadd : count = state.2 + bucket.count.toNat := by
        unfold checked_add at hcount
        split at hcount
        · exact (Option.some.inj hcount).symm
        · cases hcount
      simp only [hsum, hadd, List.map_cons, List.sum_cons]
      omega

theorem validate_latency_buckets_ok {total : UInt64}
    (h : validate_latency_buckets buckets total = .ok ()) :
    buckets.length ≤ MAX_CONTRACT_HISTOGRAM_BUCKETS ∧
      (buckets.map (·.upper_bound_ms)).Pairwise (· < ·) ∧
      (buckets ≠ [] → (buckets.map (·.count.toNat)).sum = total.toNat) := by
  simp only [validate_latency_buckets, seq_eq_ok, rejectIf_eq_ok] at h
  obtain ⟨hlength, hrest⟩ := h
  refine ⟨by omega, ?_⟩
  split at hrest
  · rename_i hnil
    simp [hnil]
  · simp only [bind_eq_ok, rejectIf_eq_ok, not_not] at hrest
    obtain ⟨state, hfold, htotal⟩ := hrest
    obtain ⟨-, hpairwise, hsum⟩ := validate_latency_buckets_fold hfold
    exact ⟨hpairwise, fun _ => by omega⟩

theorem valid_of_validate {result : ScenarioRunResult} (h : result.validate = .ok ()) :
    result.Valid := by
  simp only [validate, seq_eq_ok] at h
  obtain ⟨hid, hrest⟩ := h
  simp only [bind_eq_ok, rejectIf_eq_ok, okOr_eq_ok] at hrest
  obtain ⟨outcome, houtcome, _, htotal, _, -, state, herrors, _, -, _, -, hbuckets⟩ := hrest
  simp only [validate_identity, seq_eq_ok, require_non_empty, validate_identity_lengths,
    rejectIf_eq_ok, validate_slice] at hid
  obtain ⟨-, hscenario, hrun, hexecution, hlengths, ⟨hpos, hmax, hindex⟩, -⟩ := hid
  obtain ⟨hkinds, hnodup⟩ := validate_error_counts_ok herrors
  obtain ⟨hlength, hbounds, hcounts⟩ := validate_latency_buckets_ok hbuckets
  simp only [List.forM_eq_forM, List.forM_cons, List.forM_nil, seq_eq_ok,
    rejectIf_eq_ok] at hlengths
  obtain ⟨hl₁, hl₂, hl₃, -⟩ := hlengths
  have hadd : result.success.toNat + result.failure.toNat = outcome := by
    unfold checked_add at houtcome
    split at houtcome
    · exact Option.some.inj houtcome
    · cases houtcome
  exact
    { scenario_id := ⟨by simpa using hscenario, by omega⟩
      run_id := ⟨by simpa using hrun, by omega⟩
      execution_key := ⟨by simpa using hexecution, by omega⟩
      slice := ⟨UInt32.not_le.mp hindex, UInt32.not_lt.mp hmax⟩
      outcome := by omega
      kinds := fun e he => ⟨(hkinds e he).1, (hkinds e he).2.1⟩
      kinds_nodup := hnodup
      buckets := hlength
      bounds := hbounds
      counts := hcounts }

end ScenarioRunResult

end pulse.contracts
