-- What the aggregation store promises to its script: a result that passes
-- the checks gives arguments that agree with each other and are exact.
import Pulse.AggregationStore

open checks counters durations sorted_sets strings
open pulse.contracts

namespace pulse.aggregation

/-- The arguments `a` that the store makes from an accepted result. -/
structure Admissible (store : RedisRunAggregationStore) (result : ScenarioRunResult)
    (a : IngestArgs) : Prop where
  valid : result.Valid
  scenario_id : a.scenario_id = result.scenario_id
  run_id : a.run_id = result.run_id
  schema_version : a.schema_version = result.schema_version
  expected_slices : a.expected_slices = result.slice.total.toNat
  index : a.slice.index = result.slice.index.toNat
  execution_key : a.slice.execution_key = result.execution_key
  total : a.slice.total = result.total.toNat
  success : a.slice.success = result.success.toNat
  failure : a.slice.failure = result.failure.toNat
  bounds : a.histogram_bounds = result.latency_histogram.map (·.upper_bound_ms)
  counts : a.slice.counts = result.latency_histogram.map (·.count.toNat)
  errors : ∀ kind, added a.slice.errors kind =
    added (result.error_breakdown.map fun e => (e.kind, e.count.toNat)) kind
  retention_ms : a.retention_ms = store.retention_ms
  partial_timeout_ms : a.partial_timeout_ms = store.partial_timeout_ms
  max_error_kinds : a.max_error_kinds = store.max_error_kinds
  max_active_runs : a.max_active_runs = store.max_active_runs
  total_exact : a.slice.total ≤ lua.MAX_EXACT
  counts_exact : ∀ c ∈ a.slice.counts, c ≤ lua.MAX_EXACT
  errors_exact : ∀ e ∈ a.slice.errors, e.2 ≤ lua.MAX_EXACT
  kinds_nodup : (a.slice.errors.map (·.1)).Nodup
  kinds_limit : a.slice.errors.length ≤ store.max_error_kinds

namespace RedisRunAggregationStore

theorem normalize_errors_ok {errors : List ErrorCount} {m m' : Counts String}
    (h : errors.foldlM normalize_error m = .ok m') :
    m' = bumpAll m (errors.map fun e => (e.kind, e.count.toNat)) ∧
      ((∀ k, count m k ≤ lua.MAX_EXACT) → ∀ k, count m' k ≤ lua.MAX_EXACT) := by
  induction errors generalizing m with
  | nil =>
    cases h
    exact ⟨rfl, id⟩
  | cons error errors ih =>
    rw [List.foldlM_cons, bind_eq_ok] at h
    obtain ⟨next, hstep, hrest⟩ := h
    simp only [normalize_error, bind_eq_ok, exact_result_integer, rejectIf_eq_ok,
      okOr_eq_ok] at hstep
    obtain ⟨_, -, _, -, n, hadd, _, hexact, hnext⟩ := hstep
    cases hnext
    obtain ⟨heq, hle⟩ := ih hrest
    have hn : n = count m error.kind + error.count.toNat := by
      unfold checked_add at hadd
      split at hadd
      · exact (Option.some.inj hadd).symm
      · cases hadd
    refine ⟨heq, fun hm => hle ?_⟩
    intro k
    rw [count_bump]
    split
    · rename_i hk
      subst hk
      have hmax : MAX_CONTRACT_EXACT_INTEGER = lua.MAX_EXACT := rfl
      omega
    · exact hm k

theorem perm_error_pairs (m : Counts String) : (error_pairs m).Perm (pairs m) :=
  List.perm_insertionSort _ _

theorem error_pairs_exact {m : Counts String} (h : ∀ k, count m k ≤ lua.MAX_EXACT) :
    ∀ e ∈ error_pairs m, e.2 ≤ lua.MAX_EXACT := by
  intro e he
  have hmem := (perm_error_pairs m).mem_iff.mp he
  have hadd := added_of_mem (by rw [map_fst_pairs]; exact m.keys_nodup) hmem
  rw [added_pairs] at hadd
  rw [← hadd]
  exact h e.1

variable {store : RedisRunAggregationStore} {result : ScenarioRunResult}

theorem check_result_ok (h : store.check_result result = .ok ()) :
    result.Valid ∧ result.total.toNat ≤ lua.MAX_EXACT := by
  simp only [check_result, seq_eq_ok, exact_result_integer, rejectIf_eq_ok, mapError_eq_ok] at h
  obtain ⟨hvalid, -, -, -, -, -, -, htotal, -, -⟩ := h
  have hmax : MAX_CONTRACT_EXACT_INTEGER = lua.MAX_EXACT := rfl
  exact ⟨ScenarioRunResult.valid_of_validate hvalid, by omega⟩

theorem forM_exact {buckets : List LatencyBucket} {field : String}
    (h : (buckets.forM fun b => exact_result_integer field b.count.toNat) = .ok ()) :
    ∀ b ∈ buckets, b.count.toNat ≤ lua.MAX_EXACT := by
  intro b hb
  have hcheck := forM_eq_ok.mp h b hb
  rw [exact_result_integer, rejectIf_eq_ok] at hcheck
  have hmax : MAX_CONTRACT_EXACT_INTEGER = lua.MAX_EXACT := rfl
  omega

/-- What the checks and the normalization of a result give to the script. -/
theorem ingest_args_ok {a : IngestArgs} (h : store.ingest_args result = .ok a) :
    Admissible store result a := by
  simp only [ingest_args, bind_eq_ok, checked_retention, checked_partial_timeout] at h
  obtain ⟨normalized, hnormal, _, hretention, _, hpartial, ha⟩ := h
  cases hretention
  cases hpartial
  cases ha
  simp only [normalize_result, bind_eq_ok, rejectIf_eq_ok] at hnormal
  obtain ⟨_, hcheck, _, hbuckets, m, herrors, _, hkinds, hnormal⟩ := hnormal
  cases hnormal
  obtain ⟨hvalid, htotal⟩ := check_result_ok hcheck
  obtain ⟨rfl, hexact⟩ := normalize_errors_ok herrors
  have hcounts := hexact (by simp)
  have hperm := perm_error_pairs
    (bumpAll ∅ (result.error_breakdown.map fun e => (e.kind, e.count.toNat)))
  exact
    { valid := hvalid
      scenario_id := rfl
      run_id := rfl
      schema_version := rfl
      expected_slices := rfl
      index := rfl
      execution_key := rfl
      total := rfl
      success := rfl
      failure := rfl
      bounds := rfl
      counts := rfl
      errors := by
        intro kind
        have hsum := count_bumpAll ∅ (result.error_breakdown.map fun e =>
          (e.kind, e.count.toNat)) kind
        rw [count_empty, Nat.zero_add, ← added_pairs] at hsum
        exact (added_perm hperm kind).trans hsum
      retention_ms := rfl
      partial_timeout_ms := rfl
      max_error_kinds := rfl
      max_active_runs := rfl
      total_exact := htotal
      counts_exact := by
        intro c hc
        obtain ⟨b, hb, rfl⟩ := List.mem_map.mp hc
        exact forM_exact hbuckets b hb
      errors_exact := error_pairs_exact hcounts
      kinds_nodup := by
        refine (hperm.map _).nodup_iff.mpr ?_
        rw [map_fst_pairs]
        exact AList.keys_nodup _
      kinds_limit := by
        have hlen := (hperm.map (·.1)).length_eq
        rw [map_fst_pairs, List.length_map] at hlen
        have hle := Nat.not_lt.mp hkinds
        exact hlen.trans_le hle }

end RedisRunAggregationStore

namespace Admissible

variable {store : RedisRunAggregationStore} {result : ScenarioRunResult} {a : IngestArgs}
  (h : Admissible store result a)
include h

theorem index_lt : a.slice.index < a.expected_slices := by
  rw [h.index, h.expected_slices]
  exact UInt32.lt_iff_toNat_lt.mp h.valid.slice.1

theorem expected_le : a.expected_slices ≤ 4096 := by
  rw [h.expected_slices]
  exact UInt32.le_iff_toNat_le.mp h.valid.slice.2

theorem outcome : a.slice.success + a.slice.failure = a.slice.total := by
  rw [h.success, h.failure, h.total]
  exact h.valid.outcome

theorem counts_length : a.slice.counts.length = a.histogram_bounds.length := by
  rw [h.counts, h.bounds, List.length_map, List.length_map]

theorem counts_sum (hbounds : a.histogram_bounds ≠ []) : a.slice.counts.sum = a.slice.total := by
  rw [h.counts, h.total]
  refine h.valid.counts ?_
  rw [h.bounds] at hbounds
  simpa using hbounds

theorem bounds_increase : a.histogram_bounds.Pairwise (· < ·) := by
  rw [h.bounds]
  exact h.valid.bounds

end Admissible

end pulse.aggregation
