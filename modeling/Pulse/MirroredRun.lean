-- The state of a run in memory and the record of the same run in Redis: both
-- count the same results, so both sum them up to the same summary.
import Pulse.RunAggregator
import Pulse.RunMerging
import Pulse.SortedCounters

open checks counters durations strings
open pulse.contracts

namespace pulse.aggregation

open RedisRunAggregationStore

/-! ## Counters of 64 bits -/

/-- Below 2^64, `+=` adds what the list adds. -/
theorem foldl_add_entry {κ : Type} [DecidableEq κ] {m : Counts κ} {l : List (κ × Nat)}
    (h : ∀ k, count m k + added l k < 2 ^ 64) : l.foldl add_entry m = bumpAll m l := by
  induction l generalizing m with
  | nil => rfl
  | cons p l ih =>
    have hfirst := h p.1
    rw [added_cons, if_pos rfl] at hfirst
    have hstep : add_entry m p = bump m p.1 p.2 := by
      unfold add_entry bump
      rw [Nat.mod_eq_of_lt (by omega)]
    rw [List.foldl_cons, hstep, bumpAll_cons]
    apply ih
    intro k
    have hk := h k
    rw [added_cons] at hk
    rw [count_bump]
    omega

/-! ## Results that both sides take -/

/-- The buckets of a result as the entries that `merge` adds. -/
def bucketsOf (result : ScenarioRunResult) : List (UInt64 × Nat) :=
  result.latency_histogram.map fun bucket => (bucket.upper_bound_ms, bucket.count.toNat)

/-- The errors of a result as the entries that `merge` adds. -/
def errorsOf (result : ScenarioRunResult) : List (String × Nat) :=
  result.error_breakdown.map fun error => (error.kind, error.count.toNat)

theorem map_fst_bucketsOf (r : ScenarioRunResult) :
    (bucketsOf r).map (·.1) = r.latency_histogram.map (·.upper_bound_ms) := by
  simp [bucketsOf, Function.comp_def]

theorem map_fst_errorsOf (r : ScenarioRunResult) :
    (errorsOf r).map (·.1) = r.error_breakdown.map (·.kind) := by
  simp [errorsOf, Function.comp_def]

/-- Valid results of one run: they agree on the run and on the bounds of the histogram, a slice
index stands with one execution key, and each one is within the limits of the store. -/
structure Agreeing (store : RedisRunAggregationStore) (plan : RunPlan)
    (results : List ScenarioRunResult) : Prop where
  valid : ∀ r ∈ results, r.validate = .ok ()
  run : ∀ r ∈ results, r.scenario_id = plan.scenario_id ∧ r.run_id = plan.run_id ∧
    r.schema_version = plan.schema_version ∧ r.slice.total = plan.total_slices
  bounds : ∀ r ∈ results, r.latency_histogram.map (·.upper_bound_ms) = plan.histogram_bounds
  bounds_set : plan.histogram_bounds ≠ []
  paired : ∀ r ∈ results, ∀ r' ∈ results,
    r.slice.index = r'.slice.index ↔ r.execution_key = r'.execution_key
  total : ∀ r ∈ results, r.total.toNat ≤ lua.MAX_EXACT
  errors : ∀ r ∈ results, ∀ error ∈ r.error_breakdown, error.count.toNat ≤ lua.MAX_EXACT
  kinds : ∀ r ∈ results, r.error_breakdown.length ≤ store.max_error_kinds

/-- The counters of a run and the limit of error kinds have room for one more result. -/
structure Room (store : RedisRunAggregationStore) (state : RunState)
    (r : ScenarioRunResult) : Prop where
  total : state.total + r.total.toNat ≤ lua.MAX_EXACT
  success : state.success + r.success.toNat ≤ lua.MAX_EXACT
  failure : state.failure + r.failure.toNat ≤ lua.MAX_EXACT
  latency : ∀ bucket ∈ r.latency_histogram,
    count state.histogram bucket.upper_bound_ms + bucket.count.toNat ≤ lua.MAX_EXACT
  errors : ∀ error ∈ r.error_breakdown,
    count state.errors error.kind + error.count.toNat ≤ lua.MAX_EXACT
  kinds : (state.errors.keys ++ r.error_breakdown.map (·.kind)).dedup.length ≤ store.max_error_kinds

section results

variable {store : RedisRunAggregationStore} {plan : RunPlan} {results rs : List ScenarioRunResult}
  {r : ScenarioRunResult}

/-- The loop over the errors accepts distinct kinds with exact counts. -/
theorem normalize_errors_of_exact {errors : List ErrorCount} {m : Counts String}
    (hkinds : ∀ e ∈ errors, is_blank e.kind = false ∧ len e.kind ≤ MAX_CONTRACT_ERROR_KIND_BYTES)
    (hnodup : (errors.map (·.kind)).Nodup) (hnew : ∀ e ∈ errors, e.kind ∉ m)
    (hexact : ∀ e ∈ errors, e.count.toNat ≤ lua.MAX_EXACT) :
    ∃ m', errors.foldlM normalize_error m = .ok m' := by
  induction errors generalizing m with
  | nil => exact ⟨m, rfl⟩
  | cons error errors ih =>
    rw [List.map_cons, List.nodup_cons] at hnodup
    obtain ⟨hblank, hlen⟩ := hkinds error List.mem_cons_self
    have hcount := hexact error List.mem_cons_self
    have hzero : count m error.kind = 0 := count_of_notMem (hnew error List.mem_cons_self)
    have hmax : MAX_CONTRACT_EXACT_INTEGER = lua.MAX_EXACT := rfl
    have hsize : lua.MAX_EXACT < UInt64.size := by decide
    have hstep : normalize_error m error =
        .ok (bump m error.kind error.count.toNat) := by
      simp only [normalize_error, exact_result_integer, bind_eq_ok, rejectIf_eq_ok, okOr_eq_ok]
      refine ⟨(), by simp [hblank]; omega, (), by omega, error.count.toNat, ?_, (), by omega, rfl⟩
      rw [hzero, checked_add, if_pos (by omega), Nat.zero_add]
    rw [List.foldlM_cons, hstep, ok_bind]
    apply ih
    · exact fun e he => hkinds e (List.mem_cons_of_mem _ he)
    · exact hnodup.2
    · intro e he hmem
      rcases mem_bump.mp hmem with heq | hmem
      · exact hnodup.1 (heq ▸ List.mem_map_of_mem he)
      · exact hnew e (List.mem_cons_of_mem _ he) hmem
    · exact fun e he => hexact e (List.mem_cons_of_mem _ he)

/-- The store normalizes a valid result within its limits. -/
theorem normalize_result_isOk (hvalid : r.validate = .ok ())
    (htotal : r.total.toNat ≤ lua.MAX_EXACT)
    (herrors : ∀ error ∈ r.error_breakdown, error.count.toNat ≤ lua.MAX_EXACT)
    (hkinds : r.error_breakdown.length ≤ store.max_error_kinds) (hset : r.latency_histogram ≠ []) :
    (store.normalize_result r).isOk = true := by
  have hv := ScenarioRunResult.valid_of_validate hvalid
  have hmax : MAX_CONTRACT_EXACT_INTEGER = lua.MAX_EXACT := rfl
  have hbytes : MAX_CONTRACT_ID_BYTES = MAX_IDENTITY_BYTES := rfl
  have houtcome := hv.outcome
  have hsum := hv.counts hset
  have hid : ∀ field value, is_blank value = false ∧ len value ≤ MAX_CONTRACT_ID_BYTES →
      validate_identity field value = .ok () := by
    rintro field value ⟨hblank, hlen⟩
    apply rejectIf_eq_ok.mpr
    simp [hblank]
    omega
  have hcheck : store.check_result r = .ok () := by
    simp only [check_result, seq_eq_ok, exact_result_integer, rejectIf_eq_ok, mapError_eq_ok]
    refine ⟨hvalid, UInt32.not_lt.mpr hv.slice.2, Nat.not_lt.mpr hv.buckets,
      Nat.not_lt.mpr hkinds, hid _ _ hv.scenario_id, hid _ _ hv.run_id, hid _ _ hv.execution_key,
      by omega, by omega, by omega⟩
  have hbuckets : (r.latency_histogram.forM fun bucket =>
      exact_result_integer "latency bucket count" bucket.count.toNat) = .ok () := by
    apply forM_eq_ok.mpr
    intro bucket hb
    have hle := List.le_sum_of_mem (List.mem_map_of_mem (f := (·.count.toNat)) hb)
    exact rejectIf_eq_ok.mpr (by omega)
  obtain ⟨m, hm⟩ := normalize_errors_of_exact hv.kinds hv.kinds_nodup (m := ∅) (by simp) herrors
  have hlength : m.keys.length ≤ store.max_error_kinds := by
    rw [(normalize_errors_ok hm).1,
      length_keys_bumpAll _ (by rw [← errorsOf, map_fst_errorsOf]; exact hv.kinds_nodup)]
    simpa using hkinds
  simp only [normalize_result, hcheck, hbuckets, hm, ok_bind,
    rejectIf_neg _ (Nat.not_lt.mpr hlength)]
  rfl

theorem Agreeing.isValid (ha : Agreeing store plan results) (hr : r ∈ results) : r.Valid :=
  ScenarioRunResult.valid_of_validate (ha.valid r hr)

/-- The bucket `j` of a result is the one with the bound `j`. -/
theorem bucket_count_eq (hv : r.Valid)
    (hbounds : r.latency_histogram.map (·.upper_bound_ms) = plan.histogram_bounds) {j : Nat}
    (hj : j < plan.histogram_bounds.length) :
    bucket_count r j = added (bucketsOf r) plan.histogram_bounds[j] := by
  have hlength : j < r.latency_histogram.length := by
    rw [← hbounds, List.length_map] at hj
    exact hj
  have hnodup : ((bucketsOf r).map (·.1)).Nodup := by
    rw [map_fst_bucketsOf]
    exact hv.bounds.imp fun hlt => UInt64.ne_of_lt hlt
  have hmem : (plan.histogram_bounds[j], r.latency_histogram[j].count.toNat) ∈ bucketsOf r := by
    simp only [← hbounds, List.getElem_map]
    exact List.mem_map_of_mem (List.getElem_mem hlength)
  rw [added_of_mem hnodup hmem, bucket_count]
  simp [hlength]

/-! ## The state of a run that counts the results `rs` -/

/-- The state of the run counts the results `rs`. -/
structure Mirrors (plan : RunPlan) (rs : List ScenarioRunResult) (state : RunState) : Prop where
  scenario_id : state.scenario_id = plan.scenario_id
  run_id : state.run_id = plan.run_id
  schema_version : state.schema_version = plan.schema_version
  expected_slices : state.expected_slices = plan.total_slices
  keys : state.received_execution_keys = (rs.map (·.execution_key)).toFinset
  indexes : state.received_slice_indexes = (rs.map (·.slice.index)).toFinset
  total : state.total = (rs.map (·.total.toNat)).sum
  success : state.success = (rs.map (·.success.toNat)).sum
  failure : state.failure = (rs.map (·.failure.toNat)).sum
  bounds : ∀ bound, bound ∈ state.histogram ↔ rs ≠ [] ∧ bound ∈ plan.histogram_bounds
  latency : ∀ bound, count state.histogram bound = (rs.map fun r => added (bucketsOf r) bound).sum
  kinds : ∀ kind, kind ∈ state.errors ↔ ∃ r ∈ rs, kind ∈ r.error_breakdown.map (·.kind)
  errors : ∀ kind, count state.errors kind = (rs.map (error_count · kind)).sum
  errors_exact : ∀ kind, count state.errors kind ≤ lua.MAX_EXACT

namespace Mirrors

variable {state : RunState}

theorem from_first (ha : Agreeing store plan results) (hr : r ∈ results) (now : Nat) :
    Mirrors plan [] (.from_first r now) := by
  obtain ⟨hscenario, hrun, hschema, htotal⟩ := ha.run r hr
  exact
    { scenario_id := hscenario
      run_id := hrun
      schema_version := hschema
      expected_slices := htotal
      keys := rfl
      indexes := rfl
      total := rfl
      success := rfl
      failure := rfl
      bounds := by simp [RunState.from_first]
      latency := fun _ => rfl
      kinds := by simp [RunState.from_first]
      errors := fun _ => rfl
      errors_exact := fun _ => Nat.zero_le _ }

section

variable (hm : Mirrors plan rs state)
include hm

/-- The end of a run changes none of its counters. -/
theorem finalized (status : Option ScenarioRunSummaryStatus) :
    Mirrors plan rs { state with finalized_status := status } :=
  { hm with }

theorem compatible_with (ha : Agreeing store plan results) (hr : r ∈ results) :
    state.validate_compatible r = .ok () := by
  obtain ⟨hscenario, -, hschema, htotal⟩ := ha.run r hr
  apply rejectIf_eq_ok.mpr
  simp [hm.scenario_id, hm.expected_slices, hm.schema_version, hscenario, hschema, htotal]

/-- A run knows a result when it has one of the same slice, and so of the same execution. -/
theorem knows_iff (ha : Agreeing store plan results) (hsub : rs ⊆ results) (hr : r ∈ results) :
    state.knows r ↔ ∃ r' ∈ rs, r'.slice.index = r.slice.index ∧
      r'.execution_key = r.execution_key := by
  unfold RunState.knows
  simp only [hm.keys, hm.indexes, List.mem_toFinset, List.mem_map]
  constructor
  · rintro (⟨r', hr', hkey⟩ | ⟨r', hr', hindex⟩)
    · exact ⟨r', hr', (ha.paired r' (hsub hr') r hr).mpr hkey, hkey⟩
    · exact ⟨r', hr', hindex, (ha.paired r' (hsub hr') r hr).mp hindex⟩
  · rintro ⟨r', hr', -, hkey⟩
    exact .inl ⟨r', hr', hkey⟩

/-- The bounds of the run are those of its results. -/
theorem histogram_eq (hne : rs ≠ []) (hbounds : plan.histogram_bounds.Pairwise (· < ·)) :
    by_bound (pairs state.histogram) =
      plan.histogram_bounds.map fun bound => (bound, count state.histogram bound) :=
  inOrder_pairs hbounds fun bound => (hm.bounds bound).trans (and_iff_right hne)

end

/-- A bucket of the run has room for the same bucket of the result. -/
theorem latency_room (ha : Agreeing store plan results) (hr : r ∈ results)
    (hroom : Room store state r) {bound : UInt64} (hbound : bound ∈ plan.histogram_bounds) :
    count state.histogram bound + added (bucketsOf r) bound ≤ lua.MAX_EXACT := by
  have hnodup : ((bucketsOf r).map (·.1)).Nodup := by
    rw [map_fst_bucketsOf]
    exact (ha.isValid hr).bounds.imp fun hlt => UInt64.ne_of_lt hlt
  rw [← ha.bounds r hr] at hbound
  obtain ⟨bucket, hb, rfl⟩ := List.mem_map.mp hbound
  rw [added_of_mem hnodup (List.mem_map_of_mem hb)]
  exact hroom.latency bucket hb

variable (hm : Mirrors plan rs state)
include hm

/-- A kind of error of the run has room for the errors of the result. -/
theorem errors_room (hv : r.Valid) (hroom : Room store state r) (kind : String) :
    count state.errors kind + error_count r kind ≤ lua.MAX_EXACT := by
  have hnodup : ((errorsOf r).map (·.1)).Nodup := by
    rw [map_fst_errorsOf]
    exact hv.kinds_nodup
  change _ + added (errorsOf r) kind ≤ _
  by_cases hkind : kind ∈ (errorsOf r).map (·.1)
  · rw [map_fst_errorsOf] at hkind
    obtain ⟨error, he, rfl⟩ := List.mem_map.mp hkind
    rw [added_of_mem hnodup (List.mem_map_of_mem he)]
    exact hroom.errors error he
  · rw [added_of_notMem hkind]
    exact hm.errors_exact kind

variable (ha : Agreeing store plan results)
include ha

/-- The bounds of a result are those that the run has, when it has some. -/
theorem bounds_agree (hr : r ∈ results) (hset : pairs state.histogram ≠ []) :
    state.existing_bounds = r.latency_histogram.map (·.upper_bound_ms) := by
  have hbounds := (ha.isValid hr).bounds
  rw [ha.bounds r hr] at hbounds ⊢
  have hne : rs ≠ [] := by
    obtain ⟨p, hp⟩ := List.exists_mem_of_ne_nil _ hset
    have hkey : p.1 ∈ state.histogram.keys := by
      rw [← map_fst_pairs]
      exact List.mem_map_of_mem hp
    exact ((hm.bounds p.1).mp (AList.mem_keys.mpr hkey)).1
  rw [RunState.existing_bounds, hm.histogram_eq hne hbounds, List.map_map]
  exact List.map_id _

/-- A result that the run has room for is merged, and counted. -/
theorem merge (hr : r ∈ results) (hroom : Room store state r) (now : Nat) :
    ∃ merged, state.merge r now = .ok merged ∧ Mirrors plan (rs ++ [r]) merged ∧
      merged.finalized_status = state.finalized_status ∧
      merged.first_result_at_unix_ms = state.first_result_at_unix_ms := by
  have hv := ha.isValid hr
  have hexact : lua.MAX_EXACT < 2 ^ 64 := by decide
  have hmax : U64_MAX = 2 ^ 64 - 1 := rfl
  have htotal := hroom.total
  have hsuccess := hroom.success
  have hfailure := hroom.failure
  have hbuckets : (bucketsOf r).foldl add_entry state.histogram =
      bumpAll state.histogram (bucketsOf r) := by
    apply foldl_add_entry
    intro bound
    by_cases hbound : bound ∈ plan.histogram_bounds
    · have hle := latency_room ha hr hroom hbound
      omega
    · rw [count_of_notMem fun hmem => hbound ((hm.bounds bound).mp hmem).2,
        added_of_notMem (by rw [map_fst_bucketsOf, ha.bounds r hr]; exact hbound)]
      omega
  have herrors : (errorsOf r).foldl add_entry state.errors = bumpAll state.errors (errorsOf r) := by
    apply foldl_add_entry
    intro kind
    have hle : _ + added (errorsOf r) kind ≤ _ := hm.errors_room hv hroom kind
    omega
  have hmerge : state.merge r now = .ok { state with
      received_execution_keys := insert r.execution_key state.received_execution_keys
      received_slice_indexes := insert r.slice.index state.received_slice_indexes
      total := state.total + r.total.toNat
      success := state.success + r.success.toNat
      failure := state.failure + r.failure.toNat
      histogram := bumpAll state.histogram (bucketsOf r)
      errors := bumpAll state.errors (errorsOf r)
      last_result_at_unix_ms := now } := by
    have hsum : ∀ {a b : Nat}, a + b ≤ lua.MAX_EXACT → saturating_add a b = a + b := by
      intro a b hle
      unfold saturating_add
      omega
    unfold RunState.merge
    rw [rejectIf_neg _ fun hbad => hbad.2.2 (hm.bounds_agree ha hr hbad.1), ok_bind,
      hsum htotal, hsum hsuccess, hsum hfailure, ← bucketsOf, ← errorsOf, hbuckets, herrors]
    rfl
  refine ⟨_, hmerge, ?_, rfl, rfl⟩
  exact
    { scenario_id := hm.scenario_id
      run_id := hm.run_id
      schema_version := hm.schema_version
      expected_slices := hm.expected_slices
      keys := by
        ext key
        simp [hm.keys, eq_comm]
      indexes := by
        ext index
        simp [hm.indexes, eq_comm]
      total := by simp [hm.total]
      success := by simp [hm.success]
      failure := by simp [hm.failure]
      bounds := by
        intro bound
        rw [mem_bumpAll, map_fst_bucketsOf, ha.bounds r hr, hm.bounds]
        simp
      latency := by
        intro bound
        rw [count_bumpAll, hm.latency]
        simp
      kinds := by
        intro kind
        rw [mem_bumpAll, map_fst_errorsOf, hm.kinds]
        simp [or_and_right, exists_or]
      errors := by
        intro kind
        rw [count_bumpAll, hm.errors]
        simp [error_count, errorsOf]
      errors_exact := by
        intro kind
        rw [count_bumpAll]
        exact hm.errors_room hv hroom kind }

/-- The results that are in and a new one that the run has room for are what the store expects. -/
theorem compatible (hsub : rs ⊆ results) (hdistinct : (rs.map (·.slice.index)).Nodup)
    (hr : r ∈ results) (hnew : ¬ state.knows r) (hroom : Room store state r) :
    Compatible store plan (rs ++ [r]) := by
  have hall : ∀ r' ∈ rs ++ [r], r' ∈ results := by
    intro r' hr'
    rcases List.mem_append.mp hr' with hr' | hr'
    · exact hsub hr'
    · rw [List.mem_singleton.mp hr']
      exact hr
  have hrv := ha.isValid hr
  have hindexes : ((rs ++ [r]).map (·.slice.index)).Nodup := by
    rw [List.map_append, List.map_singleton, ← List.concat_eq_append]
    apply List.Nodup.concat _ hdistinct
    intro hmem
    apply hnew
    rw [RunState.knows, hm.indexes]
    exact .inr (List.mem_toFinset.mpr hmem)
  exact
    { accepted := by
        intro r' hr'
        have hset : r'.latency_histogram ≠ [] := by
          intro hnil
          have hbounds := ha.bounds r' (hall r' hr')
          rw [hnil] at hbounds
          exact ha.bounds_set hbounds.symm
        exact normalize_result_isOk (ha.valid r' (hall r' hr')) (ha.total r' (hall r' hr'))
          (ha.errors r' (hall r' hr')) (ha.kinds r' (hall r' hr')) hset
      run := fun r' hr' => ha.run r' (hall r' hr')
      bounds := fun r' hr' => ha.bounds r' (hall r' hr')
      bounds_set := ha.bounds_set
      indexes := hindexes
      keys := by
        apply List.Nodup.map_on _ (List.Nodup.of_map _ hindexes)
        intro x hx y hy hkey
        apply List.inj_on_of_nodup_map hindexes hx hy
        exact (ha.paired x (hall x hx) y (hall y hy)).mpr hkey
      total := by simpa [← hm.total] using hroom.total
      success := by simpa [← hm.success] using hroom.success
      failure := by simpa [← hm.failure] using hroom.failure
      latency := by
        intro j
        by_cases hj : j < plan.histogram_bounds.length
        · have hsame : (rs ++ [r]).map (bucket_count · j) =
              (rs ++ [r]).map fun r' => added (bucketsOf r') plan.histogram_bounds[j] := by
            apply List.map_congr_left
            intro r' hr'
            exact bucket_count_eq (ha.isValid (hall r' hr')) (ha.bounds r' (hall r' hr')) hj
          have hle := latency_room ha hr hroom (List.getElem_mem hj)
          rw [hm.latency] at hle
          rw [hsame]
          simpa using hle
        · have hzero : ∀ n ∈ (rs ++ [r]).map (bucket_count · j), n = 0 := by
            intro n hn
            obtain ⟨r', hr', rfl⟩ := List.mem_map.mp hn
            have hlength := congrArg List.length (ha.bounds r' (hall r' hr'))
            rw [List.length_map] at hlength
            simp [bucket_count, Nat.not_lt.mp (hlength ▸ hj)]
          rw [List.sum_eq_zero hzero]
          exact Nat.zero_le _
      errors := by
        intro kind
        have hle := hm.errors_room hrv hroom kind
        rw [hm.errors] at hle
        simpa using hle
      kinds := by
        refine Nat.le_trans ?_ hroom.kinds
        apply (List.subperm_of_subset (List.nodup_dedup _) _).length_le
        intro kind hkind
        rw [List.mem_dedup, List.mem_append, ← AList.mem_keys, hm.kinds]
        simpa [or_and_right, exists_or] using hkind }

end Mirrors

/-! ## The two summaries -/

/-- What the summaries of the two sides agree on: all but the two times. -/
structure SameSummary (redis memory : ScenarioRunSummary) : Prop where
  schema_version : redis.schema_version = memory.schema_version
  scenario_id : redis.scenario_id = memory.scenario_id
  run_id : redis.run_id = memory.run_id
  status : redis.status = memory.status
  expected_slices : redis.expected_slices = memory.expected_slices
  received_slices : redis.received_slices = memory.received_slices
  missing_slices : redis.missing_slices = memory.missing_slices
  total : redis.total = memory.total
  success : redis.success = memory.success
  failure : redis.failure = memory.failure
  latency_histogram : redis.latency_histogram = memory.latency_histogram
  error_breakdown : redis.error_breakdown = memory.error_breakdown
  scenario_latency_p50_ms : redis.scenario_latency_p50_ms = memory.scenario_latency_p50_ms
  scenario_latency_p95_ms : redis.scenario_latency_p95_ms = memory.scenario_latency_p95_ms
  scenario_latency_p99_ms : redis.scenario_latency_p99_ms = memory.scenario_latency_p99_ms

section summaries

variable {state : RunState} {h : RunHash} (hm : Mirrors plan rs state) (hh : Holds store plan rs h)
include hm hh

/-- Bucket by bucket, the record and the state count the same. -/
theorem mirrored_histogram (hne : rs ≠ []) (ha : Agreeing store plan results)
    (hsub : rs ⊆ results) : h.histogram = by_bound (pairs state.histogram) := by
  have hsorted : plan.histogram_bounds.Pairwise (· < ·) := by
    obtain ⟨r, hr⟩ := List.exists_mem_of_ne_nil _ hne
    rw [← ha.bounds r (hsub hr)]
    exact (ha.isValid (hsub hr)).bounds
  rw [hm.histogram_eq hne hsorted, RunHash.histogram, hh.bounds hne]
  apply List.ext_getElem
  · simp
  · intro j hj _
    rw [List.length_map, List.length_zipIdx] at hj
    simp only [List.getElem_map, List.getElem_zipIdx, Nat.zero_add, Prod.mk.injEq, true_and]
    rw [hh.sums.latency, hm.latency]
    congr 1
    apply List.map_congr_left
    intro r hr
    exact bucket_count_eq (ha.isValid (hsub hr)) (ha.bounds r (hsub hr)) hj

theorem mirrored_errors : by_kind (pairs h.errors) = by_kind (pairs state.errors) := by
  have hmem : ∀ kind, kind ∈ h.errors ↔ kind ∈ state.errors := by
    intro kind
    rw [hh.good.tally, mem_tally_errors, hm.kinds]
    constructor
    · rintro ⟨s, hs, hkind⟩
      obtain ⟨r, hr, rfl⟩ := List.mem_map.mp hs
      exact ⟨r, hr, (mem_kinds_slice_of r kind).mp hkind⟩
    · rintro ⟨r, hr, hkind⟩
      exact ⟨slice_of r, List.mem_map_of_mem hr, (mem_kinds_slice_of r kind).mpr hkind⟩
  have hcount : ∀ kind, count h.errors kind = count state.errors kind := by
    intro kind
    rw [hh.sums.errors, hm.errors]
  exact inOrder_congr (perm_pairs hmem hcount) (nodup_fst_pairs _)

theorem mirrored_missing :
    ((List.range plan.total_slices.toNat).filter fun i => i ∉ h.slices.keys) =
      (List.range plan.total_slices.toNat).filter fun i =>
        UInt32.ofNat i ∉ state.received_slice_indexes := by
  apply List.filter_congr
  intro i hi
  have hlt : i < 2 ^ 32 := Nat.lt_trans (List.mem_range.mp hi) plan.total_slices.toNat_lt
  have hsame : i ∈ h.slices.keys ↔ UInt32.ofNat i ∈ state.received_slice_indexes := by
    rw [← AList.mem_keys, ← not_iff_not, ← AList.lookup_eq_none, hh.good.tally,
      lookup_slices_eq_none, not_iff_not, hm.indexes, List.mem_toFinset, List.map_map,
      List.mem_map, List.mem_map]
    apply exists_congr
    intro r
    apply and_congr_right
    intro _
    change r.slice.index.toNat = i ↔ _
    rw [← UInt32.toNat_inj, UInt32.toNat_ofNat_of_lt' hlt]
  simp only [hsame]

/-- A state and a record that count the same results have the same summary. -/
theorem mirrored_summary (hne : rs ≠ []) (ha : Agreeing store plan results) (hsub : rs ⊆ results)
    (hdistinct : (rs.map (·.slice.index)).Nodup) (status : ScenarioRunSummaryStatus)
    (first final now : Nat) :
    SameSummary (h.summary status first final) (state.summary status now) := by
  have hhistogram := mirrored_histogram hm hh hne ha hsub
  have hsums := hh.sums
  exact
    { schema_version := hh.schema_version.trans hm.schema_version.symm
      scenario_id := hh.scenario_id.trans hm.scenario_id.symm
      run_id := hh.run_id.trans hm.run_id.symm
      status := rfl
      expected_slices := by
        change lua.tonumber h.expected_slices = state.expected_slices.toNat
        rw [hh.expected_slices, hm.expected_slices]
      received_slices := by
        change h.received_slices = state.received_slice_indexes.card
        rw [hsums.received, hm.indexes, List.toFinset_card_of_nodup hdistinct, List.length_map]
      missing_slices := by
        simp only [RunHash.summary, RunState.summary, hh.expected_slices, hm.expected_slices]
        exact mirrored_missing hm hh
      total := hsums.total.trans hm.total.symm
      success := hsums.success.trans hm.success.symm
      failure := hsums.failure.trans hm.failure.symm
      latency_histogram := hhistogram
      error_breakdown := mirrored_errors hm hh
      scenario_latency_p50_ms := congrArg (histogram_quantile · .p50) hhistogram
      scenario_latency_p95_ms := congrArg (histogram_quantile · .p95) hhistogram
      scenario_latency_p99_ms := congrArg (histogram_quantile · .p99) hhistogram }

end summaries

end results

end pulse.aggregation
