-- The summaries of the aggregator in memory: the sequences of calls whose
-- counters stay within 64 bits and whose summaries fit together are those where
-- the results of each run do.
import Pulse.MirroredRun
import Pulse.Systems
import Mathlib.Data.UInt

open checks counters durations Duration systems
open pulse.contracts

namespace pulse.aggregation

/-! ## Calls -/

/-- The calls of `RunAggregator`. -/
inductive MemoryOp
  | ingest (result : ScenarioRunResult) (received_at_unix_ms : Nat)
  | finalize_expired (now_unix_ms timeout : Nat)
  | cancel (run_id : String) (now_unix_ms : Nat)

def replySummaries : Except AggregationError AggregationUpdate → List ScenarioRunSummary
  | .ok (.Finalized summary) | .ok (.LateUpdate summary) => [summary]
  | _ => []

/-- The summaries that a call produces, and the aggregator after it. -/
def RunAggregator.apply (aggregator : RunAggregator) :
    MemoryOp → List ScenarioRunSummary × RunAggregator
  | .ingest result now =>
    (replySummaries (aggregator.ingest result now).1, (aggregator.ingest result now).2)
  | .finalize_expired now timeout => aggregator.finalize_expired now timeout
  | .cancel run_id now =>
    ((aggregator.cancel run_id now).1.toList, (aggregator.cancel run_id now).2)

/-! ## Overflow -/

/-- One of the additions `*map.entry(key).or_insert(0) += n` goes over `u64`. -/
def overflows {κ : Type} [DecidableEq κ] (m : Counts κ) : List (κ × Nat) → Prop
  | [] => False
  | entry :: rest => 2 ^ 64 ≤ count m entry.1 + entry.2 ∨ overflows (add_entry m entry) rest

/-- The result is merged into the run: it fits the run, is new to it, and has the bounds of its
histogram. -/
def RunState.admits (state : RunState) (result : ScenarioRunResult) : Prop :=
  state.validate_compatible result = .ok () ∧ ¬ state.knows result ∧
    ¬ (pairs state.histogram ≠ [] ∧ result.latency_histogram ≠ [] ∧
      state.existing_bounds ≠ result.latency_histogram.map (·.upper_bound_ms))

instance (state : RunState) (result : ScenarioRunResult) : Decidable (state.admits result) :=
  inferInstanceAs (Decidable (_ ∧ _))

/-- The result is merged, and adds over `u64`. -/
def RunState.panics (state : RunState) (result : ScenarioRunResult) : Prop :=
  state.admits result ∧
    (overflows state.histogram (bucketsOf result) ∨ overflows state.errors (errorsOf result))

/-- The state of the run that `ingest` works on, when the checks before let the result in. -/
def RunAggregator.entry (aggregator : RunAggregator) (result : ScenarioRunResult)
    (received_at_unix_ms : Nat) : Option RunState :=
  match result.validate with
  | .error _ => none
  | .ok () =>
    let found := aggregator.runs.lookup result.run_id
    if found.isNone ∧ aggregator.max_runs ≤ aggregator.runs.length then none
    else some (found.getD (.from_first result received_at_unix_ms))

def RunAggregator.admits (aggregator : RunAggregator) (result : ScenarioRunResult)
    (received_at_unix_ms : Nat) : Bool :=
  (aggregator.entry result received_at_unix_ms).any fun state => state.admits result

/-- An addition of the call goes over `u64`: in a merge, or in the sum over the buckets of a summary
in `histogram_quantile`. -/
def RunAggregator.panics (aggregator : RunAggregator) (op : MemoryOp) : Prop :=
  (∃ result now state, op = .ingest result now ∧ aggregator.entry result now = some state ∧
    state.panics result) ∨
  ∃ summary ∈ (aggregator.apply op).1, 2 ^ 64 ≤ (summary.latency_histogram.map (·.2)).sum

/-! ## What a summary promises -/

structure Coherent (summary : ScenarioRunSummary) : Prop where
  outcome : summary.success + summary.failure = summary.total
  histogram : summary.latency_histogram = [] ∨
    (summary.latency_histogram.map (·.2)).sum = summary.total
  complete : summary.status = .Complete ↔ summary.missing_slices = []

/-- The observations of the results that have a histogram. -/
def observed (rs : List ScenarioRunResult) : Nat :=
  ((rs.filter fun r => r.latency_histogram ≠ []).map (·.total.toNat)).sum

/-- The observations of the results that have none. -/
def unobserved (rs : List ScenarioRunResult) : Nat :=
  ((rs.filter fun r => r.latency_histogram = []).map (·.total.toNat)).sum

/-- The results of a run leave each of its buckets and each of its kinds of errors in `u64`. -/
structure Fits64 (rs : List ScenarioRunResult) : Prop where
  buckets : ∀ bound, added (rs.flatMap bucketsOf) bound < 2 ^ 64
  kinds : ∀ kind, added (rs.flatMap errorsOf) kind < 2 ^ 64

/-- The results of a run have a summary that fits together: their total is a `u64`, unless all of
them are of one outcome, and the histograms leave no observation out, unless there is none or the
total has stopped where they are. -/
structure Summable (rs : List ScenarioRunResult) : Prop where
  outcome : (rs.map (·.total.toNat)).sum < 2 ^ 64 ∨ (rs.map (·.success.toNat)).sum = 0 ∨
    (rs.map (·.failure.toNat)).sum = 0
  histogram_sum : observed rs < 2 ^ 64
  histogram : (∀ r ∈ rs, r.latency_histogram = []) ∨ unobserved rs = 0 ∨ observed rs = U64_MAX

/-! ## Runs -/

/-- The aggregator, and the results that were merged into each run. -/
structure Memory where
  aggregator : RunAggregator
  accepted : String → List ScenarioRunResult

namespace Memory

def start (max_runs : Nat) (h : 0 < max_runs) : Memory := ⟨.new max_runs h, fun _ => []⟩

def next (s : Memory) (op : MemoryOp) : Memory where
  aggregator := (s.aggregator.apply op).2
  accepted :=
    match op with
    | .ingest result now =>
      if s.aggregator.admits result now then
        Function.update s.accepted result.run_id (s.accepted result.run_id ++ [result])
      else s.accepted
    | _ => s.accepted

/-- The call adds within `u64`, and its summaries fit together. -/
def Sound (s : Memory) (op : MemoryOp) : Prop :=
  ¬ s.aggregator.panics op ∧ ∀ summary ∈ (s.aggregator.apply op).1, Coherent summary

/-- The results of the run that the call merges fit into `u64`. -/
def Adds (s : Memory) : MemoryOp → Prop
  | .ingest result now =>
    s.aggregator.admits result now → Fits64 (s.accepted result.run_id ++ [result])
  | _ => True

/-- The results of the runs that the call merges or sums up fit into `u64` and together, and a run
that is cancelled misses a slice. -/
def Within (s : Memory) : MemoryOp → Prop
  | .ingest result now => s.aggregator.admits result now →
    let rs := s.accepted result.run_id ++ [result]
    Fits64 rs ∧ (rs.length = result.slice.total.toNat → Summable rs)
  | .finalize_expired now timeout => ∀ entry ∈ s.aggregator.runs,
    entry.2.finalized_status = none →
      as_millis timeout ≤ now - entry.2.first_result_at_unix_ms →
        Summable (s.accepted entry.1)
  | .cancel run_id _ => ∀ state, s.aggregator.runs.lookup run_id = some state →
    Summable (s.accepted run_id) ∧ (s.accepted run_id).length ≠ state.expected_slices.toNat

end Memory

/-- The calls on an empty aggregator that `allowed` lets in. -/
def memorySystem (allowed : Memory → MemoryOp → Prop) : System Memory MemoryOp where
  initial s := ∃ max_runs h, s = .start max_runs h
  allowed := allowed
  next := .next

/-! ## The counters of a run -/

variable {κ : Type} {l entries : List (κ × Nat)}

theorem not_overflows_iff [DecidableEq κ] {m : Counts κ} :
    ¬ overflows m l ↔ ∀ k ∈ l.map (·.1), count m k + added l k < 2 ^ 64 := by
  induction l generalizing m with
  | nil => simp [overflows]
  | cons p l ih =>
    rw [overflows, not_or, Nat.not_le]
    constructor
    · rintro ⟨hfirst, hrest⟩ k hk
      have hstep : add_entry m p = bump m p.1 p.2 := by
        rw [add_entry, bump, Nat.mod_eq_of_lt hfirst]
      rw [hstep, ih] at hrest
      by_cases hl : k ∈ l.map (·.1)
      · have hlt := hrest k hl
        rw [count_bump] at hlt
        rw [added_cons]
        omega
      · have hkey : k = p.1 := by simpa [hl] using hk
        rw [added_cons, added_of_notMem hl, if_pos hkey, hkey]
        omega
    · intro h
      have hfirst := h p.1 (by simp)
      rw [added_cons, if_pos rfl] at hfirst
      have hlt : count m p.1 + p.2 < 2 ^ 64 := by omega
      refine ⟨hlt, ?_⟩
      have hstep : add_entry m p = bump m p.1 p.2 := by
        rw [add_entry, bump, Nat.mod_eq_of_lt hlt]
      rw [hstep, ih]
      intro k hk
      have hk := h k (by simp [hk])
      rw [added_cons] at hk
      rw [count_bump]
      omega

theorem added_append [DecidableEq κ] (l l' : List (κ × Nat)) (k : κ) :
    added (l ++ l') k = added l k + added l' k := by
  simp [added]

/-- Counters of `u64` take the next entries exactly when none of the sums is too large. -/
theorem not_overflows_bumpAll [DecidableEq κ] (hl : ∀ k, added l k < 2 ^ 64) :
    ¬ overflows (bumpAll ∅ l) entries ↔ ∀ k, added (l ++ entries) k < 2 ^ 64 := by
  rw [not_overflows_iff]
  simp only [count_bumpAll, count_empty, Nat.zero_add, added_append]
  constructor
  · intro h k
    by_cases hk : k ∈ entries.map (·.1)
    · exact h k hk
    · rw [added_of_notMem hk]
      exact hl k
  · exact fun h k _ => h k

theorem foldl_add_entry_bumpAll [DecidableEq κ] (h : ∀ k, added (l ++ entries) k < 2 ^ 64) :
    entries.foldl add_entry (bumpAll ∅ l) = bumpAll ∅ (l ++ entries) := by
  have happend : bumpAll ∅ (l ++ entries) = bumpAll (bumpAll ∅ l) entries := by
    simp [bumpAll, List.foldl_append]
  rw [happend]
  apply foldl_add_entry
  intro k
  have hk := h k
  rw [added_append] at hk
  rw [count_bumpAll, count_empty]
  omega

theorem saturating_add_min (a b : Nat) :
    saturating_add (min a U64_MAX) b = min (a + b) U64_MAX := by
  unfold saturating_add
  omega

/-- The state of a run counts the results `rs`. -/
structure Counting (rs : List ScenarioRunResult) (state : RunState) : Prop where
  valid : ∀ r ∈ rs, r.Valid ∧ r.slice.total = state.expected_slices
  indexes : state.received_slice_indexes = (rs.map (·.slice.index)).toFinset
  distinct : (rs.map (·.slice.index)).Nodup
  total : state.total = min (rs.map (·.total.toNat)).sum U64_MAX
  success : state.success = min (rs.map (·.success.toNat)).sum U64_MAX
  failure : state.failure = min (rs.map (·.failure.toNat)).sum U64_MAX
  histogram : state.histogram = bumpAll ∅ (rs.flatMap bucketsOf)
  errors : state.errors = bumpAll ∅ (rs.flatMap errorsOf)

/-- A run that is not final misses a slice. -/
def Waits (rs : List ScenarioRunResult) (state : RunState) : Prop :=
  state.finalized_status = none → rs.length ≠ state.expected_slices.toNat

section counting

variable {rs : List ScenarioRunResult} {state : RunState} {r : ScenarioRunResult}

/-- The counts of a result with a histogram are its total, and those of another one are none. -/
theorem sum_bucketsOf (hv : r.Valid) : ((bucketsOf r).map (·.2)).sum =
    if r.latency_histogram ≠ [] then r.total.toNat else 0 := by
  have hcounts : (bucketsOf r).map (·.2) = r.latency_histogram.map (·.count.toNat) := by
    simp [bucketsOf, Function.comp_def]
  rw [hcounts]
  split
  · rename_i hne
    exact hv.counts hne
  · rename_i hnil
    rw [not_not.mp hnil]
    rfl

theorem sum_buckets (hv : ∀ r ∈ rs, r.Valid) :
    ((rs.flatMap bucketsOf).map (·.2)).sum = observed rs := by
  induction rs with
  | nil => rfl
  | cons r rs ih =>
    have hrest := ih fun r' hr' => hv r' (List.mem_cons_of_mem _ hr')
    rw [List.flatMap_cons, List.map_append, List.sum_append, hrest,
      sum_bucketsOf (hv r List.mem_cons_self)]
    unfold observed
    by_cases hne : r.latency_histogram = []
    · simp [hne]
    · simp [hne]

theorem observed_add_unobserved (rs : List ScenarioRunResult) :
    observed rs + unobserved rs = (rs.map (·.total.toNat)).sum := by
  induction rs with
  | nil => rfl
  | cons r rs ih =>
    unfold observed unobserved at *
    by_cases hne : r.latency_histogram = []
    · simp [hne] at ih ⊢
      omega
    · simp [hne] at ih ⊢
      omega

theorem success_add_failure (hv : ∀ r ∈ rs, r.Valid) :
    (rs.map (·.success.toNat)).sum + (rs.map (·.failure.toNat)).sum =
      (rs.map (·.total.toNat)).sum := by
  rw [← List.sum_map_add]
  exact congrArg List.sum (List.map_congr_left fun r hr => (hv r hr).outcome)

/-- Sums that stop at `u64::MAX` add up when the whole sum does not stop, or one of them is all. -/
theorem saturated_sums {a b : Nat} :
    min a U64_MAX + min b U64_MAX = min (a + b) U64_MAX ↔ a + b < 2 ^ 64 ∨ a = 0 ∨ b = 0 := by
  have hmax : U64_MAX = 2 ^ 64 - 1 := rfl
  omega

namespace Counting

theorem valid_of_mem (hc : Counting rs state) : ∀ r ∈ rs, r.Valid := fun r hr => (hc.valid r hr).1

theorem card (hc : Counting rs state) : state.received_slice_indexes.card = rs.length := by
  rw [hc.indexes, List.toFinset_card_of_nodup hc.distinct, List.length_map]

theorem from_first (r : ScenarioRunResult) (now : Nat) : Counting [] (.from_first r now) where
  valid := by simp
  indexes := rfl
  distinct := List.nodup_nil
  total := rfl
  success := rfl
  failure := rfl
  histogram := rfl
  errors := rfl

variable (hc : Counting rs state)
include hc

variable (status : ScenarioRunSummaryStatus)

theorem finalized : Counting rs { state with finalized_status := some status } :=
  { hc with }

variable {now : Nat} {merged : RunState}

/-- The merge of one more result, when no counter overflows. -/
theorem merge (hv : r.Valid) (htotal : r.slice.total = state.expected_slices)
    (hnew : r.slice.index ∉ state.received_slice_indexes) (hfits : Fits64 (rs ++ [r]))
    (hmerge : state.merge r now = .ok merged) : Counting (rs ++ [r]) merged := by
  simp only [RunState.merge, seq_eq_ok] at hmerge
  obtain ⟨-, hmerged⟩ := hmerge
  cases hmerged
  have hbuckets := hfits.buckets
  have hkinds := hfits.kinds
  simp only [List.flatMap_append, List.flatMap_singleton] at hbuckets hkinds
  refine
    { valid := ?_
      indexes := by simp [hc.indexes]
      distinct := ?_
      total := by simp [hc.total, saturating_add_min]
      success := by simp [hc.success, saturating_add_min]
      failure := by simp [hc.failure, saturating_add_min]
      histogram := ?_
      errors := ?_ }
  · intro r' hr'
    rcases List.mem_append.mp hr' with hr' | hr'
    · exact hc.valid r' hr'
    · rw [List.mem_singleton.mp hr']
      exact ⟨hv, htotal⟩
  · rw [hc.indexes, List.mem_toFinset] at hnew
    rw [List.map_append, List.map_singleton]
    exact List.Nodup.append hc.distinct (List.nodup_singleton _) (by simpa using hnew)
  · simp only [List.flatMap_append, List.flatMap_singleton]
    rw [hc.histogram]
    exact foldl_add_entry_bumpAll hbuckets
  · simp only [List.flatMap_append, List.flatMap_singleton]
    rw [hc.errors]
    exact foldl_add_entry_bumpAll hkinds

/-- A merge overflows exactly when the results do not fit. -/
theorem overflows_iff (hfits : Fits64 rs) :
    ¬ (overflows state.histogram (bucketsOf r) ∨ overflows state.errors (errorsOf r)) ↔
      Fits64 (rs ++ [r]) := by
  rw [hc.histogram, hc.errors, not_or, not_overflows_bumpAll hfits.buckets,
    not_overflows_bumpAll hfits.kinds]
  constructor
  all_goals
    rintro ⟨hbuckets, hkinds⟩
    exact ⟨by simpa using hbuckets, by simpa using hkinds⟩

/-! ## Its summary -/

theorem sum_summary (now : Nat) :
    ((state.summary status now).latency_histogram.map (·.2)).sum = observed rs := by
  have hperm := (List.perm_insertionSort (fun a b : UInt64 × Nat => a.1 ≤ b.1)
    (pairs state.histogram)).map (·.2)
  rw [← sum_buckets hc.valid_of_mem]
  calc ((state.summary status now).latency_histogram.map (·.2)).sum
      = counters.total state.histogram := hperm.sum_eq
    _ = ((rs.flatMap bucketsOf).map (·.2)).sum := by
      rw [hc.histogram, total_bumpAll, total_empty, Nat.zero_add]

theorem histogram_eq_nil_iff (now : Nat) :
    (state.summary status now).latency_histogram = [] ↔
      ∀ r ∈ rs, r.latency_histogram = [] := by
  have hlength : (state.summary status now).latency_histogram.length =
      state.histogram.keys.length := by
    rw [← map_fst_pairs, List.length_map]
    exact List.length_insertionSort _ _
  have hmem : ∀ bound, bound ∈ state.histogram.keys ↔
      bound ∈ (rs.flatMap bucketsOf).map (·.1) := by
    intro bound
    rw [← AList.mem_keys, hc.histogram, mem_bumpAll]
    simp
  rw [← List.length_eq_zero_iff, hlength, List.length_eq_zero_iff]
  constructor
  · intro hnil r hr
    by_contra hne
    obtain ⟨bucket, hb⟩ := List.exists_mem_of_ne_nil _ hne
    have hentry : (bucket.upper_bound_ms, bucket.count.toNat) ∈ rs.flatMap bucketsOf :=
      List.mem_flatMap.mpr ⟨r, hr, List.mem_map_of_mem (f := fun b =>
        (b.upper_bound_ms, b.count.toNat)) hb⟩
    have hbound : bucket.upper_bound_ms ∈ state.histogram.keys := by
      rw [hmem]
      exact List.mem_map_of_mem (f := (·.1)) hentry
    rw [hnil] at hbound
    cases hbound
  · intro hempty
    rw [List.eq_nil_iff_forall_not_mem]
    intro bound hbound
    rw [hmem] at hbound
    obtain ⟨entry, hentry, -⟩ := List.mem_map.mp hbound
    obtain ⟨r, hr, hentry⟩ := List.mem_flatMap.mp hentry
    simp [bucketsOf, hempty r hr] at hentry

/-- No slice is missing when the run has as many results as slices. -/
theorem missing_eq_nil_iff (now : Nat) :
    (state.summary status now).missing_slices = [] ↔
      rs.length = state.expected_slices.toNat := by
  let received := state.received_slice_indexes.image UInt32.toNat
  have hcard : received.card = rs.length := by
    rw [← hc.card]
    exact Finset.card_image_of_injective _ fun _ _ => UInt32.toNat_inj.mp
  have hsub : received ⊆ Finset.range state.expected_slices.toNat := by
    intro i hi
    obtain ⟨index, hindex, rfl⟩ := Finset.mem_image.mp hi
    rw [hc.indexes, List.mem_toFinset] at hindex
    obtain ⟨r, hr, rfl⟩ := List.mem_map.mp hindex
    obtain ⟨hv, htotal⟩ := hc.valid r hr
    rw [Finset.mem_range, ← htotal]
    exact UInt32.lt_iff_toNat_lt.mp hv.slice.1
  have hmem : ∀ i < state.expected_slices.toNat,
      (UInt32.ofNat i ∈ state.received_slice_indexes ↔ i ∈ received) := by
    intro i hi
    have hlt : i < 2 ^ 32 := Nat.lt_trans hi state.expected_slices.toNat_lt
    rw [Finset.mem_image]
    constructor
    · intro h
      exact ⟨_, h, UInt32.toNat_ofNat_of_lt' hlt⟩
    · rintro ⟨index, hindex, rfl⟩
      simpa using hindex
  have hnil : (state.summary status now).missing_slices = [] ↔
      Finset.range state.expected_slices.toNat ⊆ received := by
    simp only [RunState.summary, List.filter_eq_nil_iff, List.mem_range, decide_eq_true_eq, not_not]
    constructor
    · intro h i hi
      exact (hmem i (Finset.mem_range.mp hi)).mp (h i (Finset.mem_range.mp hi))
    · intro h i hi
      exact (hmem i hi).mpr (h (Finset.mem_range.mpr hi))
  rw [hnil, ← hcard]
  constructor
  · intro h
    rw [Finset.Subset.antisymm hsub h, Finset.card_range]
  · intro h
    rw [Finset.eq_of_subset_of_card_le hsub (by rw [Finset.card_range, h])]

/-- The summary of a run fits together exactly when its results do. -/
theorem coherent_iff (now : Nat) :
    ((state.summary status now).latency_histogram.map (·.2)).sum < 2 ^ 64 ∧
        Coherent (state.summary status now) ↔
      Summable rs ∧ (status = .Complete ↔ rs.length = state.expected_slices.toNat) := by
  have hmax : U64_MAX = 2 ^ 64 - 1 := rfl
  have hsum := hc.sum_summary status now
  have hparts := observed_add_unobserved rs
  have houtcome : (state.summary status now).success + (state.summary status now).failure =
      (state.summary status now).total ↔ (rs.map (·.total.toNat)).sum < 2 ^ 64 ∨
        (rs.map (·.success.toNat)).sum = 0 ∨ (rs.map (·.failure.toNat)).sum = 0 := by
    change state.success + state.failure = state.total ↔ _
    rw [hc.success, hc.failure, hc.total, ← success_add_failure hc.valid_of_mem, saturated_sums]
  have htotal : (state.summary status now).total =
      min (observed rs + unobserved rs) U64_MAX := by
    rw [hparts]
    exact hc.total
  constructor
  · rintro ⟨hlt, hcoherent⟩
    rw [hsum] at hlt
    refine ⟨⟨houtcome.mp hcoherent.outcome, hlt, ?_⟩, ?_⟩
    · rcases hcoherent.histogram with hnil | heq
      · exact .inl ((hc.histogram_eq_nil_iff status now).mp hnil)
      · rw [hsum, htotal] at heq
        omega
    · rw [← hc.missing_eq_nil_iff status now]
      exact hcoherent.complete
  · rintro ⟨hsummable, hcomplete⟩
    have hlt := hsummable.histogram_sum
    refine ⟨by rw [hsum]; exact hlt, houtcome.mpr hsummable.outcome, ?_, ?_⟩
    · rcases hsummable.histogram with hnil | hrest
      · exact .inl ((hc.histogram_eq_nil_iff status now).mpr hnil)
      · right
        rw [hsum, htotal]
        omega
    · rw [hc.missing_eq_nil_iff status now]
      exact hcomplete

end Counting

/-! ## One result -/

theorem RunState.merge_fields (h : state.merge r now = .ok merged) :
    merged.expected_slices = state.expected_slices ∧
      merged.finalized_status = state.finalized_status := by
  simp only [RunState.merge, seq_eq_ok] at h
  cases h.2
  exact ⟨rfl, rfl⟩

/-- What `ingest` does on the entry of a run: nothing, or a merge. -/
theorem RunState.ingest_cases (state : RunState) (r : ScenarioRunResult) (now : Nat) :
    (¬ state.admits r ∧ replySummaries (state.ingest r now).1 = [] ∧
      (state.ingest r now).2 = state) ∨
    ∃ merged, state.admits r ∧ state.merge r now = .ok merged ∧
      if merged.received_slice_indexes.card = merged.expected_slices.toNat then
        (state.ingest r now).2 = { merged with finalized_status := some .Complete } ∧
          replySummaries (state.ingest r now).1 =
            [{ merged with finalized_status := some .Complete }.summary .Complete now]
      else (state.ingest r now).2 = merged ∧ replySummaries (state.ingest r now).1 = [] := by
  unfold RunState.ingest RunState.admits
  cases hcompatible : state.validate_compatible r with
  | error error => exact .inl ⟨by simp, rfl, rfl⟩
  | ok =>
    by_cases hknows : state.knows r
    · simp only [if_pos hknows]
      exact .inl ⟨by simp [hknows], rfl, trivial⟩
    · simp only [if_neg hknows]
      cases hmerge : state.merge r now with
      | error error =>
        refine .inl ⟨fun hadmits => ?_, rfl, rfl⟩
        rw [RunState.merge, (rejectIf_eq_ok (u := ())).mpr hadmits.2.2] at hmerge
        cases hmerge
      | ok merged =>
        simp only [RunState.merge, seq_eq_ok] at hmerge
        refine .inr ⟨merged, ⟨trivial, hknows, rejectIf_eq_ok.mp hmerge.1⟩, rfl, ?_⟩
        dsimp only
        split
        · refine ⟨rfl, ?_⟩
          dsimp only
          split <;> rfl
        · exact ⟨rfl, rfl⟩

/-- A result that is merged is of a new slice of the run. -/
theorem Counting.accepts (hc : Counting rs state) (hv : r.Valid) (hadmits : state.admits r)
    (hmerge : state.merge r now = .ok merged) (hfits : Fits64 (rs ++ [r])) :
    Counting (rs ++ [r]) merged := by
  have hsame := rejectIf_eq_ok.mp hadmits.1
  simp only [not_or, not_not] at hsame
  exact hc.merge hv hsame.2.1.symm (fun hmem => hadmits.2.1 (.inr hmem)) hfits hmerge

/-- The counters after `ingest`, when the results fit. -/
theorem Counting.ingest (hc : Counting rs state) (hwaits : Waits rs state)
    (hv : r.Valid) (now : Nat)
    (hfits : state.admits r → Fits64 (rs ++ [r])) :
    Counting (if state.admits r then rs ++ [r] else rs) (state.ingest r now).2 ∧
      Waits (if state.admits r then rs ++ [r] else rs) (state.ingest r now).2 := by
  rcases state.ingest_cases r now with ⟨hnot, -, hsame⟩ | ⟨merged, hadmits, hmerge, hrest⟩
  · rw [if_neg hnot, hsame]
    exact ⟨hc, hwaits⟩
  · have hcounting := hc.accepts hv hadmits hmerge (hfits hadmits)
    rw [if_pos hadmits]
    split at hrest
    · rw [hrest.1]
      exact ⟨hcounting.finalized _, fun hnone => by cases hnone⟩
    · rename_i hmore
      rw [hrest.1]
      refine ⟨hcounting, fun _ => ?_⟩
      rw [← hcounting.card]
      exact hmore

/-- A call of `ingest` is sound exactly when the results fit into the counters and, after the last
one, together. -/
theorem Counting.ingest_sound_iff (hc : Counting rs state) (hfits : Fits64 rs) (hv : r.Valid)
    (now : Nat) :
    (¬ state.panics r ∧ ∀ summary ∈ replySummaries (state.ingest r now).1,
        (summary.latency_histogram.map (·.2)).sum < 2 ^ 64 ∧ Coherent summary) ↔
      (state.admits r → Fits64 (rs ++ [r]) ∧
        ((rs ++ [r]).length = r.slice.total.toNat → Summable (rs ++ [r]))) := by
  rcases state.ingest_cases r now with ⟨hnot, hnone, -⟩ | ⟨merged, hadmits, hmerge, hrest⟩
  · simp [RunState.panics, hnot, hnone]
  · have hpanics : ¬ state.panics r ↔ Fits64 (rs ++ [r]) := by
      rw [← hc.overflows_iff hfits]
      simp [RunState.panics, hadmits]
    have htotal : r.slice.total = merged.expected_slices := by
      have hsame := rejectIf_eq_ok.mp hadmits.1
      simp only [not_or, not_not] at hsame
      rw [(RunState.merge_fields hmerge).1, hsame.2.1]
    rw [hpanics]
    simp only [hadmits, true_implies]
    apply and_congr_right
    intro hfits'
    have hcounting := hc.accepts hv hadmits hmerge hfits'
    have hcard := hcounting.card
    rw [htotal]
    split at hrest
    · rename_i hfull
      have hlength : (rs ++ [r]).length = merged.expected_slices.toNat := by rw [← hcard, hfull]
      have hcoherent := (hcounting.finalized .Complete).coherent_iff .Complete now
      rw [hrest.2]
      simp only [List.forall_mem_singleton, hlength, true_implies]
      rw [hcoherent]
      simp only [true_iff, and_iff_left_iff_imp]
      exact fun _ => hlength
    · rename_i hmore
      rw [hrest.2]
      rw [hcard] at hmore
      simp only [List.not_mem_nil, false_implies, implies_true, true_iff]
      exact fun hfull => absurd hfull hmore

/-! ## The runs of the aggregator -/

namespace RunAggregator

variable {aggregator : RunAggregator}

theorem ingest_of_entry (h : aggregator.entry r now = some state) :
    r.validate = .ok () ∧
      aggregator.ingest r now = ((state.ingest r now).1,
        { aggregator with runs := put r.run_id (state.ingest r now).2 aggregator.runs }) := by
  unfold entry at h
  unfold ingest
  cases hvalid : r.validate with
  | error error =>
    rw [hvalid] at h
    cases h
  | ok =>
    simp only [hvalid] at h ⊢
    split at h
    · cases h
    · rename_i hroom
      cases h
      rw [if_neg hroom]
      exact ⟨trivial, rfl⟩

theorem ingest_of_no_entry (h : aggregator.entry r now = none) :
    ∃ error, aggregator.ingest r now = (.error error, aggregator) := by
  unfold entry at h
  unfold ingest
  cases hvalid : r.validate with
  | error error => exact ⟨_, rfl⟩
  | ok =>
    simp only [hvalid] at h ⊢
    split at h
    · rename_i hfull
      rw [if_pos hfull]
      exact ⟨_, rfl⟩
    · cases h

theorem admits_of_entry (h : aggregator.entry r now = some state) :
    aggregator.admits r now = true ↔ state.admits r := by
  simp [admits, h]

theorem mem_put {run_id : String} {runs : List (String × RunState)} {entry : String × RunState}
    (hnodup : (runs.map (·.1)).Nodup) (h : entry ∈ put run_id state runs) :
    entry = (run_id, state) ∨ entry ∈ runs ∧ entry.1 ≠ run_id := by
  induction runs with
  | nil => exact .inl (List.mem_singleton.mp h)
  | cons first rest ih =>
    rw [List.map_cons, List.nodup_cons] at hnodup
    unfold put at h
    split at h
    · rename_i hfirst
      rcases List.mem_cons.mp h with heq | hmem
      · exact .inl heq
      · refine .inr ⟨List.mem_cons_of_mem _ hmem, fun heq => hnodup.1 ?_⟩
        rw [hfirst, ← heq]
        exact List.mem_map_of_mem hmem
    · rename_i hfirst
      rcases List.mem_cons.mp h with rfl | hmem
      · exact .inr ⟨List.mem_cons_self, hfirst⟩
      · rcases ih hnodup.2 hmem with heq | ⟨hmem, hne⟩
        · exact .inl heq
        · exact .inr ⟨List.mem_cons_of_mem _ hmem, hne⟩

theorem keys_put (run_id : String) (state : RunState) (runs : List (String × RunState)) :
    (put run_id state runs).map (·.1) =
      if run_id ∈ runs.map (·.1) then runs.map (·.1) else runs.map (·.1) ++ [run_id] := by
  induction runs with
  | nil => rfl
  | cons first rest ih =>
    unfold put
    by_cases hfirst : first.1 = run_id
    · simp [hfirst]
    · rw [if_neg hfirst, List.map_cons, ih]
      by_cases hmem : run_id ∈ rest.map (·.1)
      · simp [hmem]
      · simp [hmem, Ne.symm hfirst]

end RunAggregator

/-- The runs of the aggregator count the results that were merged into them. -/
structure Exact (s : Memory) : Prop where
  keys : (s.aggregator.runs.map (·.1)).Nodup
  absent : ∀ i, i ∉ s.aggregator.runs.map (·.1) → s.accepted i = []
  counting : ∀ entry ∈ s.aggregator.runs, Counting (s.accepted entry.1) entry.2
  waits : ∀ entry ∈ s.aggregator.runs, Waits (s.accepted entry.1) entry.2
  fits : ∀ i, Fits64 (s.accepted i)

namespace Exact

variable {s : Memory}

theorem fits64_nil : Fits64 [] := ⟨by simp, by simp⟩

theorem start (max_runs : Nat) (h : 0 < max_runs) : Exact (.start max_runs h) where
  keys := List.nodup_nil
  absent := fun _ _ => rfl
  counting := by simp [Memory.start, RunAggregator.new]
  waits := by simp [Memory.start, RunAggregator.new]
  fits := fun _ => fits64_nil

theorem mem_of_lookup {runs : List (String × RunState)} {i : String}
    (h : runs.lookup i = some state) : (i, state) ∈ runs := by
  obtain ⟨front, back, rfl, -⟩ := List.lookup_eq_some_iff.mp h
  exact List.mem_append_right _ List.mem_cons_self

/-- The entry of a result counts what was merged into its run. -/
theorem entry (hs : Exact s) (h : s.aggregator.entry r now = some state) :
    Counting (s.accepted r.run_id) state ∧ Waits (s.accepted r.run_id) state := by
  have hv := ScenarioRunResult.valid_of_validate (RunAggregator.ingest_of_entry h).1
  simp only [RunAggregator.entry, (RunAggregator.ingest_of_entry h).1] at h
  split at h
  · cases h
  · cases hfound : s.aggregator.runs.lookup r.run_id with
    | some found =>
      rw [hfound] at h
      cases h
      exact ⟨hs.counting _ (mem_of_lookup hfound), hs.waits _ (mem_of_lookup hfound)⟩
    | none =>
      rw [hfound] at h
      cases h
      have hnone : r.run_id ∉ s.aggregator.runs.map (·.1) := by
        intro hmem
        obtain ⟨entry, hentry, heq⟩ := List.mem_map.mp hmem
        have hne := List.lookup_eq_none_iff.mp hfound entry hentry
        simp [heq] at hne
      rw [hs.absent _ hnone]
      refine ⟨.from_first r now, fun _ hzero => ?_⟩
      have hlt := UInt32.lt_iff_toNat_lt.mp hv.slice.1
      simp only [RunState.from_first, List.length_nil, Option.getD_none] at hzero
      omega

/-- One run changes, with its results. -/
theorem put (hs : Exact s) {i : String} {state : RunState} (hc : Counting rs state)
    (hw : Waits rs state) (hfits : Fits64 rs) :
    Exact ⟨{ s.aggregator with runs := RunAggregator.put i state s.aggregator.runs },
      Function.update s.accepted i rs⟩ := by
  have hkeys := RunAggregator.keys_put i state s.aggregator.runs
  have hentry : ∀ entry ∈ RunAggregator.put i state s.aggregator.runs,
      Counting (Function.update s.accepted i rs entry.1) entry.2 ∧
        Waits (Function.update s.accepted i rs entry.1) entry.2 := by
    intro entry hentry
    rcases RunAggregator.mem_put hs.keys hentry with rfl | ⟨hmem, hne⟩
    · rw [Function.update_self]
      exact ⟨hc, hw⟩
    · rw [Function.update_of_ne hne]
      exact ⟨hs.counting entry hmem, hs.waits entry hmem⟩
  refine ⟨?_, ?_, fun entry he => (hentry entry he).1, fun entry he => (hentry entry he).2, ?_⟩
  · rw [hkeys]
    split
    · exact hs.keys
    · rename_i hnew
      exact List.Nodup.append hs.keys (List.nodup_singleton _) (by simpa using hnew)
  · intro j hj
    have hne : j ≠ i := by
      rintro rfl
      apply hj
      rw [hkeys]
      split
      · assumption
      · exact List.mem_append_right _ List.mem_cons_self
    have hold : j ∉ s.aggregator.runs.map (·.1) := by
      intro hmem
      apply hj
      rw [hkeys]
      split
      · exact hmem
      · exact List.mem_append_left _ hmem
    change Function.update s.accepted i rs j = []
    rw [Function.update_of_ne hne]
    exact hs.absent j hold
  · intro j
    change Fits64 (Function.update s.accepted i rs j)
    by_cases hj : j = i
    · subst hj
      rw [Function.update_self]
      exact hfits
    · rw [Function.update_of_ne hj]
      exact hs.fits j

/-! ## One call -/

variable {op : MemoryOp}

/-- A call that is no `ingest` can only overflow in a summary. -/
theorem sound_iff_summaries (hop : ∀ result now, op ≠ .ingest result now) :
    s.Sound op ↔ ∀ summary ∈ (s.aggregator.apply op).1,
      (summary.latency_histogram.map (·.2)).sum < 2 ^ 64 ∧ Coherent summary := by
  unfold Memory.Sound RunAggregator.panics
  constructor
  · rintro ⟨hcalm, hcoherent⟩ summary hsummary
    refine ⟨Nat.not_le.mp fun hle => hcalm (.inr ⟨summary, hsummary, hle⟩), ?_⟩
    exact hcoherent summary hsummary
  · intro h
    refine ⟨?_, fun summary hsummary => (h summary hsummary).2⟩
    rintro (⟨result, now, _, heq, -⟩ | ⟨summary, hsummary, hle⟩)
    · exact hop result now heq
    · exact absurd (h summary hsummary).1 (Nat.not_lt.mpr hle)

theorem ingest_sound_iff (hs : Exact s) (r : ScenarioRunResult) (now : Nat) :
    s.Sound (.ingest r now) ↔ s.Within (.ingest r now) := by
  cases hentry : s.aggregator.entry r now with
  | none =>
    obtain ⟨error, hingest⟩ := RunAggregator.ingest_of_no_entry hentry
    unfold Memory.Sound RunAggregator.panics Memory.Within
    simp [RunAggregator.apply, hingest, replySummaries, RunAggregator.admits, hentry]
  | some state =>
    obtain ⟨hvalid, hingest⟩ := RunAggregator.ingest_of_entry hentry
    have hv := ScenarioRunResult.valid_of_validate hvalid
    have hiff := (hs.entry hentry).1.ingest_sound_iff (hs.fits r.run_id) hv now
    simp only [Memory.Within, RunAggregator.admits_of_entry hentry]
    rw [← hiff]
    unfold Memory.Sound RunAggregator.panics
    simp only [RunAggregator.apply, hingest, MemoryOp.ingest.injEq]
    constructor
    · rintro ⟨hcalm, hcoherent⟩
      rw [not_or] at hcalm
      refine ⟨fun hpanics => hcalm.1 ⟨r, now, state, ⟨rfl, rfl⟩, hentry, hpanics⟩, ?_⟩
      intro summary hsummary
      refine ⟨Nat.not_le.mp fun hle => hcalm.2 ⟨summary, hsummary, hle⟩, ?_⟩
      exact hcoherent summary hsummary
    · rintro ⟨hcalm, h⟩
      refine ⟨?_, fun summary hsummary => (h summary hsummary).2⟩
      rintro (⟨_, _, state', ⟨rfl, rfl⟩, hentry', hpanics⟩ | ⟨summary, hsummary, hle⟩)
      · rw [hentry] at hentry'
        cases hentry'
        exact hcalm hpanics
      · exact absurd (h summary hsummary).1 (Nat.not_lt.mpr hle)

theorem ingest_next (hs : Exact s) (r : ScenarioRunResult) (now : Nat)
    (hadds : s.Adds (.ingest r now)) : Exact (s.next (.ingest r now)) := by
  cases hentry : s.aggregator.entry r now with
  | none =>
    obtain ⟨error, hingest⟩ := RunAggregator.ingest_of_no_entry hentry
    simpa [Memory.next, RunAggregator.apply, hingest, RunAggregator.admits, hentry] using hs
  | some state =>
    obtain ⟨hvalid, hingest⟩ := RunAggregator.ingest_of_entry hentry
    have hv := ScenarioRunResult.valid_of_validate hvalid
    obtain ⟨hc, hw⟩ := hs.entry hentry
    simp only [Memory.Adds, RunAggregator.admits_of_entry hentry] at hadds
    obtain ⟨hcounting, hwaits⟩ := hc.ingest hw hv now hadds
    have hfits : Fits64 (if state.admits r then s.accepted r.run_id ++ [r]
        else s.accepted r.run_id) := by
      split
      · rename_i hadmits
        exact hadds hadmits
      · exact hs.fits r.run_id
    have hnext : s.next (.ingest r now) = ⟨{ s.aggregator with
        runs := RunAggregator.put r.run_id (state.ingest r now).2 s.aggregator.runs },
        Function.update s.accepted r.run_id (if state.admits r then s.accepted r.run_id ++ [r]
          else s.accepted r.run_id)⟩ := by
      simp only [Memory.next, RunAggregator.apply, hingest, RunAggregator.admits_of_entry hentry]
      split
      · rfl
      · rw [Function.update_eq_self]
    rw [hnext]
    exact hs.put hcounting hwaits hfits

/-- A run expires when it is open and its time is over. -/
theorem expire_cases (state : RunState) (now timeout_ms : Nat) :
    ¬ (state.finalized_status = none ∧ timeout_ms ≤ now - state.first_result_at_unix_ms) ∧
        state.expire now timeout_ms = (none, state) ∨
      (state.finalized_status = none ∧ timeout_ms ≤ now - state.first_result_at_unix_ms) ∧
        state.expire now timeout_ms =
          (some ({ state with finalized_status := some .TimedOut }.summary .TimedOut now),
            { state with finalized_status := some .TimedOut }) := by
  unfold RunState.expire
  cases state.finalized_status with
  | none =>
    by_cases hearly : now - state.first_result_at_unix_ms < timeout_ms
    · exact .inl ⟨by omega, by simp [hearly]⟩
    · exact .inr ⟨⟨rfl, by omega⟩, by simp [hearly]⟩
  | some status => exact .inl ⟨by simp, by simp⟩

theorem expired_sound_iff (hs : Exact s) (now timeout : Nat) :
    s.Sound (.finalize_expired now timeout) ↔ s.Within (.finalize_expired now timeout) := by
  rw [sound_iff_summaries (by simp)]
  have hmem : ∀ summary, summary ∈ (s.aggregator.apply (.finalize_expired now timeout)).1 ↔
      ∃ entry ∈ s.aggregator.runs,
        (entry.2.expire now (as_millis timeout)).1 = some summary := by
    intro summary
    simp only [RunAggregator.apply, RunAggregator.finalize_expired]
    rw [(List.perm_insertionSort _ _).mem_iff, List.mem_filterMap]
  simp only [hmem, Memory.Within]
  constructor
  · intro h entry hentry hopen hover
    rcases expire_cases entry.2 now (as_millis timeout) with ⟨hnot, -⟩ | ⟨-, hexpired⟩
    · exact absurd ⟨hopen, hover⟩ hnot
    · exact (((hs.counting entry hentry).finalized .TimedOut).coherent_iff .TimedOut now).mp
        (h _ ⟨entry, hentry, by rw [hexpired]⟩) |>.1
  · rintro h summary ⟨entry, hentry, hsummary⟩
    rcases expire_cases entry.2 now (as_millis timeout) with ⟨-, hsame⟩ |
      ⟨⟨hopen, hover⟩, hexpired⟩
    · rw [hsame] at hsummary
      cases hsummary
    · rw [hexpired] at hsummary
      cases hsummary
      refine (((hs.counting entry hentry).finalized .TimedOut).coherent_iff .TimedOut now).mpr
        ⟨h entry hentry hopen hover, ?_⟩
      simpa using hs.waits entry hentry hopen

theorem expired_next (hs : Exact s) (now timeout : Nat) :
    Exact (s.next (.finalize_expired now timeout)) := by
  have hkeys : (s.next (.finalize_expired now timeout)).aggregator.runs.map (·.1) =
      s.aggregator.runs.map (·.1) := by
    simp [Memory.next, RunAggregator.apply, RunAggregator.finalize_expired, Function.comp_def]
  have hentry : ∀ entry ∈ (s.next (.finalize_expired now timeout)).aggregator.runs,
      Counting (s.accepted entry.1) entry.2 ∧ Waits (s.accepted entry.1) entry.2 := by
    intro entry he
    obtain ⟨old, hold, rfl⟩ := List.mem_map.mp he
    rcases expire_cases old.2 now (as_millis timeout) with ⟨-, hsame⟩ | ⟨-, hexpired⟩
    · rw [hsame]
      exact ⟨hs.counting old hold, hs.waits old hold⟩
    · rw [hexpired]
      exact ⟨(hs.counting old hold).finalized .TimedOut, fun hnone => by cases hnone⟩
  refine ⟨by rw [hkeys]; exact hs.keys, ?_, fun entry he => (hentry entry he).1,
    fun entry he => (hentry entry he).2, hs.fits⟩
  intro i hi
  rw [hkeys] at hi
  exact hs.absent i hi

theorem cancel_sound_iff (hs : Exact s) (run_id : String) (now : Nat) :
    s.Sound (.cancel run_id now) ↔ s.Within (.cancel run_id now) := by
  rw [sound_iff_summaries (by simp)]
  simp only [RunAggregator.apply, RunAggregator.cancel, Memory.Within]
  cases hfound : s.aggregator.runs.lookup run_id with
  | none => simp
  | some state =>
    have hcoherent := ((hs.counting _ (mem_of_lookup hfound)).finalized .Cancelled).coherent_iff
      .Cancelled now
    simp only [Option.toList_some, List.forall_mem_singleton, Option.some.injEq, forall_eq']
    rw [hcoherent]
    simp

theorem cancel_next (hs : Exact s) (run_id : String) (now : Nat) :
    Exact (s.next (.cancel run_id now)) := by
  cases hfound : s.aggregator.runs.lookup run_id with
  | none => simpa [Memory.next, RunAggregator.apply, RunAggregator.cancel, hfound] using hs
  | some state =>
    have hc := (hs.counting _ (mem_of_lookup hfound)).finalized .Cancelled
    have hput := hs.put (i := run_id) hc (fun hnone => by cases hnone) (hs.fits run_id)
    rw [Function.update_eq_self] at hput
    simpa [Memory.next, RunAggregator.apply, RunAggregator.cancel, hfound] using hput

theorem sound_iff (hs : Exact s) (op : MemoryOp) : s.Sound op ↔ s.Within op := by
  cases op with
  | ingest r now => exact hs.ingest_sound_iff r now
  | finalize_expired now timeout => exact hs.expired_sound_iff now timeout
  | cancel run_id now => exact hs.cancel_sound_iff run_id now

theorem adds_of_within (h : s.Within op) : s.Adds op := by
  cases op with
  | ingest r now => exact fun hadmits => (h hadmits).1
  | finalize_expired | cancel => trivial

theorem next (hs : Exact s) (h : s.Adds op) : Exact (s.next op) := by
  cases op with
  | ingest r now => exact hs.ingest_next r now h
  | finalize_expired now timeout => exact hs.expired_next now timeout
  | cancel run_id now => exact hs.cancel_next run_id now

end Exact

end counting

/-- Every call of a sequence is free of overflow and produces summaries that fit together, exactly
when at every call the results of the runs that it merges or sums up do. -/
theorem memory_summaries_fit_exactly_when_the_results_do (max_runs : Nat) (h : 0 < max_runs)
    (ops : List MemoryOp) :
    Allowed (memorySystem Memory.Sound) (.start max_runs h) ops ↔
      Allowed (memorySystem Memory.Within) (.start max_runs h) ops := by
  have hall : ∀ s, Exact s → (Allowed (memorySystem Memory.Sound) s ops ↔
      Allowed (memorySystem Memory.Within) s ops) := by
    induction ops with
    | nil => exact fun _ _ => Iff.rfl
    | cons op ops ih =>
      intro s hs
      have hstep : (memorySystem Memory.Sound).allowed s op ↔
          (memorySystem Memory.Within).allowed s op := hs.sound_iff op
      constructor
      · rintro ⟨hsound, hrest⟩
        have hwithin := hstep.mp hsound
        exact ⟨hwithin, (ih _ (hs.next (Exact.adds_of_within hwithin))).mp hrest⟩
      · rintro ⟨hwithin, hrest⟩
        exact ⟨hstep.mpr hwithin, (ih _ (hs.next (Exact.adds_of_within hwithin))).mpr hrest⟩
  exact hall _ (.start max_runs h)

theorem added_le_sum [DecidableEq κ] (l : List (κ × Nat)) (k : κ) :
    added l k ≤ (l.map (·.2)).sum := by
  induction l with
  | nil => simp
  | cons p l ih =>
    rw [added_cons, List.map_cons, List.sum_cons]
    split <;> omega

theorem fits64_of_sums (hbuckets : ((rs.flatMap bucketsOf).map (·.2)).sum < 2 ^ 64)
    (hkinds : ((rs.flatMap errorsOf).map (·.2)).sum < 2 ^ 64) : Fits64 rs where
  buckets := fun bound => Nat.lt_of_le_of_lt (added_le_sum _ bound) hbuckets
  kinds := fun kind => Nat.lt_of_le_of_lt (added_le_sum _ kind) hkinds

/-- Two slices make a run complete, and then it does not expire. -/
theorem two_slices_have_a_summary_that_fits :
    Allowed (memorySystem Memory.Sound) (.start 1 (by decide))
      [.ingest sampleResult 0, .ingest siblingResult 1, .finalize_expired 9 5] := by
  refine (memory_summaries_fit_exactly_when_the_results_do 1 (by decide) _).mpr ⟨?_, ?_, ?_, ?_⟩
  · intro _
    exact ⟨fits64_of_sums (by decide) (by decide), fun h => absurd h (by decide)⟩
  · intro _
    refine ⟨fits64_of_sums (by decide +kernel) (by decide +kernel), fun _ => ?_⟩
    exact ⟨.inl (by decide +kernel), by decide +kernel, .inr (.inl (by decide +kernel))⟩
  · have hdone : ∀ entry ∈ (((Memory.start 1 (by decide)).next (.ingest sampleResult 0)).next
        (.ingest siblingResult 1)).aggregator.runs, entry.2.finalized_status ≠ none := by
      decide +kernel
    exact fun entry hentry hopen _ => absurd hopen (hdone entry hentry)
  · trivial

/-! ## Valid results that come apart -/

/-- A slice of version 1 whose observations all fall into one bucket. -/
def hugeResult (index : UInt32) : ScenarioRunResult :=
  { sampleResult with
    schema_version := 1
    execution_key := "run-1:slice-" ++ toString index ++ "-of-2"
    slice := ⟨index, 2⟩
    status := .Success
    total := 2 ^ 63
    success := 2 ^ 63
    failure := 0
    latency_histogram := [⟨10, 2 ^ 63⟩]
    error_breakdown := [] }

/-- A slice of version 1 with its latencies. -/
def timedResult : ScenarioRunResult := { sampleResult with schema_version := 1 }

/-- The other slice, without them. -/
def untimedResult : ScenarioRunResult :=
  { siblingResult with schema_version := 1, latency_histogram := [] }

instance decidableOverflows {κ : Type} [DecidableEq κ] :
    (m : Counts κ) → (l : List (κ × Nat)) → Decidable (overflows m l)
  | _, [] => inferInstanceAs (Decidable False)
  | m, entry :: rest =>
    have := decidableOverflows (add_entry m entry) rest
    inferInstanceAs (Decidable (_ ∨ _))

instance (state : RunState) (result : ScenarioRunResult) : Decidable (state.panics result) :=
  inferInstanceAs (Decidable (_ ∧ _))

/-- Two large buckets overflow when they are added, a slice without a histogram leaves the histogram
of its run short of the total, and a complete run can still be cancelled. -/
theorem memory_summaries_come_apart :
    (∀ r ∈ [hugeResult 0, hugeResult 1, timedResult, untimedResult, singleResult],
      r.validate = .ok ()) ∧
    ¬ Allowed (memorySystem Memory.Sound) (.start 1 (by decide))
      [.ingest (hugeResult 0) 0, .ingest (hugeResult 1) 1] ∧
    ¬ Allowed (memorySystem Memory.Sound) (.start 1 (by decide))
      [.ingest timedResult 0, .ingest untimedResult 1] ∧
    ¬ Allowed (memorySystem Memory.Sound) (.start 1 (by decide))
      [.ingest singleResult 0, .cancel "run-1" 1] := by
  refine ⟨by decide +kernel, ?_, ?_, ?_⟩
  · rintro ⟨-, ⟨hcalm, -⟩, -⟩
    have hpanics : ((((Memory.start 1 (by decide)).next (.ingest (hugeResult 0) 0)).aggregator.entry
        (hugeResult 1) 1).any fun state => state.panics (hugeResult 1)) = true := by
      decide +kernel
    apply hcalm
    cases hentry : ((Memory.start 1 (by decide)).next (.ingest (hugeResult 0) 0)).aggregator.entry
        (hugeResult 1) 1 with
    | none =>
      rw [hentry] at hpanics
      cases hpanics
    | some state =>
      rw [hentry] at hpanics
      exact .inl ⟨_, _, state, rfl, hentry, of_decide_eq_true hpanics⟩
  · rintro ⟨-, ⟨-, hcoherent⟩, -⟩
    have hsums : (((Memory.start 1 (by decide)).next (.ingest timedResult 0)).aggregator.apply
        (.ingest untimedResult 1)).1.map (fun summary =>
          (summary.total, (summary.latency_histogram.map (·.2)).sum)) = [(6, 3)] := by
      decide +kernel
    obtain ⟨summary, hsummary, hvalues⟩ := List.mem_map.mp (hsums ▸ List.mem_singleton_self (6, 3))
    rw [Prod.mk.injEq] at hvalues
    rcases (hcoherent summary hsummary).histogram with hnil | hsum
    · rw [hnil] at hvalues
      exact absurd hvalues.2 (by decide)
    · rw [hvalues.1, hvalues.2] at hsum
      cases hsum
  · rintro ⟨-, ⟨-, hcoherent⟩, -⟩
    have hstatus : (((Memory.start 1 (by decide)).next (.ingest singleResult 0)).aggregator.apply
        (.cancel "run-1" 1)).1.map (fun summary => (summary.status, summary.missing_slices)) =
          [(.Cancelled, [])] := by
      decide +kernel
    obtain ⟨summary, hsummary, hvalues⟩ :=
      List.mem_map.mp (hstatus ▸ List.mem_singleton_self (ScenarioRunSummaryStatus.Cancelled, []))
    rw [Prod.mk.injEq] at hvalues
    have hcomplete := (hcoherent summary hsummary).complete.mpr hvalues.2
    rw [hvalues.1] at hcomplete
    cases hcomplete

end pulse.aggregation
