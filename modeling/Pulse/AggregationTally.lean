-- A run as the list of the slices that it accepted. Every field that the
-- ingest script counts is a sum, or a table, over that list.
import Pulse.AggregationScripts

open counters

namespace pulse.aggregation

/-- The tally of the accepted slices, oldest first. -/
def tally (l : List Slice) : Tally := l.foldl Tally.merge Tally.empty

@[simp]
theorem tally_nil : tally [] = Tally.empty := rfl

variable (l : List Slice)

theorem tally_concat (s : Slice) : tally (l ++ [s]) = (tally l).merge s := by
  simp [tally, List.foldl_append]

/-! ## Sums -/

/-- A field that grows by `f s` with the slice `s` is the sum of `f`. -/
theorem tally_sum (field : Tally → Nat) (f : Slice → Nat) (hempty : field Tally.empty = 0)
    (hmerge : ∀ t s, field (t.merge s) = field t + f s) (l : List Slice) :
    field (tally l) = (l.map f).sum := by
  induction l using List.reverseRecOn with
  | nil => exact hempty
  | append_singleton l s ih => rw [tally_concat, hmerge, ih]; simp

theorem tally_total : (tally l).total = (l.map (·.total)).sum :=
  tally_sum (·.total) (·.total) rfl (fun _ _ => rfl) l

theorem tally_success : (tally l).success = (l.map (·.success)).sum :=
  tally_sum (·.success) (·.success) rfl (fun _ _ => rfl) l

theorem tally_failure : (tally l).failure = (l.map (·.failure)).sum :=
  tally_sum (·.failure) (·.failure) rfl (fun _ _ => rfl) l

theorem tally_received : (tally l).received_slices = l.length := by
  rw [tally_sum (·.received_slices) (fun _ => 1) rfl (fun _ _ => rfl) l]
  simp

theorem tally_latency (j : Nat) :
    count (tally l).latency j = (l.map fun s => s.counts.getD j 0).sum := by
  refine tally_sum (fun t => count t.latency j) _ rfl (fun t s => ?_) l
  rw [← added_indexed]
  exact count_bumpAll _ _ _

/-! ## Errors -/

/-- The kinds are counted as they are made. -/
theorem merge_errors (l : List (String × Nat)) (n : Nat) (m : Counts String)
    (h : n = m.keys.length) :
    l.foldl Tally.merge_error (n, m) = ((bumpAll m l).keys.length, bumpAll m l) := by
  induction l generalizing n m with
  | nil => rw [h]; rfl
  | cons e l ih =>
    rw [List.foldl_cons, bumpAll_cons]
    refine ih _ _ ?_
    rw [length_keys_bump, ← h]
    split <;> rfl

theorem tally_kinds : (tally l).error_kind_count = (tally l).errors.keys.length := by
  induction l using List.reverseRecOn with
  | nil => rfl
  | append_singleton l s ih =>
    rw [tally_concat]
    simp only [Tally.merge, merge_errors _ _ _ ih]

theorem merge_errors_eq (s : Slice) :
    (tally (l ++ [s])).errors = bumpAll (tally l).errors s.errors := by
  rw [tally_concat]
  simp only [Tally.merge, merge_errors _ _ _ (tally_kinds l)]

theorem tally_errors (kind : String) :
    count (tally l).errors kind = (l.map fun s => added s.errors kind).sum := by
  induction l using List.reverseRecOn with
  | nil => rfl
  | append_singleton l s ih =>
    rw [merge_errors_eq, count_bumpAll, ih]
    simp

theorem mem_tally_errors (kind : String) :
    kind ∈ (tally l).errors ↔ ∃ s ∈ l, kind ∈ s.errors.map (·.1) := by
  induction l using List.reverseRecOn with
  | nil => simp [Tally.empty]
  | append_singleton l s ih =>
    rw [merge_errors_eq, mem_bumpAll, ih]
    simp [or_and_right, exists_or]

/-! ## Identities -/

theorem tally_slices : (tally l).slices = insertAll (·.index) (·.execution_key) l := by
  induction l using List.reverseRecOn with
  | nil => rfl
  | append_singleton l s ih => rw [tally_concat, insertAll_concat, ← ih]; rfl

theorem tally_executions : (tally l).executions = insertAll (·.execution_key) (·.index) l := by
  induction l using List.reverseRecOn with
  | nil => rfl
  | append_singleton l s ih => rw [tally_concat, insertAll_concat, ← ih]; rfl

theorem lookup_slices {l : List Slice} (hnodup : (l.map (·.index)).Nodup) (i : Nat) (key : String) :
    (tally l).slices.lookup i = some key ↔ ∃ s ∈ l, s.index = i ∧ s.execution_key = key := by
  rw [tally_slices, lookup_insertAll _ _ hnodup]

theorem lookup_executions {l : List Slice} (hnodup : (l.map (·.execution_key)).Nodup) (key : String)
    (i : Nat) :
    (tally l).executions.lookup key = some i ↔ ∃ s ∈ l, s.execution_key = key ∧ s.index = i := by
  rw [tally_executions, lookup_insertAll _ _ hnodup]

theorem lookup_slices_eq_none (i : Nat) :
    (tally l).slices.lookup i = none ↔ i ∉ l.map (·.index) := by
  rw [tally_slices, AList.lookup_eq_none, mem_insertAll]

theorem lookup_executions_eq_none (key : String) :
    (tally l).executions.lookup key = none ↔ key ∉ l.map (·.execution_key) := by
  rw [tally_executions, AList.lookup_eq_none, mem_insertAll]

theorem mem_tally_slices (i : Nat) : i ∈ (tally l).slices.keys ↔ i ∈ l.map (·.index) := by
  rw [← AList.mem_keys, tally_slices, mem_insertAll]

theorem length_keys_slices {l : List Slice} (hnodup : (l.map (·.index)).Nodup) :
    (tally l).slices.keys.length = l.length := by
  rw [tally_slices, length_keys_insertAll _ _ hnodup]

/-! ## Slices that fit a run -/

/-- The slice is one of a run with this plan and these buckets. -/
structure Slice.Fits (s : Slice) (expected_slices : Nat) (bounds : List UInt64) : Prop where
  index : s.index < expected_slices
  outcome : s.success + s.failure = s.total
  counts_length : s.counts.length = bounds.length
  counts_sum : bounds ≠ [] → s.counts.sum = s.total

section fits

variable {l} {expected_slices : Nat} {bounds : List UInt64}
  (h : ∀ s ∈ l, s.Fits expected_slices bounds)
include h

theorem tally_outcome : (tally l).success + (tally l).failure = (tally l).total := by
  rw [tally_success, tally_failure, tally_total, ← List.sum_map_add]
  exact congrArg List.sum (List.map_congr_left fun s hs => (h s hs).outcome)

theorem mem_tally_latency (hne : l ≠ []) (j : Nat) : j ∈ (tally l).latency ↔ j < bounds.length := by
  induction l using List.reverseRecOn with
  | nil => exact absurd rfl hne
  | append_singleton l s ih =>
    have hs := (h s (by simp)).counts_length
    have hlatency : (tally (l ++ [s])).latency = bumpAll (tally l).latency (indexed s.counts) := by
      rw [tally_concat]
      rfl
    rw [hlatency, mem_bumpAll, map_fst_indexed, List.mem_range, hs]
    by_cases hl : l = []
    · subst hl
      simp [Tally.empty]
    · rw [ih (fun s hs => h s (by simp [hs])) hl, or_self]

theorem tally_latency_sum (hbounds : bounds ≠ []) :
    ((List.range bounds.length).map (count (tally l).latency)).sum = (tally l).total := by
  have hcount : count (tally l).latency = fun j => (l.map fun s => s.counts.getD j 0).sum :=
    funext (tally_latency l)
  rw [tally_total, hcount]
  clear hcount
  induction l with
  | nil => simp
  | cons s l ih =>
    have hs := h s (by simp)
    have hsum : ((List.range bounds.length).map fun j => s.counts.getD j 0).sum = s.total := by
      rw [← hs.counts_sum hbounds, ← hs.counts_length, sum_range_getD]
    simp only [List.map_cons, List.sum_cons, List.sum_map_add, hsum]
    rw [ih fun s hs => h s (by simp [hs])]

/-- A run has no more slices than it expects. -/
theorem length_le_expected (hnodup : (l.map (·.index)).Nodup) : l.length ≤ expected_slices := by
  have hsub : l.map (·.index) ⊆ List.range expected_slices := by
    intro i hi
    obtain ⟨s, hs, rfl⟩ := List.mem_map.mp hi
    exact List.mem_range.mpr (h s hs).index
  have hle := (List.subperm_of_subset hnodup hsub).length_le
  rwa [List.length_map, List.length_range] at hle

end fits

end pulse.aggregation
