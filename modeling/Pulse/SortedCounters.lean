-- Counters in the order of their keys: two tables of counters that agree key by
-- key are read as the same list.
import Pulse.Counters
import Mathlib.Data.List.Sort

namespace counters

variable {κ : Type} [DecidableEq κ]

/-- Tables with the same keys and the same counts have the same pairs. -/
theorem perm_pairs {m m' : Counts κ} (hmem : ∀ k, k ∈ m ↔ k ∈ m')
    (hcount : ∀ k, count m k = count m' k) : (pairs m).Perm (pairs m') := by
  have hlookup : ∀ k, m.lookup k = m'.lookup k := by
    intro k
    by_cases hk : k ∈ m
    · rw [lookup_of_mem hk, lookup_of_mem ((hmem k).mp hk), hcount]
    · rw [AList.lookup_eq_none.mpr hk, AList.lookup_eq_none.mpr (mt (hmem k).mpr hk)]
  apply List.Perm.map
  apply List.lookup_ext m.nodupKeys m'.nodupKeys
  intro k n
  exact iff_of_eq (congrArg (n ∈ ·) (hlookup k))

omit [DecidableEq κ] in
theorem nodup_fst_pairs (m : Counts κ) : ((pairs m).map (·.1)).Nodup := by
  rw [map_fst_pairs]
  exact m.keys_nodup

theorem pairs_eq_map_keys (m : Counts κ) : pairs m = m.keys.map fun k => (k, count m k) := by
  unfold pairs
  rw [show m.keys = m.entries.map (·.1) from rfl, List.map_map]
  apply List.map_congr_left
  rintro ⟨k, n⟩ he
  have hlookup := Option.mem_def.mp (AList.mem_lookup_iff.mpr he)
  simp [count, hlookup]

section sorted

variable [LE κ] [DecidableLE κ] [Std.IsLinearOrder κ]

/-- The pairs in the order of their keys. -/
abbrev inOrder (l : List (κ × Nat)) : List (κ × Nat) := l.insertionSort fun a b => a.1 ≤ b.1

omit [DecidableEq κ] in
theorem pairwise_inOrder (l : List (κ × Nat)) : (inOrder l).Pairwise fun a b => a.1 ≤ b.1 := by
  have : Std.Total fun a b : κ × Nat => a.1 ≤ b.1 := ⟨fun _ _ => Std.le_total⟩
  have : IsTrans (κ × Nat) fun a b => a.1 ≤ b.1 := ⟨fun _ _ _ hab hbc => Std.le_trans hab hbc⟩
  exact List.pairwise_insertionSort _ l

omit [DecidableEq κ] in
/-- Pairs with distinct keys have one order. -/
theorem inOrder_congr {l l' : List (κ × Nat)} (hperm : l.Perm l')
    (hnodup : (l.map (·.1)).Nodup) : inOrder l = inOrder l' := by
  have hsame : (inOrder l).Perm (inOrder l') :=
    (List.perm_insertionSort _ l).trans (hperm.trans (List.perm_insertionSort _ l').symm)
  apply hsame.eq_of_pairwise _ (pairwise_inOrder l) (pairwise_inOrder l')
  intro a b ha hb hab hba
  apply List.inj_on_of_nodup_map hnodup
  · exact (List.perm_insertionSort _ l).mem_iff.mp ha
  · exact hperm.mem_iff.mpr ((List.perm_insertionSort _ l').mem_iff.mp hb)
  · exact Std.le_antisymm hab hba

variable [LT κ] [Std.LawfulOrderLT κ]

/-- A table with known keys is read key by key. -/
theorem inOrder_pairs {m : Counts κ} {keys : List κ} (hkeys : keys.Pairwise (· < ·))
    (hmem : ∀ k, k ∈ m ↔ k ∈ keys) : inOrder (pairs m) = keys.map fun k => (k, count m k) := by
  have hlist : (keys.map fun k => (k, count m k)).Pairwise fun a b => a.1 ≤ b.1 := by
    rw [List.pairwise_map]
    exact hkeys.imp Std.le_of_lt
  have hperm : (pairs m).Perm (keys.map fun k => (k, count m k)) := by
    have hdistinct : keys.Nodup := by
      apply hkeys.imp
      rintro a _ hlt rfl
      exact Std.lt_irrefl hlt
    have hkeysPerm : m.keys.Perm keys := by
      rw [List.perm_ext_iff_of_nodup m.keys_nodup hdistinct]
      exact hmem
    rw [pairs_eq_map_keys]
    exact hkeysPerm.map _
  rw [inOrder_congr hperm (nodup_fst_pairs m)]
  exact hlist.insertionSort_eq

end sorted

end counters
