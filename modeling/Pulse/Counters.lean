-- Counters under keys, as the fields of a Redis hash that `HINCRBY` counts:
-- a field that is not there counts from 0.
import Mathlib.Data.List.AList
import Mathlib.Data.List.Induction
import Mathlib.Algebra.Order.BigOperators.Group.List
import Mathlib.Algebra.Order.Ring.Nat
import Mathlib.Tactic.Common

namespace counters

variable {κ : Type} [DecidableEq κ]

/-- A number under each key. -/
abbrev Counts (κ : Type) := AList fun _ : κ => Nat

/-- `HGET`, with 0 for a field that is not there. -/
def count (m : Counts κ) (k : κ) : Nat := (m.lookup k).getD 0

/-- `HINCRBY`. -/
def bump (m : Counts κ) (k : κ) (n : Nat) : Counts κ := m.insert k (count m k + n)

/-- One `HINCRBY` after the other. -/
def bumpAll (m : Counts κ) (l : List (κ × Nat)) : Counts κ :=
  l.foldl (fun m p => bump m p.1 p.2) m

/-- What a list adds to a key. -/
def added (l : List (κ × Nat)) (k : κ) : Nat := ((l.filter fun p => p.1 = k).map (·.2)).sum

@[simp]
theorem count_empty (k : κ) : count (∅ : Counts κ) k = 0 := rfl

variable {m : Counts κ} {k : κ}

theorem count_of_notMem (h : k ∉ m) : count m k = 0 := by
  simp [count, AList.lookup_eq_none.mpr h]

theorem lookup_of_mem (h : k ∈ m) : m.lookup k = some (count m k) := by
  obtain ⟨n, hn⟩ := Option.isSome_iff_exists.mp (AList.lookup_isSome.mpr h)
  simp [count, hn]

theorem count_bump (m : Counts κ) (k j : κ) (n : Nat) :
    count (bump m k n) j = count m j + if j = k then n else 0 := by
  unfold bump
  by_cases h : j = k
  · subst h
    simp [count, AList.lookup_insert]
  · simp [count, AList.lookup_insert_ne h, h]

@[simp]
theorem mem_bump {j : κ} {n : Nat} : j ∈ bump m k n ↔ j = k ∨ j ∈ m :=
  AList.mem_insert m

theorem length_keys_bump (m : Counts κ) (k : κ) (n : Nat) :
    (bump m k n).keys.length = m.keys.length + if k ∈ m then 0 else 1 := by
  unfold bump
  rw [AList.keys_insert, List.length_cons]
  split
  · rename_i h
    have hmem := AList.mem_keys.mp h
    have hpos := List.length_pos_of_mem hmem
    rw [List.length_erase_of_mem hmem]
    omega
  · rename_i h
    rw [List.erase_of_not_mem (fun hk => h (AList.mem_keys.mpr hk))]

@[simp]
theorem bumpAll_nil (m : Counts κ) : bumpAll m [] = m := rfl

@[simp]
theorem bumpAll_cons (m : Counts κ) (p : κ × Nat) (l : List (κ × Nat)) :
    bumpAll m (p :: l) = bumpAll (bump m p.1 p.2) l := rfl

@[simp]
theorem added_nil (k : κ) : added ([] : List (κ × Nat)) k = 0 := rfl

theorem added_cons (p : κ × Nat) (l : List (κ × Nat)) (k : κ) :
    added (p :: l) k = (if k = p.1 then p.2 else 0) + added l k := by
  unfold added
  by_cases h : k = p.1
  · simp [h]
  · simp [h, Ne.symm h]

variable {l : List (κ × Nat)}

theorem added_of_notMem (h : k ∉ l.map (·.1)) : added l k = 0 := by
  induction l with
  | nil => rfl
  | cons p l ih =>
    simp only [List.map_cons, List.mem_cons, not_or] at h
    rw [added_cons, if_neg h.1, ih h.2]

/-- In a list with distinct keys, a key gets the number that stands with it. -/
theorem added_of_mem {n : Nat} (hnodup : (l.map (·.1)).Nodup) (h : (k, n) ∈ l) : added l k = n := by
  induction l with
  | nil => cases h
  | cons p l ih =>
    rw [List.map_cons, List.nodup_cons] at hnodup
    rw [added_cons]
    rcases List.mem_cons.mp h with rfl | h
    · rw [if_pos rfl, added_of_notMem hnodup.1, Nat.add_zero]
    · have hne : k ≠ p.1 := by
        rintro rfl
        exact hnodup.1 (List.mem_map.mpr ⟨_, h, rfl⟩)
      rw [if_neg hne, ih hnodup.2 h, Nat.zero_add]

theorem count_bumpAll (m : Counts κ) (l : List (κ × Nat)) (k : κ) :
    count (bumpAll m l) k = count m k + added l k := by
  induction l generalizing m with
  | nil => simp
  | cons p l ih =>
    rw [bumpAll_cons, ih, count_bump, added_cons]
    omega

theorem mem_bumpAll : k ∈ bumpAll m l ↔ k ∈ m ∨ k ∈ l.map (·.1) := by
  induction l generalizing m with
  | nil => simp
  | cons p l ih =>
    rw [bumpAll_cons, ih, mem_bump, List.map_cons, List.mem_cons]
    tauto

/-- The new keys of a list with distinct keys are the ones that it makes. -/
theorem length_keys_bumpAll (m : Counts κ) (hnodup : (l.map (·.1)).Nodup) :
    (bumpAll m l).keys.length = m.keys.length + (l.filter fun p => p.1 ∉ m).length := by
  induction l generalizing m with
  | nil => simp
  | cons p l ih =>
    rw [List.map_cons, List.nodup_cons] at hnodup
    rw [bumpAll_cons, ih _ hnodup.2, length_keys_bump]
    have hsame : (l.filter fun q => q.1 ∉ bump m p.1 p.2) = l.filter fun q => q.1 ∉ m := by
      apply List.filter_congr
      intro q hq
      have hne : q.1 ≠ p.1 := by
        intro heq
        exact hnodup.1 (heq ▸ List.mem_map.mpr ⟨q, hq, rfl⟩)
      simp [hne]
    rw [hsame]
    by_cases h : p.1 ∈ m
    · simp [h]
    · simp [h]
      omega

theorem added_perm {l₁ l₂ : List (κ × Nat)} (h : l₁.Perm l₂) (k : κ) : added l₁ k = added l₂ k :=
  ((h.filter _).map _).sum_eq

/-- The counters as pairs of a key and a number. -/
def pairs (m : Counts κ) : List (κ × Nat) := m.entries.map fun e => (e.1, e.2)

omit [DecidableEq κ] in
theorem map_fst_pairs (m : Counts κ) : (pairs m).map (·.1) = m.keys := by
  simp only [pairs, List.map_map]
  rfl

theorem added_pairs (m : Counts κ) (k : κ) : added (pairs m) k = count m k := by
  by_cases h : k ∈ m
  · have hentry := AList.mem_lookup_iff.mp (Option.mem_def.mpr (lookup_of_mem h))
    refine added_of_mem ?_ (List.mem_map.mpr ⟨_, hentry, rfl⟩)
    rw [map_fst_pairs]
    exact m.keys_nodup
  · rw [count_of_notMem h]
    refine added_of_notMem ?_
    rwa [map_fst_pairs, ← AList.mem_keys]

/-! ## The sum of the counters -/

/-- All counters together. -/
def total (m : Counts κ) : Nat := ((pairs m).map (·.2)).sum

omit [DecidableEq κ] in
@[simp]
theorem total_empty : total (∅ : Counts κ) = 0 := rfl

/-- Without one key, its counter is missing in the sum. -/
theorem sum_kerase (m : Counts κ) (k : κ) :
    ((List.kerase k m.entries).map fun e => e.2).sum + count m k = total m := by
  have htotal : total m = (m.entries.map fun e => e.2).sum := by
    simp only [total, pairs, List.map_map]
    rfl
  rw [htotal]
  by_cases h : k ∈ m
  · obtain ⟨n, l₁, l₂, hnot, hentries, herase⟩ := List.exists_of_kerase (AList.mem_keys.mp h)
    have hcount : count m k = n := by
      have hmem : ⟨k, n⟩ ∈ m.entries := by simp [hentries]
      rw [count, Option.mem_def.mp (AList.mem_lookup_iff.mpr hmem), Option.getD_some]
    rw [herase, hentries, hcount]
    simp only [List.map_append, List.map_cons, List.sum_append, List.sum_cons]
    omega
  · rw [List.kerase_of_notMem_keys (fun hk => h (AList.mem_keys.mpr hk)), count_of_notMem h,
      Nat.add_zero]

theorem total_bump (m : Counts κ) (k : κ) (n : Nat) : total (bump m k n) = total m + n := by
  have hinsert : total (bump m k n) =
      (count m k + n) + ((List.kerase k m.entries).map fun e => e.2).sum := by
    simp only [total, pairs, bump, AList.entries_insert, List.map_map, List.map_cons, List.sum_cons]
    rfl
  rw [hinsert, ← sum_kerase m k]
  omega

theorem total_bumpAll (m : Counts κ) (l : List (κ × Nat)) :
    total (bumpAll m l) = total m + (l.map (·.2)).sum := by
  induction l generalizing m with
  | nil => simp
  | cons p l ih =>
    rw [bumpAll_cons, ih, total_bump, List.map_cons, List.sum_cons]
    omega

/-! ## Counts by position -/

/-- The counts with their positions as keys. -/
def indexed (counts : List Nat) : List (Nat × Nat) := counts.zipIdx.map fun p => (p.2, p.1)

theorem map_fst_indexed (counts : List Nat) :
    (indexed counts).map (·.1) = List.range counts.length := by
  have hsnd := List.zipIdx_map_snd 0 counts
  rw [List.range_eq_range', ← hsnd, indexed, List.map_map]
  rfl

theorem added_indexed (counts : List Nat) (j : Nat) :
    added (indexed counts) j = counts.getD j 0 := by
  cases h : counts[j]? with
  | none =>
    rw [List.getD_eq_getElem?_getD, h, Option.getD_none]
    refine added_of_notMem ?_
    rw [map_fst_indexed, List.mem_range]
    exact Nat.not_lt.mpr (List.getElem?_eq_none_iff.mp h)
  | some n =>
    rw [List.getD_eq_getElem?_getD, h, Option.getD_some]
    refine added_of_mem ?_ (List.mem_map.mpr ⟨(n, j), List.mk_mem_zipIdx_iff_getElem?.mpr h, rfl⟩)
    rw [map_fst_indexed]
    exact List.nodup_range

theorem sum_range_getD (counts : List Nat) :
    ((List.range counts.length).map fun j => counts.getD j 0).sum = counts.sum := by
  induction counts with
  | nil => rfl
  | cons n counts ih =>
    rw [List.length_cons, List.range_succ_eq_map, List.map_cons, List.map_map, List.sum_cons,
      List.sum_cons]
    exact congrArg (n + ·) ih

/-! ## Sums over distinct members -/

/-- Distinct members of a list add up to no more than the list. -/
theorem sum_map_le_of_subset {γ : Type} {l₁ l₂ : List γ} (f : γ → Nat) (hnodup : l₁.Nodup)
    (hsub : l₁ ⊆ l₂) : (l₁.map f).sum ≤ (l₂.map f).sum := by
  obtain ⟨l, hperm, hsublist⟩ := List.subperm_of_subset hnodup hsub
  rw [← (hperm.map f).sum_eq]
  exact (hsublist.map f).sum_le_sum fun _ _ => Nat.zero_le _

/-! ## Fields that are written once -/

section fields

variable {β γ : Type} (f : γ → κ) (g : γ → β)

/-- A field `f c` with the value `g c` for each `c` of a list. -/
def insertAll (l : List γ) : AList fun _ : κ => β := l.foldl (fun m c => m.insert (f c) (g c)) ∅

theorem insertAll_concat (l : List γ) (c : γ) :
    insertAll f g (l ++ [c]) = (insertAll f g l).insert (f c) (g c) := by
  simp [insertAll, List.foldl_append]

theorem mem_insertAll (l : List γ) (k : κ) : k ∈ insertAll f g l ↔ k ∈ l.map f := by
  induction l using List.reverseRecOn with
  | nil => simp [insertAll]
  | append_singleton l c ih =>
    rw [insertAll_concat, AList.mem_insert, ih]
    simp [or_comm]

theorem lookup_insertAll {l : List γ} (hnodup : (l.map f).Nodup) (k : κ) (v : β) :
    (insertAll f g l).lookup k = some v ↔ ∃ c ∈ l, f c = k ∧ g c = v := by
  induction l using List.reverseRecOn with
  | nil => simp [insertAll]
  | append_singleton l c ih =>
    rw [List.map_append, List.nodup_append] at hnodup
    obtain ⟨hl, -, hdisjoint⟩ := hnodup
    rw [insertAll_concat]
    by_cases hk : k = f c
    · subst hk
      rw [AList.lookup_insert]
      constructor
      · intro h
        exact ⟨c, by simp, rfl, Option.some.inj h⟩
      · rintro ⟨d, hd, hf, rfl⟩
        rcases List.mem_append.mp hd with hd | hd
        · exact absurd hf (hdisjoint (f d) (List.mem_map_of_mem hd) (f c) (by simp))
        · rw [List.mem_singleton.mp hd]
    · rw [AList.lookup_insert_ne hk, ih hl]
      constructor
      · rintro ⟨d, hd, hf, hg⟩
        exact ⟨d, by simp [hd], hf, hg⟩
      · rintro ⟨d, hd, hf, hg⟩
        rcases List.mem_append.mp hd with hd | hd
        · exact ⟨d, hd, hf, hg⟩
        · rw [List.mem_singleton.mp hd] at hf
          exact absurd hf.symm hk

theorem length_keys_insertAll {l : List γ} (hnodup : (l.map f).Nodup) :
    (insertAll f g l).keys.length = l.length := by
  induction l using List.reverseRecOn with
  | nil => rfl
  | append_singleton l c ih =>
    rw [List.map_append, List.nodup_append] at hnodup
    obtain ⟨hl, -, hdisjoint⟩ := hnodup
    have hnew : f c ∉ (insertAll f g l).keys := by
      rw [← AList.mem_keys, mem_insertAll]
      exact fun h => hdisjoint (f c) h (f c) (by simp) rfl
    rw [insertAll_concat, AList.keys_insert, List.erase_of_not_mem hnew, List.length_cons, ih hl,
      List.length_append, List.length_singleton]

end fields

end counters
