-- Sorted sets of Redis: each member once, with a score.
import Mathlib.Data.List.AList
import Mathlib.Data.List.Sort
import Mathlib.Tactic.Common

namespace sorted_sets

abbrev SortedSet := AList fun _ : String => Nat

def zadd (z : SortedSet) (score : Nat) (member : String) : SortedSet := z.insert member score

def zrem (z : SortedSet) (member : String) : SortedSet := z.erase member

def zscore (z : SortedSet) (member : String) : Option Nat := z.lookup member

def zcard (z : SortedSet) : Nat := z.keys.length

/-- `ZREMRANGEBYSCORE z -inf limit`. -/
def zremrangebyscore (z : SortedSet) (limit : Nat) : SortedSet where
  entries := z.entries.filter fun e => limit < e.2
  nodupKeys := z.nodupKeys.sublist List.filter_sublist

/-- The order of the members: by score, and by name when the scores are the same. -/
def precedes (a b : String × Nat) : Prop := a.2 < b.2 ∨ (a.2 = b.2 ∧ a.1 ≤ b.1)

instance (a b : String × Nat) : Decidable (precedes a b) :=
  inferInstanceAs (Decidable (_ ∨ _))

/-- All members with their scores, in order. -/
def ranked (z : SortedSet) : List (String × Nat) :=
  (z.entries.map fun e => (e.1, e.2)).insertionSort precedes

/-- `ZRANGEBYSCORE z -inf limit LIMIT 0 n`. -/
def zrangebyscore (z : SortedSet) (limit n : Nat) : List String :=
  (((ranked z).filter fun e => e.2 ≤ limit).take n).map (·.1)

/-- `ZRANGE z 0 (n - 1)`. -/
def zrange (z : SortedSet) (n : Nat) : List String := ((ranked z).take n).map (·.1)

@[simp]
theorem zscore_empty (member : String) : zscore ∅ member = none := rfl

theorem zscore_zadd (z : SortedSet) (score : Nat) (a b : String) :
    zscore (zadd z score a) b = if b = a then some score else zscore z b := by
  unfold zscore zadd
  by_cases h : b = a
  · subst h
    simp [AList.lookup_insert]
  · simp [AList.lookup_insert_ne h, h]

theorem zscore_zrem (z : SortedSet) (a b : String) :
    zscore (zrem z a) b = if b = a then none else zscore z b := by
  unfold zscore zrem
  by_cases h : b = a
  · subst h
    simp [AList.lookup_erase]
  · simp [AList.lookup_erase_ne h, h]

variable {z z' : SortedSet} {member : String}

theorem zscore_eq_some {score : Nat} :
    zscore z member = some score ↔ (⟨member, score⟩ : Sigma fun _ : String => Nat) ∈ z.entries :=
  AList.mem_lookup_iff

theorem zscore_zremrangebyscore (z : SortedSet) (limit : Nat) (member : String) :
    zscore (zremrangebyscore z limit) member =
      (zscore z member).filter fun score => limit < score := by
  cases h : zscore z member with
  | none =>
    cases h' : zscore (zremrangebyscore z limit) member with
    | none => rfl
    | some score =>
      have hmem := (List.mem_filter.mp (zscore_eq_some.mp h')).1
      rw [zscore_eq_some.mpr hmem] at h
      cases h
  | some score =>
    by_cases hlt : limit < score
    · rw [Option.filter_some_pos (by simpa using hlt)]
      exact zscore_eq_some.mpr (List.mem_filter.mpr ⟨zscore_eq_some.mp h, by simpa using hlt⟩)
    · rw [Option.filter_some_neg (by simpa using hlt)]
      cases h' : zscore (zremrangebyscore z limit) member with
      | none => rfl
      | some score' =>
        obtain ⟨hmem, hlt'⟩ := List.mem_filter.mp (zscore_eq_some.mp h')
        rw [zscore_eq_some.mpr hmem] at h
        cases h
        exact absurd (by simpa using hlt') hlt

/-! ## Sizes -/

theorem isSome_zscore : (zscore z member).isSome = true ↔ member ∈ z.keys :=
  AList.lookup_isSome

/-- Distinct members are no more than the set has. -/
theorem length_le_zcard {members : List String} (hnodup : members.Nodup)
    (hmem : ∀ m ∈ members, (zscore z m).isSome = true) : members.length ≤ zcard z :=
  (List.subperm_of_subset hnodup fun m hm => isSome_zscore.mp (hmem m hm)).length_le

/-- A set is not larger than one that has all its members. -/
theorem zcard_le (h : ∀ m, (zscore z' m).isSome = true → (zscore z m).isSome = true) :
    zcard z' ≤ zcard z :=
  length_le_zcard z'.keys_nodup fun m hm => h m (isSome_zscore.mpr hm)

/-- One new member makes the set larger by one at most. -/
theorem zcard_le_succ (member : String)
    (h : ∀ m, (zscore z' m).isSome = true → m = member ∨ (zscore z m).isSome = true) :
    zcard z' ≤ zcard z + 1 := by
  have hsubset : z'.keys ⊆ member :: z.keys := by
    intro m hm
    rcases h m (isSome_zscore.mpr hm) with rfl | hz
    · exact List.mem_cons_self
    · exact List.mem_cons_of_mem _ (isSome_zscore.mp hz)
  exact (List.subperm_of_subset z'.keys_nodup hsubset).length_le

/-! ## Ranges -/

instance : Std.Total precedes where
  total a b := by
    unfold precedes
    rcases Nat.lt_trichotomy a.2 b.2 with h | h | h
    · exact .inl (.inl h)
    · rcases String.le_total a.1 b.1 with hle | hle
      · exact .inl (.inr ⟨h, hle⟩)
      · exact .inr (.inr ⟨h.symm, hle⟩)
    · exact .inr (.inl h)

instance : IsTrans (String × Nat) precedes where
  trans a b c := by
    unfold precedes
    rintro (hab | ⟨hab, hab'⟩) (hbc | ⟨hbc, hbc'⟩)
    · exact .inl (by omega)
    · exact .inl (by omega)
    · exact .inl (by omega)
    · exact .inr ⟨by omega, String.le_trans hab' hbc'⟩

theorem mem_ranked {e : String × Nat} : e ∈ ranked z ↔ zscore z e.1 = some e.2 := by
  unfold ranked
  rw [List.mem_insertionSort, zscore_eq_some, List.mem_map]
  constructor
  · rintro ⟨e', he', rfl⟩
    exact he'
  · intro he
    exact ⟨_, he, rfl⟩

/-- A member within the limit is in the range, or the range is full of members that come before. -/
theorem mem_zrangebyscore {score : Nat} (h : zscore z member = some score) {limit : Nat}
    (hle : score ≤ limit) (n : Nat) :
    member ∈ zrangebyscore z limit n ∨
      ((zrangebyscore z limit n).length = n ∧
        ∀ m ∈ zrangebyscore z limit n, ∃ s, zscore z m = some s ∧ s ≤ score) := by
  have hmem : (member, score) ∈ (ranked z).filter fun e => e.2 ≤ limit :=
    List.mem_filter.mpr ⟨mem_ranked.mpr h, by simpa using hle⟩
  have hsorted : ((ranked z).filter fun e => e.2 ≤ limit).Pairwise precedes :=
    (List.pairwise_insertionSort precedes _).filter _
  have hranked : ∀ e ∈ (ranked z).filter fun e => e.2 ≤ limit, zscore z e.1 = some e.2 :=
    fun e he => mem_ranked.mp (List.mem_filter.mp he).1
  unfold zrangebyscore
  generalize (ranked z).filter (fun e => e.2 ≤ limit) = range at hmem hsorted hranked
  rw [← List.take_append_drop n range] at hmem hsorted
  rcases List.mem_append.mp hmem with htake | hdrop
  · left
    exact List.mem_map.mpr ⟨_, htake, rfl⟩
  · right
    constructor
    · rw [List.length_map, List.length_take]
      have hpos := List.length_pos_of_mem hdrop
      rw [List.length_drop] at hpos
      omega
    · intro m hm
      obtain ⟨e, he, rfl⟩ := List.mem_map.mp hm
      refine ⟨e.2, hranked e (List.mem_of_mem_take he), ?_⟩
      have hbefore := (List.pairwise_append.mp hsorted).2.2 e he _ hdrop
      unfold precedes at hbefore
      omega

end sorted_sets
