-- The observation of a rank and the bucket that it falls into. Histograms only
-- keep the counts of their buckets, and that is enough: the counts reach a rank
-- at the bucket of its observation.
import Pulse.Counters
import Mathlib.Data.Multiset.Sort
import Mathlib.Algebra.BigOperators.Group.Multiset.Basic

open counters

namespace ranks

variable {α : Type} [LinearOrder α]

/-! ## The observation of a rank -/

/-- The observation of a rank; the smallest one has the rank 1. -/
def nth (values : Multiset α) (rank : Nat) : Option α := (values.sort (· ≤ ·))[rank - 1]?

variable {values : Multiset α}

theorem exists_nth {rank : Nat} (hpos : 1 ≤ rank) (hle : rank ≤ values.card) :
    ∃ v ∈ values, nth values rank = some v := by
  have hlt : rank - 1 < (values.sort (· ≤ ·)).length := by
    rw [Multiset.length_sort]
    omega
  refine ⟨(values.sort (· ≤ ·))[rank - 1], ?_, List.getElem?_eq_getElem hlt⟩
  exact (Multiset.mem_sort _).mp (List.getElem_mem hlt)

/-- In a sorted list, what holds below an element that has it holds for the first ones. -/
theorem holds_getElem_iff {l : List α} {P : α → Prop} [DecidablePred P]
    (hsorted : l.Pairwise (· ≤ ·)) (hdown : ∀ a b, a ≤ b → P b → P a) {i : Nat}
    (hi : i < l.length) : P l[i] ↔ i < l.countP P := by
  induction l generalizing i with
  | nil => simp at hi
  | cons a l ih =>
    rw [List.pairwise_cons] at hsorted
    by_cases ha : P a
    · rw [List.countP_cons_of_pos (by simpa using ha)]
      cases i with
      | zero => simpa using ha
      | succ i =>
        have hrest := ih hsorted.2 (Nat.lt_of_succ_lt_succ hi)
        rw [List.getElem_cons_succ, hrest]
        omega
    · have hnone : ∀ b ∈ a :: l, ¬ P b := by
        intro b hb hP
        rcases List.mem_cons.mp hb with rfl | hb
        · exact ha hP
        · exact ha (hdown a b (hsorted.1 b hb) hP)
      rw [List.countP_eq_zero.mpr (by simpa using hnone)]
      simp only [Nat.not_lt_zero, iff_false]
      exact hnone _ (List.getElem_mem hi)

variable {v bound : α}

/-- What holds below an observation that has it holds for the observation of a rank exactly when it
holds for that many. -/
theorem nth_iff {rank : Nat} {P : α → Prop} [DecidablePred P] (hdown : ∀ a b, a ≤ b → P b → P a)
    (hpos : 1 ≤ rank) (h : nth values rank = some v) : P v ↔ rank ≤ (values.filter P).card := by
  obtain ⟨hlt, rfl⟩ := List.getElem?_eq_some_iff.mp h
  have hcount : (values.filter P).card = (values.sort (· ≤ ·)).countP P := by
    rw [← Multiset.countP_eq_card_filter]
    conv_lhs => rw [← Multiset.sort_eq values (· ≤ ·)]
    exact Multiset.coe_countP _ _
  rw [holds_getElem_iff (Multiset.pairwise_sort values (· ≤ ·)) hdown hlt, hcount]
  omega

/-! ## Buckets -/

/-- The bucket of an observation, by its bound: the first one that is not below it. -/
def bucketOf (bounds : List α) (v : α) : Option α := bounds.find? fun bound => v ≤ bound

/-- The buckets count the observations. -/
structure Binned (buckets : List (α × Nat)) (values : Multiset α) : Prop where
  counts : ∀ b ∈ buckets,
    b.2 = (values.filter fun v => bucketOf (buckets.map (·.1)) v = some b.1).card
  covers : ∀ v ∈ values, (bucketOf (buckets.map (·.1)) v).isSome

section buckets

variable {buckets front rest : List (α × Nat)} {b : α × Nat}

/-- The observation is not above all bounds of the list. -/
def Reached (bounds : List α) (v : α) : Prop := ∃ bound ∈ bounds, v ≤ bound

instance (bounds : List α) : DecidablePred (Reached bounds) :=
  fun v => inferInstanceAs (Decidable (∃ bound ∈ bounds, v ≤ bound))

variable {bounds : List α}

theorem Reached.down (v w : α) (hle : v ≤ w) (h : Reached bounds w) : Reached bounds v := by
  obtain ⟨bound, hbound, hw⟩ := h
  exact ⟨bound, hbound, hle.trans hw⟩

theorem bucketOf_eq_some_iff (hnodup : ((front ++ b :: rest).map (·.1)).Nodup) :
    bucketOf ((front ++ b :: rest).map (·.1)) v = some b.1 ↔
      v ≤ b.1 ∧ ¬ Reached (front.map (·.1)) v := by
  rw [List.map_append, List.map_cons] at hnodup ⊢
  have hfront : b.1 ∉ front.map (·.1) := by
    intro hmem
    exact (List.nodup_append.mp hnodup).2.2 _ hmem _ List.mem_cons_self rfl
  unfold bucketOf
  rw [List.find?_append]
  cases hfound : (front.map (·.1)).find? fun bound => v ≤ bound with
  | some a =>
    have hmem := List.mem_of_find?_eq_some hfound
    have hle : v ≤ a := by simpa using List.find?_some hfound
    have hne : a ≠ b.1 := fun heq => hfront (heq ▸ hmem)
    simp only [Option.some_or, Option.some.injEq, hne, false_iff, not_and, not_not]
    exact fun _ => ⟨a, hmem, hle⟩
  | none =>
    have hnot : ¬ Reached (front.map (·.1)) v := by
      rintro ⟨a, ha, hle⟩
      have hnone := List.find?_eq_none.mp hfound a ha
      simp [hle] at hnone
    by_cases hle : v ≤ b.1
    · simp [hle, hnot]
    · simp only [Option.none_or, List.find?_cons, hle, decide_false, false_and, iff_false]
      intro hsome
      exact hle (by simpa using List.find?_some hsome)

/-- The first counts add up to the observations that are not above their bounds. -/
theorem Binned.sum_front (front rest : List (α × Nat)) (h : Binned (front ++ rest) values)
    (hnodup : ((front ++ rest).map (·.1)).Nodup) :
    (front.map (·.2)).sum = (values.filter (Reached (front.map (·.1)))).card := by
  induction front using List.reverseRecOn generalizing rest with
  | nil =>
    have hnone : values.filter (Reached []) = 0 := by
      rw [Multiset.filter_eq_nil]
      rintro v - ⟨bound, hbound, -⟩
      cases hbound
    simp [hnone]
  | append_singleton front b ih =>
    rw [List.append_assoc, List.singleton_append] at h hnodup
    have hcount := h.counts b (by simp)
    simp only [bucketOf_eq_some_iff hnodup] at hcount
    have hsplit := Multiset.filter_add_not (Reached (front.map (·.1)))
      (values.filter (Reached ((front ++ [b]).map (·.1))))
    have hreached : ∀ v, Reached ((front ++ [b]).map (·.1)) v ↔
        Reached (front.map (·.1)) v ∨ v ≤ b.1 := by
      intro v
      simp [Reached, or_and_right, exists_or]
    rw [List.map_append, List.sum_append, ih (b :: rest) h hnodup, ← hsplit, Multiset.card_add,
      Multiset.filter_filter, Multiset.filter_filter, List.map_singleton, List.sum_singleton,
      hcount]
    congr 2
    · apply Multiset.filter_congr
      intro v _
      rw [hreached]
      tauto
    · apply Multiset.filter_congr
      intro v _
      rw [hreached]
      tauto

/-- The counts reach a rank at the bucket of its observation. -/
theorem Binned.stops (h : Binned buckets values) (hnodup : (buckets.map (·.1)).Nodup) {rank : Nat}
    (hpos : 1 ≤ rank) (hle : rank ≤ values.card) :
    ∃ v front b rest, nth values rank = some v ∧ bucketOf (buckets.map (·.1)) v = some b.1 ∧
      buckets = front ++ b :: rest ∧ (front.map (·.2)).sum < rank ∧
      rank ≤ (front.map (·.2)).sum + b.2 := by
  obtain ⟨v, hv, hnth⟩ := exists_nth hpos hle
  obtain ⟨bound, hbound⟩ := Option.isSome_iff_exists.mp (h.covers v hv)
  obtain ⟨b, hb, rfl⟩ := List.mem_map.mp (List.mem_of_find?_eq_some hbound)
  obtain ⟨front, rest, rfl⟩ := List.append_of_mem hb
  obtain ⟨hin, hout⟩ := (bucketOf_eq_some_iff hnodup).mp hbound
  refine ⟨v, front, b, rest, hnth, hbound, rfl, ?_, ?_⟩
  · rw [Binned.sum_front front (b :: rest) h hnodup]
    exact Nat.not_le.mp fun hge => hout ((nth_iff Reached.down hpos hnth).mpr hge)
  · have hlonger : (front ++ [b]) ++ rest = front ++ b :: rest := by simp
    have hsum := Binned.sum_front (front ++ [b]) rest (hlonger ▸ h)
      (hlonger ▸ hnodup)
    have hreached : Reached ((front ++ [b]).map (·.1)) v := ⟨b.1, by simp, hin⟩
    rw [List.map_append, List.sum_append, List.map_singleton, List.sum_singleton] at hsum
    rw [hsum]
    exact (nth_iff Reached.down hpos hnth).mp hreached

theorem Binned.card (h : Binned buckets values) (hnodup : (buckets.map (·.1)).Nodup) :
    (buckets.map (·.2)).sum = values.card := by
  have hall : values.filter (Reached (buckets.map (·.1))) = values := by
    apply Multiset.filter_eq_self.mpr
    intro v hv
    obtain ⟨bound, hbound⟩ := Option.isSome_iff_exists.mp (h.covers v hv)
    exact ⟨bound, List.mem_of_find?_eq_some hbound, by simpa using List.find?_some hbound⟩
  have hsum := Binned.sum_front buckets [] (by simpa using h)
    (by simpa using hnodup)
  rw [hsum, hall]

end buckets

/-! ## Counts that have observations -/

/-- As many observations at each bound as its bucket counts. -/
def atBounds (buckets : List (α × Nat)) : Multiset α :=
  (buckets.map fun b => Multiset.replicate b.2 b.1).sum

omit [LinearOrder α] in
theorem atBounds_cons (b : α × Nat) (buckets : List (α × Nat)) :
    atBounds (b :: buckets) = Multiset.replicate b.2 b.1 + atBounds buckets := by
  simp [atBounds]

variable {buckets : List (α × Nat)}

omit [LinearOrder α] in
theorem mem_of_mem_atBounds (h : v ∈ atBounds buckets) : v ∈ buckets.map (·.1) := by
  induction buckets with
  | nil => simp [atBounds] at h
  | cons b buckets ih =>
    rw [atBounds_cons, Multiset.mem_add] at h
    rcases h with h | h
    · simp [Multiset.eq_of_mem_replicate h]
    · exact List.mem_cons_of_mem _ (ih h)

theorem count_atBounds (buckets : List (α × Nat)) (bound : α) :
    (atBounds buckets).count bound = added buckets bound := by
  induction buckets with
  | nil => rfl
  | cons b buckets ih =>
    rw [atBounds_cons, Multiset.count_add, ih, added_cons, Multiset.count_replicate]
    simp only [eq_comm]

/-- A bound is in its own bucket. -/
theorem bucketOf_self (hsorted : bounds.Pairwise (· < ·)) (h : bound ∈ bounds) :
    bucketOf bounds bound = some bound := by
  obtain ⟨front, rest, rfl⟩ := List.append_of_mem h
  rw [List.pairwise_append] at hsorted
  unfold bucketOf
  rw [List.find?_append]
  have hnone : front.find? (fun a => bound ≤ a) = none := by
    rw [List.find?_eq_none]
    intro a ha
    simpa using hsorted.2.2 a ha bound List.mem_cons_self
  rw [hnone]
  simp

theorem binned_atBounds (hsorted : (buckets.map (·.1)).Pairwise (· < ·)) :
    Binned buckets (atBounds buckets) where
  counts b hb := by
    have hnodup : (buckets.map (·.1)).Nodup := hsorted.imp fun h => h.ne
    have hfilter : (atBounds buckets).filter
        (fun v => bucketOf (buckets.map (·.1)) v = some b.1) =
        (atBounds buckets).filter (b.1 = ·) := by
      apply Multiset.filter_congr
      intro v hv
      rw [bucketOf_self hsorted (mem_of_mem_atBounds hv), Option.some.injEq, eq_comm]
    rw [hfilter, ← Multiset.count_eq_card_filter_eq, count_atBounds, added_of_mem hnodup hb]
  covers v hv := by
    rw [bucketOf_self hsorted (mem_of_mem_atBounds hv)]
    rfl

/-! ## The sum of histograms -/

/-- The counts of all histograms in each bucket. -/
def merge {β : Type} [DecidableEq β] (bounds : List β) (histograms : List (List (β × Nat))) :
    List (β × Nat) :=
  bounds.map fun bound => (bound, (histograms.map fun h => added h bound).sum)

@[simp]
theorem map_fst_merge {β : Type} [DecidableEq β] (bounds : List β)
    (histograms : List (List (β × Nat))) : (merge bounds histograms).map (·.1) = bounds := by
  simp [merge, Function.comp_def]

/-- A histogram of a list of bounds and the observations that it counts. -/
def BinnedOver (bounds : List α) (h : List (α × Nat)) (values : Multiset α) : Prop :=
  h.map (·.1) = bounds ∧ Binned h values

theorem BinnedOver.added {h : List (α × Nat)} (hover : BinnedOver bounds h values)
    (hnodup : bounds.Nodup) (hmem : bound ∈ bounds) :
    added h bound = (values.filter fun v => bucketOf bounds v = some bound).card := by
  obtain ⟨rfl, hbinned⟩ := hover
  obtain ⟨b, hb, rfl⟩ := List.mem_map.mp hmem
  rw [added_of_mem hnodup hb]
  exact hbinned.counts b hb

/-- The sum of histograms counts the observations of all of them. -/
theorem BinnedOver.merge {histograms : List (List (α × Nat))} {values : List (Multiset α)}
    (hnodup : bounds.Nodup) (h : List.Forall₂ (BinnedOver bounds) histograms values) :
    Binned (merge bounds histograms) values.sum where
  counts b hb := by
    obtain ⟨bound, hmem, rfl⟩ := List.mem_map.mp hb
    rw [map_fst_merge]
    change (histograms.map fun h => counters.added h bound).sum = _
    induction h with
    | nil => rfl
    | cons hfirst hrest ih =>
      rw [List.map_cons, List.sum_cons, List.sum_cons, Multiset.filter_add, Multiset.card_add,
        hfirst.added hnodup hmem, ih (List.mem_map_of_mem hmem)]
  covers v hv := by
    rw [map_fst_merge]
    induction h with
    | nil => simp at hv
    | cons hfirst hrest ih =>
      rw [List.sum_cons, Multiset.mem_add] at hv
      rcases hv with hv | hv
      · have hcovers := hfirst.2.covers v hv
        rwa [hfirst.1] at hcovers
      · exact ih hv

end ranks
