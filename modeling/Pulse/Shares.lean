-- A total that is split into parts: each part gets the quotient, and the
-- first parts get one more until the remainder is used up.
import Mathlib.Algebra.Order.Ring.Nat
import Mathlib.Tactic.Common

namespace shares

def share (total parts index : Nat) : Nat :=
  total / parts + if index < total % parts then 1 else 0

/-- The first `k` of the ones more. -/
theorem sum_extra (r k : Nat) :
    ((List.range k).map fun i => if i < r then 1 else 0).sum = min k r := by
  induction k with
  | zero => simp
  | succ k ih =>
    rw [List.range_succ, List.map_append, List.sum_append, ih]
    simp only [List.map_cons, List.map_nil, List.sum_cons, List.sum_nil]
    split <;> omega

variable {total parts : Nat}

theorem sum_shares (h : 0 < parts) : ((List.range parts).map (share total parts)).sum = total := by
  have hsplit : ∀ k, ((List.range k).map (share total parts)).sum =
      k * (total / parts) +
        ((List.range k).map fun i => if i < total % parts then 1 else 0).sum := by
    intro k
    induction k with
    | zero => simp
    | succ k ih =>
      simp only [List.range_succ, List.map_append, List.sum_append, ih, List.map_cons, List.map_nil,
        List.sum_cons, List.sum_nil, share, Nat.succ_mul]
      omega
  have hmod := Nat.mod_lt total h
  rw [hsplit, sum_extra, Nat.min_eq_right (Nat.le_of_lt hmod)]
  exact Nat.div_add_mod total parts

/-- A larger total has no smaller part. -/
theorem share_mono {total' : Nat} (index : Nat) (h : total ≤ total') :
    share total parts index ≤ share total' parts index := by
  have hquotient := Nat.div_le_div_right (c := parts) h
  unfold share
  rcases Nat.lt_or_eq_of_le hquotient with hlt | heq
  · split <;> split <;> omega
  · -- with one quotient the remainders are in the order of the totals
    have hsmall := Nat.div_add_mod total parts
    have hlarge := Nat.div_add_mod total' parts
    rw [heq] at hsmall
    rw [heq]
    split <;> split <;> omega

theorem one_le_share (index : Nat) (hparts : 0 < parts) (h : parts ≤ total) :
    1 ≤ share total parts index :=
  Nat.le_trans (Nat.div_pos h hparts) (Nat.le_add_right _ _)

theorem share_le (index : Nat) (hparts : 0 < parts) : share total parts index ≤ total := by
  have hdiv := Nat.div_add_mod total parts
  have hle : total / parts ≤ parts * (total / parts) := Nat.le_mul_of_pos_left _ hparts
  unfold share
  split <;> omega

end shares
