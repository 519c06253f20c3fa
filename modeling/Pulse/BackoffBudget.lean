-- The backoff of a worker against the budget that the configuration keeps for
-- it: the jitter of each delay stays in its bounds, so the delays of all the
-- attempts stay in the sum of the bounds.
import Pulse.WorkerChecks

open checks durations Duration
open pulse.config

namespace pulse.service

/-! ## One delay -/

/-- The exponential backoff, without jitter. -/
def exponential_delay (base maximum attempt : Nat) : Nat :=
  min (saturating_mul base (2 ^ min attempt 16)) maximum

/-- The bound of the configuration for one delay. -/
def delay_upper (base maximum attempt : Nat) : Nat :=
  min (saturating_mul (exponential_delay base maximum attempt) 6 / 5) maximum

variable {base maximum : Nat}

theorem exponential_delay_eq (h : maximum ≤ Duration.MAX) (attempt : Nat) :
    exponential_delay base maximum attempt = min (base * 2 ^ min attempt 16) maximum := by
  unfold exponential_delay saturating_mul
  rw [min_assoc, min_eq_right h]

theorem exponential_delay_le (base maximum attempt : Nat) :
    exponential_delay base maximum attempt ≤ maximum := min_le_right _ _

/-- The delay, from its basis points. -/
theorem retry_delay_eq (base maximum : Nat) (attempt : UInt32) (entropy : String) :
    ∃ basis_points, 8000 ≤ basis_points ∧ basis_points ≤ 12000 ∧
      retry_delay base maximum attempt entropy =
        min (min (min (exponential_delay base maximum attempt.toNat * basis_points) (2 ^ 128 - 1) /
          10000) (2 ^ 64 - 1)) maximum := by
  refine ⟨8000 + retry_hash attempt entropy % 4001, by omega, ?_, rfl⟩
  have hmod := Nat.mod_lt (retry_hash attempt entropy) (show 0 < 4001 by decide)
  omega

/-- A delay is in the bound that the configuration has for its attempt. -/
theorem retry_delay_le_upper (base maximum : Nat) (attempt : UInt32) (entropy : String) :
    retry_delay base maximum attempt entropy ≤ delay_upper base maximum attempt.toNat := by
  obtain ⟨basis_points, -, hhigh, heq⟩ := retry_delay_eq base maximum attempt entropy
  rw [heq, delay_upper]
  refine le_min ?_ (min_le_right _ _)
  refine (min_le_left _ _).trans ?_
  generalize exponential_delay base maximum attempt.toNat = exponential
  have hjitter : exponential * basis_points / 10000 ≤ exponential * 6 / 5 := by
    have hmul := Nat.mul_le_mul_left exponential hhigh
    omega
  unfold saturating_mul
  rcases le_total (exponential * 6) Duration.MAX with hfits | hsaturated
  · -- the bound is the whole six fifths
    rw [min_eq_left hfits]
    refine (min_le_left _ _).trans (le_trans ?_ hjitter)
    exact Nat.div_le_div_right (min_le_left _ _)
  · -- the bound is saturated, and the delay is cut to 64 bits before
    rw [min_eq_right hsaturated]
    refine (min_le_right _ _).trans ?_
    decide

/-- A delay is at least four fifths of its backoff, up to the cut to 64 bits. -/
theorem four_fifths_le_retry_delay (h : maximum ≤ Duration.MAX) (attempt : UInt32)
    (entropy : String) :
    min (4 * min (base * 2 ^ min attempt.toNat 16) maximum / 5) (2 ^ 64 - 1) ≤
      retry_delay base maximum attempt entropy := by
  obtain ⟨basis_points, hlow, hhigh, heq⟩ := retry_delay_eq base maximum attempt entropy
  have hle := exponential_delay_le base maximum attempt.toNat
  rw [heq, ← exponential_delay_eq h]
  generalize exponential_delay base maximum attempt.toNat = exponential at hle
  have hproduct : exponential * 8000 ≤ exponential * basis_points := Nat.mul_le_mul_left _ hlow
  -- a product of basis points has room in 128 bits
  have hroom : exponential * basis_points ≤ 2 ^ 128 - 1 := by
    calc exponential * basis_points ≤ Duration.MAX * 12000 :=
          Nat.mul_le_mul (hle.trans h) hhigh
      _ ≤ 2 ^ 128 - 1 := by decide
  rw [min_eq_left hroom]
  refine le_min (le_min ?_ (min_le_right _ _)) ?_
  · refine (min_le_left _ _).trans ?_
    omega
  · refine (min_le_left _ _).trans ?_
    omega

/-! ## The sum of the delays -/

/-- The budget is the sum of the bounds. -/
theorem retry_backoff_upper_bound_ok {n total : Nat}
    (h : retry_backoff_upper_bound base maximum n = .ok total) :
    total = ((List.range n).map (delay_upper base maximum)).sum := by
  induction n generalizing total with
  | zero =>
    cases h
    rfl
  | succ n ih =>
    unfold retry_backoff_upper_bound at h ih
    rw [List.range_succ, List.foldlM_append, bind_eq_ok] at h
    obtain ⟨before, hbefore, hlast⟩ := h
    simp only [List.foldlM_cons, List.foldlM_nil, bind_eq_ok, okOr_eq_ok,
      checked_add_eq_some] at hlast
    obtain ⟨sum, ⟨-, hsum⟩, hpure⟩ := hlast
    cases hpure
    rw [List.range_succ, List.map_append, List.sum_append, ← ih hbefore, hsum]
    simp [delay_upper, exponential_delay]

/-- The delays of the first attempts are in the budget of the configuration. Each of them is at most
the maximum, and at least four fifths of its backoff when 64 bits hold it. -/
theorem backoff_stays_in_its_budget {base maximum : Nat} (hmaximum : maximum ≤ Duration.MAX)
    (n : UInt32) (entropy : Nat → String) :
    (∀ total, retry_backoff_upper_bound base maximum n.toNat = .ok total →
      ((List.range n.toNat).map fun attempt =>
        retry_delay base maximum (UInt32.ofNat attempt) (entropy attempt)).sum ≤ total) ∧
    ∀ attempt text, retry_delay base maximum attempt text ≤ maximum ∧
      min (4 * min (base * 2 ^ min attempt.toNat 16) maximum / 5) (2 ^ 64 - 1) ≤
        retry_delay base maximum attempt text := by
  constructor
  · intro total htotal
    rw [retry_backoff_upper_bound_ok htotal]
    apply List.sum_le_sum
    intro attempt hattempt
    have hlt := (List.mem_range.mp hattempt).trans n.toNat_lt
    have hle := retry_delay_le_upper base maximum (UInt32.ofNat attempt) (entropy attempt)
    rwa [UInt32.toNat_ofNat_of_lt' hlt] at hle
  · intro attempt text
    exact ⟨min_le_right _ _, four_fifths_le_retry_delay hmaximum attempt text⟩

theorem default_backoff_stays_in_its_budget :
    ((List.range 2).map fun attempt => retry_delay (from_millis 500)
      (from_secs 30) (UInt32.ofNat attempt) "k").sum ≤ from_millis 1800 := by
  have hbudget : retry_backoff_upper_bound (from_millis 500) (from_secs 30) 2 =
      .ok (from_millis 1800) := by decide
  exact (backoff_stays_in_its_budget (by decide) 2 fun _ => "k").1 _ hbudget

end pulse.service
