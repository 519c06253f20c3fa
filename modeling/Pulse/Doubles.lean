-- The doubles among the rational numbers: the numbers with 53 significant
-- bits and a last bit of at least 2^-1074. A result is rounded to the nearest
-- one, and a tie goes to the one whose last bit is even.
import Mathlib.Data.Int.Log
import Mathlib.Data.Rat.Floor
import Mathlib.Tactic.Linarith
import Mathlib.Tactic.Positivity

namespace floats

/-! ## Integers -/

/-- The nearest integer. A tie goes to the even one. -/
def nearest (x : ℚ) : ℤ :=
  let low := ⌊x⌋
  if x - low < 1 / 2 ∨ (x - low = 1 / 2 ∧ low % 2 = 0) then low else low + 1

theorem nearest_intCast (k : ℤ) : nearest k = k := by
  simp [nearest]

theorem floor_le_nearest (x : ℚ) : ⌊x⌋ ≤ nearest x := by
  unfold nearest
  dsimp only
  split <;> omega

theorem nearest_le_floor (x : ℚ) : nearest x ≤ ⌊x⌋ + 1 := by
  unfold nearest
  dsimp only
  split <;> omega

variable {x y : ℚ}

theorem nearest_mono (h : x ≤ y) : nearest x ≤ nearest y := by
  have hfloor := Int.floor_mono h
  rcases hfloor.lt_or_eq with hlt | heq
  · have hx := nearest_le_floor x
    have hy := floor_le_nearest y
    omega
  · -- the same integer is below both
    unfold nearest
    dsimp only
    rw [← heq]
    split
    · split <;> omega
    · rename_i hx
      split
      · rename_i hy
        exfalso
        apply hx
        rcases hy with hy | ⟨hy, heven⟩
        · left
          linarith
        · rcases (show x - ⌊x⌋ ≤ 1 / 2 by linarith).lt_or_eq with hlt | htie
          · exact .inl hlt
          · exact .inr ⟨htie, heven⟩
      · exact le_rfl

variable {k e : ℤ}

theorem le_nearest (h : k ≤ x) : k ≤ nearest x := by
  have hmono := nearest_mono h
  rwa [nearest_intCast] at hmono

theorem nearest_le (h : x ≤ k) : nearest x ≤ k := by
  have hmono := nearest_mono h
  rwa [nearest_intCast] at hmono

theorem abs_nearest_le (h : |x| ≤ k) : |nearest x| ≤ k := by
  rw [abs_le] at h ⊢
  refine ⟨le_nearest ?_, nearest_le h.2⟩
  push_cast
  exact h.1

/-! ## Doubles -/

/-- The exponent of the last bit of a double at `x`. -/
def lastBit (x : ℚ) : ℤ := max (Int.log 2 |x| - 52) (-1074)

/-- The double that is nearest to `x`, with no limit from above. -/
def round (x : ℚ) : ℚ := nearest (x / 2 ^ lastBit x) * 2 ^ lastBit x

@[simp]
theorem round_zero : round 0 = 0 := by
  simp [round, nearest]

theorem two_zpow_pos (e : ℤ) : (0 : ℚ) < 2 ^ e := zpow_pos (by norm_num) e

theorem abs_div_lastBit_lt (x : ℚ) : |x / 2 ^ lastBit x| < 2 ^ 53 := by
  have hpos := two_zpow_pos (lastBit x)
  rw [abs_div, abs_of_pos hpos, div_lt_iff₀ hpos]
  calc |x| < (2 : ℚ) ^ (Int.log 2 |x| + 1) := Int.lt_zpow_succ_log_self (by norm_num) |x|
    _ ≤ 2 ^ (53 + lastBit x) := by
        apply zpow_le_zpow_right₀ (by norm_num)
        unfold lastBit
        omega
    _ = 2 ^ 53 * 2 ^ lastBit x := by
        rw [zpow_add₀ (by norm_num)]
        norm_cast

theorem round_of_lt (hk : |k| < 2 ^ 53) (he : -1074 ≤ e) : round (k * 2 ^ e) = k * 2 ^ e := by
  set x : ℚ := k * 2 ^ e with hx
  suffices hint : ∃ m : ℤ, x / 2 ^ lastBit x = m by
    obtain ⟨m, hm⟩ := hint
    unfold round
    rw [hm, nearest_intCast, ← hm, div_mul_cancel₀]
    exact (two_zpow_pos _).ne'
  by_cases hzero : k = 0
  · exact ⟨0, by simp [hx, hzero]⟩
  -- the last bit is at `2^e` or below
  have habs : |x| = |k| * 2 ^ e := by
    rw [hx, abs_mul, abs_of_pos (two_zpow_pos e)]
    norm_cast
  have hpos : 0 < |x| := by
    rw [habs]
    have hk : (0 : ℚ) < ((|k| : ℤ) : ℚ) := by exact_mod_cast abs_pos.mpr hzero
    exact mul_pos hk (two_zpow_pos e)
  have hlog : Int.log 2 |x| < e + 53 := by
    rw [← Int.lt_zpow_iff_log_lt (by norm_num) hpos, habs]
    calc ((|k| : ℤ) : ℚ) * 2 ^ e < 2 ^ 53 * 2 ^ e := by
          apply mul_lt_mul_of_pos_right _ (two_zpow_pos e)
          exact_mod_cast hk
      _ = ((2 : ℕ) : ℚ) ^ (e + 53) := by
          push_cast
          rw [zpow_add₀ (by norm_num), mul_comm]
          norm_cast
  have hle : lastBit x ≤ e := by
    unfold lastBit
    omega
  obtain ⟨n, hn⟩ := Int.eq_ofNat_of_zero_le (show 0 ≤ e - lastBit x by omega)
  refine ⟨k * 2 ^ n, ?_⟩
  rw [hx, mul_div_assoc, ← zpow_sub₀ (by norm_num), ← hx, hn]
  push_cast
  rw [zpow_natCast]

/-- A number with 53 significant bits is a double. -/
theorem round_exact (hk : |k| ≤ 2 ^ 53) (he : -1074 ≤ e) : round (k * 2 ^ e) = k * 2 ^ e := by
  rcases hk.lt_or_eq with hlt | heq
  · exact round_of_lt hlt he
  · -- two to the 53 is one bit, one place higher
    obtain ⟨j, hj, hkj⟩ : ∃ j : ℤ, |j| < 2 ^ 53 ∧ k = j * 2 := by
      rcases (abs_eq (by norm_num)).mp heq with rfl | rfl
      · exact ⟨2 ^ 52, by norm_num, by norm_num⟩
      · exact ⟨-2 ^ 52, by norm_num, by norm_num⟩
    have hshift : (k : ℚ) * 2 ^ e = j * 2 ^ (e + 1) := by
      rw [hkj, zpow_add_one₀ (by norm_num)]
      push_cast
      ring
    rw [hshift]
    exact round_of_lt hj (by omega)

theorem round_natCast {n : Nat} (h : n ≤ 2 ^ 53) : round n = n := by
  have hexact := round_exact (k := n) (e := 0)
    (by rw [abs_of_nonneg (by positivity)]; exact_mod_cast h)
    (by norm_num)
  simpa using hexact

theorem round_two_zpow (h : -1074 ≤ e) : round (2 ^ e) = 2 ^ e := by
  have hexact := round_exact (k := 1) (by norm_num) h
  simpa using hexact

theorem round_round (x : ℚ) : round (round x) = round x := by
  apply round_exact
  · apply abs_nearest_le
    exact_mod_cast (abs_div_lastBit_lt x).le
  · exact le_max_right _ _

theorem round_nonneg (h : 0 ≤ x) : 0 ≤ round x := by
  have hdiv : ((0 : ℤ) : ℚ) ≤ x / 2 ^ lastBit x := by
    simpa using div_nonneg h (two_zpow_pos _).le
  exact mul_nonneg (by exact_mod_cast le_nearest hdiv) (two_zpow_pos _).le

/-- No double is above the next power of two. -/
theorem round_le_pow (x : ℚ) : round x ≤ 2 ^ 53 * 2 ^ lastBit x := by
  apply mul_le_mul_of_nonneg_right _ (two_zpow_pos _).le
  have hle : nearest (x / 2 ^ lastBit x) ≤ 2 ^ 53 := by
    apply nearest_le
    push_cast
    exact le_of_abs_le (abs_div_lastBit_lt x).le
  calc (nearest (x / 2 ^ lastBit x) : ℚ) ≤ ((2 ^ 53 : ℤ) : ℚ) := Int.cast_le.mpr hle
    _ = 2 ^ 53 := by push_cast; rfl

/-- A normal number is not rounded below its power of two. -/
theorem pow_le_round (hx : 0 < x) (hnormal : -1074 < lastBit x) :
    2 ^ 52 * 2 ^ lastBit x ≤ round x := by
  apply mul_le_mul_of_nonneg_right _ (two_zpow_pos _).le
  have hbit : lastBit x = Int.log 2 x - 52 := by
    unfold lastBit at hnormal ⊢
    rw [abs_of_pos hx] at hnormal ⊢
    omega
  have hscaled : (2 : ℚ) ^ 52 ≤ x / 2 ^ lastBit x := by
    rw [le_div_iff₀ (two_zpow_pos _), hbit]
    calc (2 : ℚ) ^ 52 * 2 ^ (Int.log 2 x - 52) = ((2 : ℕ) : ℚ) ^ Int.log 2 x := by
          rw [← zpow_natCast, ← zpow_add₀ (by norm_num)]
          push_cast
          congr 1
          omega
      _ ≤ x := Int.zpow_log_le_self (by norm_num) hx
  have hle : 2 ^ 52 ≤ nearest (x / 2 ^ lastBit x) := by
    apply le_nearest
    push_cast
    exact hscaled
  calc (2 : ℚ) ^ 52 = ((2 ^ 52 : ℤ) : ℚ) := by push_cast; rfl
    _ ≤ nearest (x / 2 ^ lastBit x) := Int.cast_le.mpr hle

/-- The rounding keeps the order. -/
theorem round_mono (hx : 0 ≤ x) (h : x ≤ y) : round x ≤ round y := by
  rcases hx.eq_or_lt with rfl | hpos
  · rw [round_zero]
    exact round_nonneg h
  have hypos := hpos.trans_le h
  have hlog : Int.log 2 |x| ≤ Int.log 2 |y| := by
    apply Int.log_mono_right
    · exact abs_pos.mpr hpos.ne'
    · rwa [abs_of_pos hpos, abs_of_pos hypos]
  have hbit : lastBit x ≤ lastBit y := by
    unfold lastBit
    omega
  rcases hbit.eq_or_lt with heq | hlt
  · unfold round
    rw [← heq]
    apply mul_le_mul_of_nonneg_right _ (two_zpow_pos _).le
    exact_mod_cast nearest_mono (div_le_div_of_nonneg_right h (two_zpow_pos _).le)
  · -- a power of two is between the two
    have hnormal : -1074 < lastBit y := lt_of_le_of_lt (le_max_right _ _) hlt
    have hdouble : (2 : ℚ) ^ (lastBit x + 1) ≤ 2 ^ lastBit y :=
      zpow_le_zpow_right₀ (by norm_num) (by omega)
    rw [zpow_add_one₀ (by norm_num)] at hdouble
    have hbelow := round_le_pow x
    have habove := pow_le_round hypos hnormal
    linarith

end floats
