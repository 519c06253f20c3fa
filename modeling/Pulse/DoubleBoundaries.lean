-- Where the rounding to a double turns: the least numbers that are rounded to
-- a given double or above it, and the least double above a number.
import Pulse.Doubles

namespace floats

/-! ## Integers -/

variable {y x c : ℚ}

/-- An integer is reached from the middle of the gap below it, and at the middle when it is even. -/
theorem le_nearest_iff {k : ℤ} :
    k ≤ nearest x ↔ (k : ℚ) - 1 / 2 < x ∨ ((k : ℚ) - 1 / 2 = x ∧ k % 2 = 0) := by
  have hfloor := Int.floor_le x
  have hlt := Int.lt_floor_add_one x
  rcases lt_trichotomy k (⌊x⌋ + 1) with hbelow | heq | habove
  · -- `k` is not above `x`
    have hle : (k : ℚ) ≤ ⌊x⌋ := by exact_mod_cast Int.lt_add_one_iff.mp hbelow
    have hreach := floor_le_nearest x
    constructor
    · intro _
      left
      linarith
    · intro _
      omega
  · have hcast : (k : ℚ) = ⌊x⌋ + 1 := by exact_mod_cast heq
    unfold nearest
    dsimp only
    constructor
    · intro h
      split at h
      · omega
      · rename_i hnot
        rw [not_or, not_and, not_lt] at hnot
        rcases hnot.1.lt_or_eq with hover | htie
        · left
          linarith
        · right
          have hodd := hnot.2 htie.symm
          exact ⟨by linarith, by omega⟩
    · intro h
      rw [if_neg]
      · exact heq.le
      · rintro (hunder | ⟨htie, heven⟩)
        · rcases h with h | ⟨h, -⟩ <;> linarith
        · rcases h with h | ⟨-, h⟩
          · linarith
          · omega
  · -- `k` is more than one above `x`
    have hle : (⌊x⌋ : ℚ) + 2 ≤ k := by exact_mod_cast (show ⌊x⌋ + 2 ≤ k by omega)
    have hreach := nearest_le_floor x
    constructor
    · intro h
      omega
    · rintro (h | ⟨h, -⟩) <;> linarith

/-! ## The gap below a double -/

/-- The exponent of the gap below the double `y`. -/
def bitBelow (y : ℚ) : ℤ := max (Int.clog 2 y - 53) (-1074)

/-- `x` is rounded to `y` or above: it is over the middle of the gap below `y`, or at the middle
and the tie goes to `y`. -/
def Reaches (y x : ℚ) : Prop :=
  y - 2 ^ bitBelow y / 2 < x ∨ (y - 2 ^ bitBelow y / 2 = x ∧ ⌊y / 2 ^ bitBelow y⌋ % 2 = 0)

instance (y x : ℚ) : Decidable (Reaches y x) := inferInstanceAs (Decidable (_ ∨ _))

/-- A double is a multiple of every power of two up to its last bit. -/
theorem exists_multiple {e : ℤ} (hy : round y = y) (he : e ≤ lastBit y) :
    ∃ k : ℤ, y = k * 2 ^ e := by
  obtain ⟨n, hn⟩ := Int.eq_ofNat_of_zero_le (show 0 ≤ lastBit y - e by omega)
  refine ⟨nearest (y / 2 ^ lastBit y) * 2 ^ n, ?_⟩
  have hpow : (2 : ℚ) ^ lastBit y = 2 ^ n * 2 ^ e := by
    rw [show lastBit y = n + e by omega, zpow_add₀ (by norm_num), zpow_natCast]
  calc y = nearest (y / 2 ^ lastBit y) * 2 ^ lastBit y := hy.symm
    _ = nearest (y / 2 ^ lastBit y) * (2 ^ n * 2 ^ e) := by rw [← hpow]
    _ = (nearest (y / 2 ^ lastBit y) * 2 ^ n : ℤ) * 2 ^ e := by
        push_cast
        ring

/-- A double and the gap below it: `m` gaps, with 53 bits, and 53 of them when it is normal. -/
theorem exists_digits (hpos : 0 < y) (hy : round y = y) :
    ∃ m : ℤ, y = m * 2 ^ bitBelow y ∧ 1 ≤ m ∧ m ≤ 2 ^ 53 ∧
      (bitBelow y = -1074 ∨ 2 ^ 52 < m) := by
  have hclog : Int.clog 2 y ≤ Int.log 2 y + 1 := by
    rw [← Int.le_zpow_iff_clog_le (by norm_num) hpos]
    exact (Int.lt_zpow_succ_log_self (by norm_num) y).le
  have hbit : bitBelow y ≤ lastBit y := by
    unfold bitBelow lastBit
    rw [abs_of_pos hpos]
    omega
  obtain ⟨m, hm⟩ := exists_multiple hy hbit
  have hgap := two_zpow_pos (bitBelow y)
  refine ⟨m, hm, ?_, ?_, ?_⟩
  · have hmpos : (0 : ℚ) < m := by
      rw [hm] at hpos
      exact pos_of_mul_pos_left hpos hgap.le
    exact_mod_cast hmpos
  · have hle : (m : ℚ) * 2 ^ bitBelow y ≤ 2 ^ 53 * 2 ^ bitBelow y := by
      rw [← hm]
      calc y ≤ ((2 : ℕ) : ℚ) ^ Int.clog 2 y := Int.self_le_zpow_clog (by norm_num) y
        _ ≤ 2 ^ (53 + bitBelow y) := by
            push_cast
            apply zpow_le_zpow_right₀ (by norm_num)
            unfold bitBelow
            omega
        _ = 2 ^ 53 * 2 ^ bitBelow y := by
            rw [zpow_add₀ (by norm_num)]
            norm_cast
    exact_mod_cast le_of_mul_le_mul_right hle hgap
  · by_cases hnormal : bitBelow y = -1074
    · exact .inl hnormal
    · right
      have heq : bitBelow y = Int.clog 2 y - 53 := by
        unfold bitBelow at hnormal ⊢
        omega
      have hlt : (2 : ℚ) ^ 52 * 2 ^ bitBelow y < m * 2 ^ bitBelow y := by
        rw [← hm]
        calc (2 : ℚ) ^ 52 * 2 ^ bitBelow y = ((2 : ℕ) : ℚ) ^ (Int.clog 2 y - 1) := by
              rw [heq, ← zpow_natCast, ← zpow_add₀ (by norm_num)]
              push_cast
              congr 1
              omega
          _ < y := Int.zpow_pred_clog_lt_self (by norm_num) hpos
      exact_mod_cast lt_of_mul_lt_mul_right hlt hgap.le

/-- Between a double and the double below it the last bit is the gap. -/
theorem lastBit_of_gap {m : ℤ} (hx : 0 < x) (hm : y = m * 2 ^ bitBelow y) (hmax : m ≤ 2 ^ 53)
    (hnormal : bitBelow y = -1074 ∨ 2 ^ 52 < m) (hlow : ((m - 1 : ℤ) : ℚ) * 2 ^ bitBelow y ≤ x)
    (hhigh : x < y) : lastBit x = bitBelow y := by
  have hgap := two_zpow_pos (bitBelow y)
  have hlog : Int.log 2 x < 53 + bitBelow y := by
    rw [← Int.lt_zpow_iff_log_lt (by norm_num) hx]
    calc x < m * 2 ^ bitBelow y := hm ▸ hhigh
      _ ≤ 2 ^ 53 * 2 ^ bitBelow y := by
          apply mul_le_mul_of_nonneg_right _ hgap.le
          exact_mod_cast hmax
      _ = ((2 : ℕ) : ℚ) ^ (53 + bitBelow y) := by
          push_cast
          rw [zpow_add₀ (by norm_num)]
          norm_cast
  unfold lastBit
  rw [abs_of_pos hx]
  rcases hnormal with hmin | hdigits
  · omega
  · have hlog' : 52 + bitBelow y ≤ Int.log 2 x := by
      rw [← Int.zpow_le_iff_le_log (by norm_num) hx]
      calc ((2 : ℕ) : ℚ) ^ (52 + bitBelow y) = 2 ^ 52 * 2 ^ bitBelow y := by
            push_cast
            rw [zpow_add₀ (by norm_num)]
            norm_cast
        _ ≤ ((m - 1 : ℤ) : ℚ) * 2 ^ bitBelow y := by
            apply mul_le_mul_of_nonneg_right _ hgap.le
            exact_mod_cast (show (2 : ℤ) ^ 52 ≤ m - 1 by omega)
        _ ≤ x := hlow
    have hmin : -1074 ≤ bitBelow y := le_max_right _ _
    omega

/-- The numbers that are rounded to the double `y` or above it. -/
theorem le_round_iff (hx : 0 < x) (hpos : 0 < y) (hy : round y = y) :
    y ≤ round x ↔ Reaches y x := by
  obtain ⟨m, hm, hone, hmax, hnormal⟩ := exists_digits hpos hy
  have hgap := two_zpow_pos (bitBelow y)
  rcases le_or_gt y x with hle | hlt
  · refine iff_of_true ?_ (.inl (by linarith))
    rw [← hy]
    exact round_mono hpos.le hle
  rcases le_or_gt (((m - 1 : ℤ) : ℚ) * 2 ^ bitBelow y) x with hlow | hfar
  · -- `x` is in the gap, so both are counted in gaps
    have hdiv : y / 2 ^ bitBelow y = m := by
      rw [div_eq_iff hgap.ne']
      exact hm
    have hmiddle : y - 2 ^ bitBelow y / 2 = ((m : ℚ) - 1 / 2) * 2 ^ bitBelow y := by
      rw [sub_mul, ← hm]
      ring
    unfold round Reaches
    rw [lastBit_of_gap hx hm hmax hnormal hlow hlt, hdiv, Int.floor_intCast, hmiddle,
      ← lt_div_iff₀ hgap, ← eq_div_iff hgap.ne', ← le_nearest_iff]
    constructor
    · intro h
      rw [← div_le_iff₀ hgap, hdiv] at h
      exact_mod_cast h
    · intro h
      rw [← div_le_iff₀ hgap, hdiv]
      exact_mod_cast h
  · -- `x` is below the next double
    have hbelow : round (((m - 1 : ℤ) : ℚ) * 2 ^ bitBelow y) = ((m - 1 : ℤ) : ℚ) * 2 ^ bitBelow y :=
      round_exact (abs_le.mpr ⟨by omega, by omega⟩) (le_max_right _ _)
    have hnext : ((m - 1 : ℤ) : ℚ) * 2 ^ bitBelow y = y - 2 ^ bitBelow y := by
      push_cast
      rw [sub_mul, ← hm, one_mul]
    refine iff_of_false (not_le.mpr ?_) ?_
    · have hmono := round_mono hx.le hfar.le
      rw [hbelow, hnext] at hmono
      linarith
    · rintro (h | ⟨h, -⟩) <;> linarith

/-! ## The least double above a number -/

def up (c : ℚ) : ℚ := ⌈c / 2 ^ lastBit c⌉ * 2 ^ lastBit c

theorem le_up (c : ℚ) : c ≤ up c := by
  unfold up
  rw [← div_le_iff₀ (two_zpow_pos _)]
  exact Int.le_ceil _

theorem round_up (hc : 0 < c) : round (up c) = up c := by
  have hlt := abs_div_lastBit_lt c
  have hpos : 0 < c / 2 ^ lastBit c := div_pos hc (two_zpow_pos _)
  rw [abs_of_pos hpos] at hlt
  apply round_exact _ (le_max_right _ _)
  rw [abs_of_nonneg (Int.ceil_nonneg hpos.le)]
  exact Int.ceil_le.mpr (by exact_mod_cast hlt.le)

theorem up_le_iff (hc : 0 < c) (hy : round y = y) : up c ≤ y ↔ c ≤ y := by
  constructor
  · exact (le_up c).trans
  · intro hle
    have hbit : lastBit c ≤ lastBit y := by
      have hlog : Int.log 2 |c| ≤ Int.log 2 |y| := by
        apply Int.log_mono_right (abs_pos.mpr hc.ne')
        rwa [abs_of_pos hc, abs_of_pos (hc.trans_le hle)]
      unfold lastBit
      omega
    obtain ⟨k, hk⟩ := exists_multiple hy hbit
    have hdiv : c / 2 ^ lastBit c ≤ k := by
      rw [div_le_iff₀ (two_zpow_pos _), ← hk]
      exact hle
    unfold up
    rw [hk]
    apply mul_le_mul_of_nonneg_right _ (two_zpow_pos _).le
    exact_mod_cast Int.ceil_le.mpr hdiv

/-! ## A product that reaches one -/

/-- One is reached from the middle of the gap below it. -/
theorem one_le_round_iff {z : ℚ} (hz : 0 ≤ z) : 1 ≤ round z ↔ 1 - 2 ^ (-54 : ℤ) ≤ z := by
  have hone : round 1 = 1 := by exact_mod_cast round_natCast (n := 1) (by norm_num)
  have hbit : bitBelow 1 = -53 := by
    unfold bitBelow
    rw [Int.clog_one_right]
    rfl
  rcases hz.eq_or_lt with rfl | hpos
  · rw [round_zero]
    norm_num
  rw [le_round_iff hpos one_pos hone, Reaches, hbit]
  have heven : ⌊(1 : ℚ) / 2 ^ (-53 : ℤ)⌋ % 2 = 0 := by norm_num
  have hhalf : (2 : ℚ) ^ (-53 : ℤ) / 2 = 2 ^ (-54 : ℤ) := by norm_num
  rw [hhalf]
  constructor
  · rintro (h | ⟨h, -⟩)
    · exact h.le
    · exact h.le
  · intro h
    rcases h.lt_or_eq with hlt | heq
    · exact .inl hlt
    · exact .inr ⟨heq, heven⟩

/-- A number is rounded, multiplied and rounded again. The product reaches one when the number
reaches the least double whose exact product does. -/
theorem one_le_round_round_mul_iff {s : ℚ} (hx : 0 < x) (hs : 0 < s) :
    1 ≤ round (round x * s) ↔ Reaches (up ((1 - 2 ^ (-54 : ℤ)) / s)) x := by
  have hbound : (0 : ℚ) < (1 - 2 ^ (-54 : ℤ)) / s := div_pos (by norm_num) hs
  have hup := hbound.trans_le (le_up _)
  rw [one_le_round_iff (mul_nonneg (round_nonneg hx.le) hs.le), ← div_le_iff₀ hs,
    ← up_le_iff hbound (round_round x), le_round_iff hx hup (round_up hbound)]

end floats
