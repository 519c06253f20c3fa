-- The numbers of `f64` as the program uses them: a product is rounded to 53
-- significant bits, and a tie goes to the even one.
import Mathlib.Data.Nat.Log
import Mathlib.Tactic.Common
import Mathlib.Tactic.Ring
import Mathlib.Tactic.NormNum

namespace floats

/-- `n` to 53 significant bits. -/
def round53 (n : Nat) : Nat :=
  let unit := 2 ^ (Nat.log2 n - 52)
  let rest := n % unit
  if 2 * rest < unit ∨ (2 * rest = unit ∧ n / unit % 2 = 0) then n - rest else n - rest + unit

/-- `(n as f64 * x).ceil()` for the double `x` that is `mantissa / 2^53`. -/
def mulCeil (n mantissa : Nat) : Nat :=
  (round53 (round53 n * mantissa) + (2 ^ 53 - 1)) / 2 ^ 53

/-! ## How far a rounded number is from its own -/

/-- The distance of the numbers with 53 significant bits around `n`. -/
def unit (n : Nat) : Nat := 2 ^ (Nat.log2 n - 52)

theorem unit_pos (n : Nat) : 0 < unit n := Nat.two_pow_pos _

variable {n m : Nat}

theorem unit_dvd_unit (h : n ≤ m) : unit n ∣ unit m := by
  apply Nat.pow_dvd_pow
  have hlog : Nat.log2 n ≤ Nat.log2 m := by
    rw [Nat.log2_eq_log_two, Nat.log2_eq_log_two]
    exact Nat.log_mono_right h
  omega

/-- A number is rounded down or up to a multiple of the distance, and to a closest one. -/
theorem round53_cases (n : Nat) :
    (round53 n = unit n * (n / unit n) ∧
      (2 * (n % unit n) < unit n ∨ (2 * (n % unit n) = unit n ∧ n / unit n % 2 = 0))) ∨
    (round53 n = unit n * (n / unit n) + unit n ∧
      (unit n < 2 * (n % unit n) ∨ (2 * (n % unit n) = unit n ∧ n / unit n % 2 = 1))) := by
  have hdiv := Nat.div_add_mod n (unit n)
  by_cases h : 2 * (n % unit n) < unit n ∨ (2 * (n % unit n) = unit n ∧ n / unit n % 2 = 0)
  · left
    have hround : round53 n = n - n % unit n := if_pos h
    omega
  · right
    have hround : round53 n = n - n % unit n + unit n := if_neg h
    omega

theorem unit_dvd_round53 (n : Nat) : unit n ∣ round53 n := by
  rcases round53_cases n with ⟨heq, -⟩ | ⟨heq, -⟩
  · exact heq ▸ Nat.dvd_mul_right _ _
  · exact heq ▸ Nat.dvd_add (Nat.dvd_mul_right _ _) (Nat.dvd_refl _)

/-- A number is not rounded past a multiple of the distance. -/
theorem round53_le_of_dvd {k : Nat} (hdvd : unit n ∣ k) (hle : n ≤ k) : round53 n ≤ k := by
  obtain ⟨j, rfl⟩ := hdvd
  have hdiv := Nat.div_add_mod n (unit n)
  rcases round53_cases n with ⟨heq, -⟩ | ⟨heq, hup⟩
  · omega
  · have hpos := unit_pos n
    have hlt : n / unit n < j := by
      by_contra hge
      have hmul := Nat.mul_le_mul_left (unit n) (Nat.not_lt.mp hge)
      omega
    calc round53 n = unit n * (n / unit n + 1) := by rw [heq, Nat.mul_succ]
      _ ≤ unit n * j := Nat.mul_le_mul_left _ hlt

theorem round53_of_lt (h : n < 2 ^ 53) : round53 n = n := by
  have hunit : unit n = 1 := by
    have hlog : Nat.log2 n < 53 := by
      rcases Nat.eq_zero_or_pos n with rfl | hpos
      · decide
      · exact (Nat.log2_lt (by omega)).mpr h
    have hzero : Nat.log2 n - 52 = 0 := by omega
    rw [unit, hzero, Nat.pow_zero]
  have hcases := round53_cases n
  rw [hunit] at hcases
  omega

/-- The error is at most half the distance. -/
theorem le_round53_add_unit (n : Nat) : 2 * n ≤ 2 * round53 n + unit n := by
  have hdiv := Nat.div_add_mod n (unit n)
  have hlt := Nat.mod_lt n (unit_pos n)
  rcases round53_cases n with ⟨heq, hdown⟩ | ⟨heq, -⟩
  · omega
  · omega

/-- The error is at most the 2^53rd part. -/
theorem le_round53_add (n : Nat) : n * 2 ^ 53 ≤ round53 n * 2 ^ 53 + n := by
  by_cases h : n < 2 ^ 53
  · rw [round53_of_lt h]
    omega
  · have hne : n ≠ 0 := by omega
    have hlog : 52 ≤ Nat.log2 n := by
      rw [Nat.le_log2 hne]
      omega
    have hunit : unit n * 2 ^ 52 ≤ n := by
      rw [unit, ← Nat.pow_add, Nat.sub_add_cancel hlog]
      exact Nat.log2_self_le hne
    calc n * 2 ^ 53 = 2 * n * 2 ^ 52 := by ring
      _ ≤ (2 * round53 n + unit n) * 2 ^ 52 := Nat.mul_le_mul_right _ (le_round53_add_unit n)
      _ = round53 n * 2 ^ 53 + unit n * 2 ^ 52 := by ring
      _ ≤ round53 n * 2 ^ 53 + n := Nat.add_le_add_left hunit _

theorem round53_mono (h : n ≤ m) : round53 n ≤ round53 m := by
  by_cases hle : n ≤ round53 m
  · exact round53_le_of_dvd ((unit_dvd_unit h).trans (unit_dvd_round53 m)) hle
  · -- here `m` is rounded down to below `n`, and `n` is rounded down with it
    rw [Nat.not_le] at hle
    have hdiv := Nat.div_add_mod m (unit m)
    have hpos := unit_pos m
    have hdown : round53 m = unit m * (m / unit m) := by
      rcases round53_cases m with ⟨heq, -⟩ | ⟨heq, -⟩
      · exact heq
      · have hlt := Nat.mod_lt m hpos
        omega
    have hne : m ≠ 0 := by
      rintro rfl
      omega
    have hsame : unit n = unit m := by
      by_contra hdiff
      have hbelow : n < 2 ^ Nat.log2 m := by
        by_contra hge
        apply hdiff
        have hn : n ≠ 0 := by omega
        have hlog : Nat.log2 m ≤ Nat.log2 n := (Nat.le_log2 hn).mpr (Nat.not_lt.mp hge)
        have hlog' : Nat.log2 n ≤ Nat.log2 m := by
          rw [Nat.log2_eq_log_two, Nat.log2_eq_log_two]
          exact Nat.log_mono_right h
        rw [unit, unit, Nat.le_antisymm hlog hlog']
      have hpower : unit m ∣ 2 ^ Nat.log2 m := Nat.pow_dvd_pow _ (Nat.sub_le _ _)
      obtain ⟨j, hj⟩ := hpower
      have hj' : j ≤ m / unit m := by
        rw [Nat.le_div_iff_mul_le hpos, Nat.mul_comm, ← hj]
        exact Nat.log2_self_le hne
      have hmul := Nat.mul_le_mul_left (unit m) hj'
      omega
    have hquotient : n / unit m = m / unit m := by
      apply Nat.le_antisymm (Nat.div_le_div_right h)
      rw [Nat.le_div_iff_mul_le hpos, Nat.mul_comm]
      omega
    have hdiv' := Nat.div_add_mod n (unit m)
    rw [hquotient] at hdiv'
    have hn := round53_cases n
    have hm := round53_cases m
    rw [hsame, hquotient] at hn
    omega

/-! ## The ceiling of a product -/

theorem mulCeil_mono {x y : Nat} (h : x ≤ y) : mulCeil n x ≤ mulCeil n y := by
  have hround : round53 (round53 n * x) ≤ round53 (round53 n * y) :=
    round53_mono (Nat.mul_le_mul_left _ h)
  exact Nat.div_le_div_right (by omega)

/-- For a double that is at most `8 / b` units below the fraction `a / b`, the ceiling is the one of
the exact product as long as the number is small enough. -/
theorem mulCeil_eq_ceil {mantissa a b : Nat} (hb : 0 < b) (hone : mantissa ≤ 2 ^ 53)
    (hbelow : b * mantissa ≤ a * 2 ^ 53) (hnear : a * 2 ^ 53 ≤ b * mantissa + 8)
    (hsmall : n * (b + 8) < 2 ^ 53) : mulCeil n mantissa = (a * n + (b - 1)) / b := by
  have hn : n < 2 ^ 53 := by
    have hmul : n * 1 ≤ n * (b + 8) := Nat.mul_le_mul_left n (by omega)
    omega
  rw [mulCeil, round53_of_lt hn]
  set R := round53 (n * mantissa) with hR
  set K := (a * n + (b - 1)) / b with hK
  -- `K` is the exact ceiling
  have hKupper : a * n ≤ b * K := by
    have hlt := Nat.lt_mul_div_succ (a * n + (b - 1)) hb
    rw [← hK, Nat.mul_succ] at hlt
    omega
  have hKlower : b * K ≤ a * n + (b - 1) := Nat.mul_div_le _ _
  have hupper : n * mantissa ≤ K * 2 ^ 53 := by
    apply Nat.le_of_mul_le_mul_left _ hb
    calc b * (n * mantissa) = n * (b * mantissa) := by ring
      _ ≤ n * (a * 2 ^ 53) := Nat.mul_le_mul_left n hbelow
      _ = (a * n) * 2 ^ 53 := by ring
      _ ≤ (b * K) * 2 ^ 53 := Nat.mul_le_mul_right _ hKupper
      _ = b * (K * 2 ^ 53) := by ring
  have hRupper : R ≤ K * 2 ^ 53 := by
    apply round53_le_of_dvd _ hupper
    apply Nat.dvd_mul_left_of_dvd
    apply Nat.pow_dvd_pow
    rcases Nat.eq_zero_or_pos (n * mantissa) with hzero | hpos
    · simp [hzero]
    · have hlt : n * mantissa < 2 ^ 106 := by
        calc n * mantissa ≤ n * 2 ^ 53 := Nat.mul_le_mul_left n hone
          _ < 2 ^ 53 * 2 ^ 53 := Nat.mul_lt_mul_of_pos_right hn (by decide)
          _ = 2 ^ 106 := by norm_num
      have hlog := (Nat.log2_lt (by omega)).mpr hlt
      omega
  have hRlower : b * (n * mantissa) ≤ b * R + b * n := by
    rw [← Nat.mul_add]
    apply Nat.mul_le_mul_left
    have herror := le_round53_add (n * mantissa)
    have hle : n * mantissa ≤ n * 2 ^ 53 := Nat.mul_le_mul_left n hone
    rw [← hR] at herror
    omega
  have hproduct : (a * n) * 2 ^ 53 ≤ b * (n * mantissa) + 8 * n := by
    calc (a * n) * 2 ^ 53 = n * (a * 2 ^ 53) := by ring
      _ ≤ n * (b * mantissa + 8) := Nat.mul_le_mul_left n hnear
      _ = b * (n * mantissa) + 8 * n := by ring
  have hclose : b * (K * 2 ^ 53) < b * (R + 2 ^ 53) := by
    have hcomm : b * (K * 2 ^ 53) = (b * K) * 2 ^ 53 := by ring
    have hsum : n * (b + 8) = b * n + 8 * n := by ring
    have hexpand : b * (R + 2 ^ 53) = b * R + b * 2 ^ 53 := by ring
    omega
  have hlt := Nat.lt_of_mul_lt_mul_left hclose
  omega

end floats
