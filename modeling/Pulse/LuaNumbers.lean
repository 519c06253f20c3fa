-- Numbers as a Redis script keeps them. Lua 5.1 prints a number with
-- `%.14g`: 14 digits in full, and a larger number with a mantissa of 14
-- digits and an exponent. A script reads both forms back, an integer
-- parser reads only the first.
import Pulse.Strings

namespace lua

/-- The largest integer up to which the doubles of Lua are exact: 2^53 - 1. -/
def MAX_EXACT : Nat := 9007199254740991

/-- The first integer that `%.14g` does not print in full. -/
def FIRST_SCIENTIFIC : Nat := 100000000000000

/-- The text of a number. -/
inductive Text
  /-- All digits of the number. -/
  | decimal (n : Nat)
  /-- A mantissa and an exponent, with the value `n`. -/
  | scientific (n : Nat)
deriving DecidableEq, Repr

/-- The weight of the last digit that `%.14g` keeps. The exact integers have 16
digits at most, so it drops two digits at most. -/
def lastDigit (n : Nat) : Nat :=
  if n < FIRST_SCIENTIFIC then 1 else if n < 10 * FIRST_SCIENTIFIC then 10 else 100

/-- `n` to 14 digits. A tie goes to the even digit. -/
def rounded (n : Nat) : Nat :=
  let d := lastDigit n
  if 2 * (n % d) < d ∨ (2 * (n % d) = d ∧ n / d % 2 = 0) then n / d * d else (n / d + 1) * d

/-- The characters of a text. The exponent of an exact integer has two digits. -/
def Text.render : Text → String
  | .decimal n => toString n
  | .scientific n =>
    let digits := (toString n).toList
    let mantissa := ((digits.take 14).reverse.dropWhile (· = '0')).reverse
    let fraction := if mantissa.length ≤ 1 then [] else '.' :: mantissa.drop 1
    String.ofList (mantissa.take 1 ++ fraction) ++ "e+" ++ toString (digits.length - 1)

/-- `tostring` of an integer. -/
def tostring (n : Nat) : Text :=
  if n < FIRST_SCIENTIFIC then .decimal n else .scientific (rounded n)

/-- `tonumber` of a text that `tostring` or `HINCRBY` wrote. -/
def tonumber : Text → Nat
  | .decimal n => n
  | .scientific n => n

/-- An integer parser with an upper limit, as `str::parse` of an unsigned type. -/
def parse (limit : Nat) : Text → Option Nat
  | .decimal n => if n ≤ limit then some n else none
  | .scientific _ => none

/-! ## Reading back -/

variable {n : Nat}

@[simp]
theorem tostring_of_lt (h : n < FIRST_SCIENTIFIC) : tostring n = .decimal n := by
  simp [tostring, h]

@[simp]
theorem tonumber_decimal (n : Nat) : tonumber (.decimal n) = n := rfl

theorem tonumber_tostring (h : n < FIRST_SCIENTIFIC) : tonumber (tostring n) = n := by
  simp [h]

theorem parse_decimal {limit : Nat} (h : n ≤ limit) : parse limit (.decimal n) = some n := by
  simp [parse, h]

theorem tonumber_tostring_eq (n : Nat) :
    tonumber (tostring n) = if n < FIRST_SCIENTIFIC then n else rounded n := by
  unfold tostring
  split <;> rfl

/-- The rounding adds 50 at most. -/
theorem tonumber_tostring_le (n : Nat) : tonumber (tostring n) ≤ n + 50 := by
  rw [tonumber_tostring_eq]
  split
  · omega
  · have hd : lastDigit n ≤ 100 ∧ 0 < lastDigit n := by
      unfold lastDigit
      split
      · omega
      · split <;> omega
    simp only [rounded]
    generalize lastDigit n = d at hd
    have hn := Nat.div_add_mod n d
    rw [Nat.mul_comm] at hn
    split
    · omega
    · have hmul : (n / d + 1) * d = n / d * d + d := by rw [Nat.add_mul, Nat.one_mul]
      omega

/-- A number that is not printed in full is not rounded to one that is. -/
theorem le_tonumber_tostring (h : FIRST_SCIENTIFIC ≤ n) :
    FIRST_SCIENTIFIC ≤ tonumber (tostring n) := by
  rw [tonumber_tostring_eq, if_neg (Nat.not_lt.mpr h)]
  have hle : FIRST_SCIENTIFIC ≤ n / lastDigit n * lastDigit n := by
    unfold lastDigit FIRST_SCIENTIFIC at *
    split
    · omega
    · split <;> omega
  simp only [rounded]
  generalize hd : lastDigit n = d at hle
  split
  · exact hle
  · have hmul : (n / d + 1) * d = n / d * d + d := by rw [Nat.add_mul, Nat.one_mul]
    omega

/-- A number that was read back is printed as it is. -/
theorem tonumber_tostring_again (n : Nat) :
    tonumber (tostring (tonumber (tostring n))) = tonumber (tostring n) := by
  by_cases hn : n < FIRST_SCIENTIFIC
  · rw [tonumber_tostring hn, tonumber_tostring hn]
  have hfirst := le_tonumber_tostring (Nat.not_lt.mp hn)
  rw [tonumber_tostring_eq (tonumber (tostring n)), if_neg (Nat.not_lt.mpr hfirst)]
  rw [tonumber_tostring_eq, if_neg hn] at hfirst ⊢
  -- the rounded number has the weight of its own last digit as a factor
  have hfactor : rounded n % lastDigit (rounded n) = 0 := by
    have hweight : (lastDigit n = 10 ∧ n < 10 * FIRST_SCIENTIFIC) ∨
        (lastDigit n = 100 ∧ 10 * FIRST_SCIENTIFIC ≤ n) := by
      unfold lastDigit
      rw [if_neg hn]
      split <;> omega
    have hvalue : rounded n = n / lastDigit n * lastDigit n ∨
        rounded n = (n / lastDigit n + 1) * lastDigit n := by
      unfold rounded
      dsimp only
      split
      · exact .inl rfl
      · exact .inr rfl
    unfold FIRST_SCIENTIFIC at hweight hfirst
    unfold lastDigit FIRST_SCIENTIFIC at ⊢
    rcases hweight with ⟨hd, hlt⟩ | ⟨hd, hle⟩
    · rw [hd] at hvalue
      split
      · omega
      · split <;> omega
    · rw [hd] at hvalue
      split
      · omega
      · split <;> omega
  generalize rounded n = m at hfactor hfirst
  have hpos : 0 < lastDigit m := by
    unfold lastDigit
    split
    · omega
    · split <;> omega
  unfold rounded
  dsimp only
  rw [hfactor, Nat.mul_zero, if_pos (.inl hpos)]
  exact Nat.div_mul_cancel (Nat.dvd_of_mod_eq_zero hfactor)

/-- A text in scientific notation is never an integer for the parser. -/
theorem parse_tostring_of_le (limit : Nat) (h : FIRST_SCIENTIFIC ≤ n) :
    parse limit (tostring n) = none := by
  simp [tostring, Nat.not_lt.mpr h, parse]

/-! ## The length of a text -/

theorem rounded_le (n : Nat) (h : FIRST_SCIENTIFIC ≤ n) : rounded n ≤ n + 50 := by
  have hle := tonumber_tostring_le n
  rwa [tonumber_tostring_eq, if_neg (Nat.not_lt.mpr h)] at hle

/-- A mantissa of 14 digits with a point, and an exponent of two digits. -/
theorem len_render_scientific (h : n < 10 ^ 18) : strings.len (Text.scientific n).render ≤ 19 := by
  have hdigits : (toString n).toList.length ≤ 18 := by
    rw [Nat.toString_eq_ofList_toDigits, String.toList_ofList]
    exact (Nat.length_toDigits_le_iff (by decide) (by decide)).mpr h
  have hdigit : ∀ c ∈ (toString n).toList, c.toNat < 128 := by
    intro c hc
    rw [Nat.toString_eq_ofList_toDigits, String.toList_ofList] at hc
    exact strings.isDigit_ascii (Nat.isDigit_of_mem_toDigits (by decide) (by decide) hc)
  have hexponent : strings.len (toString ((toString n).toList.length - 1)) ≤ 2 :=
    strings.len_toString_le (by decide) (by omega)
  unfold Text.render
  dsimp only
  set mantissa := (((toString n).toList.take 14).reverse.dropWhile (· = '0')).reverse with hmantissa
  have hlength : mantissa.length ≤ 14 := by
    rw [hmantissa, List.length_reverse]
    refine Nat.le_trans (List.dropWhile_sublist _).length_le ?_
    rw [List.length_reverse, List.length_take]
    omega
  have hascii : ∀ c ∈ mantissa, c.toNat < 128 := by
    intro c hc
    rw [hmantissa, List.mem_reverse] at hc
    have hmem := (List.dropWhile_sublist _).mem hc
    exact hdigit c (List.mem_of_mem_take (List.mem_reverse.mp hmem))
  have hnumber : strings.len (String.ofList (mantissa.take 1 ++
      if mantissa.length ≤ 1 then [] else '.' :: mantissa.drop 1)) ≤ 15 := by
    rw [strings.len_ascii]
    · rw [List.length_append, List.length_take]
      split
      · rw [List.length_nil]
        omega
      · rw [List.length_cons, List.length_drop]
        omega
    · intro c hc
      rcases List.mem_append.mp hc with hfirst | hrest
      · exact hascii c (List.mem_of_mem_take hfirst)
      · split at hrest
        · cases hrest
        · rcases List.mem_cons.mp hrest with rfl | hdrop
          · decide
          · exact hascii c (List.mem_of_mem_drop hdrop)
  rw [strings.len_append, strings.len_append]
  have hplus : strings.len "e+" = 2 := by decide
  omega

theorem len_render_le (h : n < 10 ^ 17) : strings.len (tostring n).render ≤ 19 := by
  unfold tostring
  split
  · rename_i hfull
    have hle : strings.len (toString n) ≤ 14 := strings.len_toString_le (by decide) hfull
    exact Nat.le_trans hle (by decide)
  · rename_i hlarge
    apply len_render_scientific
    have hle := rounded_le n (Nat.not_lt.mp hlarge)
    omega

end lua
