-- Decimal numbers and the doubles that are read from them. A reader that rounds
-- the digits and the power of ten before it divides may miss the nearest double.
import Pulse.Doubles

namespace floats

/-- The number `significand * 10 ^ exponent`. -/
structure Decimal where
  significand : Nat
  exponent : ℤ
deriving DecidableEq

/-- A power of ten of the table. -/
def pow10 (n : Nat) : ℚ := round (10 ^ n)

namespace Decimal

/-- The double of a decimal number, with one rounding for each of three steps: the digits, the power
and their product or quotient. There is none when it is too large. -/
def read (d : Decimal) : Option ℚ :=
  let f := round d.significand
  match d.exponent with
  | .ofNat n =>
    -- the table ends at `10 ^ 308`
    if 308 < n then if f = 0 then some 0 else none
    else
      let product := round (f * pow10 n)
      if 2 ^ 1024 ≤ product then none else some product
  | .negSucc n =>
    -- a loop divides by the last power of the table while the exponent is beyond it
    let scaled := (fun f => round (f / pow10 308))^[n / 308] f
    some (round (scaled / pow10 (n % 308 + 1)))

/-- The decimal with the fewest places, at least one, that is rounded to `x`. -/
def shortest (x : ℚ) : Decimal :=
  let digits (n : Nat) := nearest (x * 10 ^ (n + 1))
  let places := ((List.range 16).find? fun n => round (digits n / 10 ^ (n + 1)) = x).getD 16
  ⟨(digits places).toNat, .negSucc places⟩

/-- The text of a decimal with a fraction. -/
def text (d : Decimal) : String :=
  let unit := 10 ^ d.exponent.natAbs
  toString (d.significand / unit) ++ "." ++ String.ofList
    ((toString (d.significand % unit)).toList.leftpad d.exponent.natAbs '0')

end Decimal

end floats
