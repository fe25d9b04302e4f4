import Bufr.Decimal.Rescale
import Bufr.Text.Padded

/-!
Numbers as binary fractions and their exact decimal text with a given number of places.
-/

namespace Bufr.Decimal

/-- The nearest integer to a quotient, a tie to the even one. -/
def roundQuotient (numerator denominator : Nat) : Nat :=
  let quotient := numerator / denominator
  let twice := 2 * (numerator % denominator)
  if denominator < twice ∨ (twice = denominator ∧ quotient % 2 = 1) then quotient + 1 else quotient

def parts? (x : Float) : Option (Bool × Nat × Int) :=
  let bits := x.toBits.toNat
  let negative := bits / 2 ^ 63 == 1
  let exponent : Nat := bits / 2 ^ 52 % 2 ^ 11
  let fraction : Nat := bits % 2 ^ 52
  if exponent == 2047 then none
  else if exponent == 0 then some (negative, fraction, -1074)
  else some (negative, fraction + 2 ^ 52, (exponent : Int) - 1075)

def pointed (n places : Nat) : String :=
  if places == 0 then toString n
  else toString (n / 10 ^ places) ++ "." ++ Text.zeroPadded places (n % 10 ^ places)

/-- Exact decimal text, rounded to `places` places. The sign stays on a number that rounds to zero. -/
def placesText (x : Float) (places : Nat) : String :=
  match parts? x with
  | some (negative, mantissa, exponent) =>
    let scaled := mantissa * 10 ^ places
    let rounded :=
      if 0 ≤ exponent then scaled * 2 ^ exponent.toNat
      else roundQuotient scaled (2 ^ exponent.natAbs)
    (if negative then "-" else "") ++ pointed rounded places
  | none => if x.isNaN then "NaN" else if x < 0 then "-inf" else "inf"

def squarings (base product : Float) (exponent : Nat) : Float :=
  let product := if exponent % 2 = 1 then product * base else product
  if exponent < 2 then product else squarings (base * base) product (exponent / 2)
termination_by exponent

def power (base : Float) (exponent : Int) : Float :=
  let product := squarings base 1 exponent.natAbs
  if exponent < 0 then 1 / product else product

end Bufr.Decimal
