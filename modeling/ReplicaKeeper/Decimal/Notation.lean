import ReplicaKeeper.Decimal.Shortest

/-!
# Floating point numbers as text

A number is written with its shortest decimal digits: positionally where that takes few zeros, and
else with an exponent.  Documents and messages write numbers in the same way.
-/

set_option autoImplicit false

namespace ReplicaKeeper

/-! ## Placing the point -/

namespace Decimal

/-- The digits of the significand. -/
def digits (d : Decimal) : String := String.ofList (Nat.toDigits 10 d.significand)

def zeros (n : Nat) : String := String.ofList (List.replicate n '0')

/-- Positional notation, with at least one digit on either side of the point. -/
def positional (d : Decimal) : String :=
  let count : Int := digitCount d.significand
  let place := count + d.exponent
  if 0 ≤ d.exponent then d.digits ++ zeros d.exponent.toNat ++ ".0"
  else if 0 < place then
    String.ofList (d.digits.toList.take place.toNat) ++ "." ++
      String.ofList (d.digits.toList.drop place.toNat)
  else "0." ++ zeros (-place).toNat ++ d.digits

/-- One digit before the point, and the exponent with its sign after an `e`.  A single digit has no
point. -/
def scientific (d : Decimal) : String :=
  let place : Int := digitCount d.significand + d.exponent
  let mantissa :=
    match d.digits.toList with
    | [] => ""
    | [digit] => digit.toString
    | digit :: rest => digit.toString ++ "." ++ String.ofList rest
  mantissa ++ (if 0 < place then "e+" else "e") ++ toString (place - 1)

end Decimal

/-! ## The notation -/

/-- Where positional notation ends: it is used when the point stands after more than `least` and at
most `greatest` digits. -/
structure PositionalRange where
  least : Int
  greatest : Int

/-- Numbers from `0.00001` to below `10 ^ 16` are written positionally. -/
def positionalRange : PositionalRange := ⟨-5, 16⟩

namespace Binary64

def sign (x : Binary64) : String := if x.isNegative then "-" else ""

/-- The number as text: a point or an exponent is always written. -/
def text (x : Binary64) : String :=
  let d := x.shortest
  let place : Int := Decimal.digitCount d.significand + d.exponent
  if positionalRange.least < place ∧ place ≤ positionalRange.greatest then x.sign ++ d.positional
  else x.sign ++ d.scientific

end Binary64

end ReplicaKeeper
