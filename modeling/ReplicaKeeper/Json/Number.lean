import ReplicaKeeper.Decimal.Notation
import ReplicaKeeper.Json.Document

/-!
# Reading numbers

A number without point and exponent is a whole number when it fits into 64 bits, signed or unsigned;
`-0` and every other number is floating point.  A floating point number is computed from its first
digits, as many as fit into 64 bits, by one multiplication or division with a power of ten.
-/

set_option autoImplicit false

namespace ReplicaKeeper

/-! ## Digits -/

/-- The value of a decimal digit. -/
def digitValue (c : Char) : Nat := c.toNat - '0'.toNat

/-- The number written by decimal digits. -/
def natOfDigits (digits : List Char) : Nat :=
  digits.foldl (fun n c => n * 10 + digitValue c) 0

/-- The longest front part of digits, and the rest. -/
def spanDigits (cs : List Char) : List Char × List Char :=
  (cs.takeWhile Char.isDigit, cs.dropWhile Char.isDigit)

namespace Json

/-! ## The parts of a number -/

/-- A number as it is written. -/
structure Numeral where
  negative : Bool
  whole : List Char
  /-- The digits after the point, if there is one. -/
  fraction : Option (List Char)
  /-- The sign and the digits of the exponent, if there is one. -/
  exponent : Option (Bool × List Char)
  deriving DecidableEq, Repr

/-- The whole part: a zero alone, or digits that do not start with one. -/
def Numeral.readWhole (cs : List Char) : Option (List Char × List Char) :=
  match spanDigits cs with
  | ([], _) => none
  | ('0' :: _ :: _, _) => none
  | (digits, rest) => some (digits, rest)

/-- The digits after a point. -/
def Numeral.readFraction : List Char → Option (Option (List Char) × List Char)
  | '.' :: cs =>
      match spanDigits cs with
      | ([], _) => none
      | (digits, rest) => some (some digits, rest)
  | cs => some (none, cs)

/-- The exponent after its letter; its sign is true for a negative exponent. -/
def Numeral.readExponent : List Char → Option (Option (Bool × List Char) × List Char)
  | c :: cs =>
      if c = 'e' || c = 'E' then
        let (negative, cs) :=
          match cs with
          | '+' :: cs => (false, cs)
          | '-' :: cs => (true, cs)
          | cs => (false, cs)
        match spanDigits cs with
        | ([], _) => none
        | (digits, rest) => some (some (negative, digits), rest)
      else some (none, c :: cs)
  | [] => some (none, [])

/-- Reads one number at the front of the text. -/
def Numeral.read (cs : List Char) : Option (Numeral × List Char) :=
  let (negative, cs) :=
    match cs with
    | '-' :: cs => (true, cs)
    | cs => (false, cs)
  match readWhole cs with
  | none => none
  | some (whole, cs) =>
      match readFraction cs with
      | none => none
      | some (fraction, cs) =>
          match readExponent cs with
          | none => none
          | some (exponent, cs) => some (⟨negative, whole, fraction, exponent⟩, cs)

/-! ## The value of a number -/

/-- The greatest unsigned whole number. -/
def maxUnsigned : Nat := 18446744073709551615

/-- The least signed whole number, without its sign. -/
def minSigned : Nat := 9223372036854775808

/-- The greatest exponent that is read. -/
def maxExponent : Nat := 2147483647

/-- The front digits that fit into 64 bits as a number, and the digits left over. -/
def fitDigits : Nat → List Char → Nat × List Char
  | n, [] => (n, [])
  | n, c :: cs =>
      if n * 10 + digitValue c ≤ maxUnsigned then fitDigits (n * 10 + digitValue c) cs
      else (n, c :: cs)

/-- The powers of ten that are floating point numbers have exponents up to this one. -/
def maxPowerOfTen : Nat := 308

/-- `significand * 10 ^ exponent` by one multiplication or division; an overflow has no value.
Below the least power of ten the division is done in parts, at most `fuel` of them. -/
def scale : Nat → Float → Int → Option Float
  | 0, x, _ => some x
  | fuel + 1, x, exponent =>
      if exponent.natAbs ≤ maxPowerOfTen then
        if 0 ≤ exponent then
          let y := x * Float.ofScientific 1 false exponent.natAbs
          if y.isInf then none else some y
        else some (x / Float.ofScientific 1 false exponent.natAbs)
      else if x == 0.0 then some x
      else if 0 ≤ exponent then none
      else scale fuel (x / Float.ofScientific 1 false maxPowerOfTen) (exponent + maxPowerOfTen)

/-- How many parts a division can have: the greatest number is exhausted by three. -/
def scaleParts : Nat := 8

/-- The floating point value of a number; an overflow has no value. -/
def Numeral.toFloat? (n : Numeral) : Option Float :=
  let fraction := n.fraction.getD []
  let (significand, leftWhole) := fitDigits 0 n.whole
  let (significand, leftFraction) := fitDigits significand fraction
  let shift : Int := (leftWhole.length : Int) - (fraction.length - leftFraction.length : Nat)
  let value : Option Float :=
    match n.exponent with
    | none => scale scaleParts significand.toUInt64.toFloat shift
    | some (negative, digits) =>
        let exponent := natOfDigits digits
        if maxExponent < exponent then
          if significand ≠ 0 && !negative then none else some 0.0
        else
          let total := if negative then shift - exponent else shift + exponent
          scale scaleParts significand.toUInt64.toFloat total
  value.map fun x => if n.negative then -x else x

/-- The number as a document; one that is too large is unreadable. -/
def Numeral.document (n : Numeral) : Document :=
  let magnitude := natOfDigits n.whole
  if n.fraction = none && n.exponent = none && n.negative && magnitude = 0 then
    .float .negativeZero
  else if n.fraction = none && n.exponent = none && n.negative && magnitude ≤ minSigned then
    .int (-(magnitude : Int))
  else if n.fraction = none && n.exponent = none && !n.negative && magnitude ≤ maxUnsigned then
    .int magnitude
  else
    match n.toFloat? with
    | some x => .float (.ofFloat x)
    | none => .unreadable

end Json

end ReplicaKeeper
