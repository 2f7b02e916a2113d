import ReplicaKeeper.Json.Basic

/-!
# The shortest decimal of a binary number

A finite binary number stands for an interval of reals: those that round to it.  Its shortest
decimal is the one with the fewest digits in that interval, and of several with equally many digits
the one nearest to the number.

The search is exact.  Numbers are fractions of natural numbers, and for one digit, two digits and
so on the two neighbours of the number on the grid of such decimals are tested against the interval.
-/

set_option autoImplicit false

namespace ReplicaKeeper

/-- A power of ten. -/
def tenTo (exponent : Nat) : Nat := Nat.pow 10 exponent

/-- A decimal: `significand * 10 ^ exponent`. -/
structure Decimal where
  significand : Nat
  exponent : Int
  deriving DecidableEq, Repr

namespace Decimal

/-! ## The interval of a binary number -/

/-- A positive number `value / unit` with the interval `low / unit` to `high / unit` of the reals
that round to it.  The ends belong to it when `closed`. -/
structure Interval where
  low : Nat
  value : Nat
  high : Nat
  unit : Nat
  closed : Bool
  deriving Repr

/-- The interval of `m * 2 ^ q`.  Below a power of two the neighbours lie half as far apart. -/
def Interval.ofBinary (m : Nat) (q : Int) (powerOfTwo : Bool) : Interval :=
  let up := (q - 2).toNat
  let down := (2 - q).toNat
  { low := (4 * m - if powerOfTwo then 1 else 2) <<< up
    value := 4 * m <<< up
    high := (4 * m + 2) <<< up
    unit := 1 <<< down
    closed := m % 2 = 0 }

/-- Whether `n * scaleUp / scaleDown` lies in the interval. -/
def Interval.holds (i : Interval) (n scaleUp scaleDown : Nat) : Bool :=
  let x := n * scaleUp * i.unit
  let low := i.low * scaleDown
  let high := i.high * scaleDown
  if i.closed then low ≤ x && x ≤ high else low < x && x < high

/-! ## The search -/

/-- How many decimal digits a number has. -/
def digitCount (n : Nat) : Nat := (Nat.toDigits 10 n).length

/-- The place of the decimal point: the least `d` with `value / unit < 10 ^ d`, for a positive
value. -/
def pointPlace (value unit : Nat) : Int :=
  let guess : Int := (digitCount value : Int) - digitCount unit
  if value * tenTo (-guess).toNat < unit * tenTo guess.toNat then guess else guess + 1

/-- The decimal of `count` digits in the interval, if there is one: the nearer of the two neighbours
of the value, and the even one when both are equally near. -/
def Interval.withDigits (i : Interval) (place : Int) (count : Nat) : Option Decimal :=
  let exponent := place - count
  let up := tenTo exponent.toNat
  let down := tenTo (-exponent).toNat
  let below := i.value * down / (i.unit * up)
  let remainder := i.value * down % (i.unit * up)
  let above := below + 1
  match i.holds below up down, i.holds above up down with
  | false, false => none
  | true, false => some ⟨below, exponent⟩
  | false, true => some ⟨above, exponent⟩
  | true, true =>
      if 2 * remainder < i.unit * up then some ⟨below, exponent⟩
      else if i.unit * up < 2 * remainder then some ⟨above, exponent⟩
      else if below % 2 = 0 then some ⟨below, exponent⟩
      else some ⟨above, exponent⟩

/-- Seventeen digits tell any two binary numbers apart. -/
def maxDigits : Nat := 17

/-- Removes trailing zeros of a decimal, at most `fuel` of them. -/
def trim : Nat → Decimal → Decimal
  | 0, d => d
  | fuel + 1, d =>
      if d.significand ≠ 0 ∧ d.significand % 10 = 0 then
        trim fuel ⟨d.significand / 10, d.exponent + 1⟩
      else d

/-- The decimal with the fewest digits in the interval. -/
def Interval.shortest (i : Interval) : Decimal :=
  let place := pointPlace i.value i.unit
  match ((List.range maxDigits).map (· + 1)).findSome? (i.withDigits place) with
  | some d => trim maxDigits d
  | none => ⟨0, 0⟩

end Decimal

/-! ## Binary numbers of 64 bits -/

namespace Binary64

def isNegative (x : Binary64) : Bool := x.bits >>> 63 = 1

/-- The eleven bits of the exponent. -/
def exponentField (x : Binary64) : Nat := (x.bits >>> 52).toNat % 2048

/-- How many fractions there are: they have 52 bits. -/
def fractions : Nat := 1 <<< 52

/-- The bits after the binary point. -/
def fractionField (x : Binary64) : Nat := x.bits.toNat % fractions

/-- The interval of the absolute value of a finite number that is not zero. -/
def interval (x : Binary64) : Decimal.Interval :=
  let fraction := x.fractionField
  match x.exponentField with
  | 0 => .ofBinary fraction (-1074) false
  | e + 1 => .ofBinary (fractions + fraction) (e + 1 - 1075) (fraction = 0 && e ≠ 0)

/-- The shortest decimal of the absolute value; zero is `0 * 10 ^ 0`. -/
def shortest (x : Binary64) : Decimal :=
  if x.isZero then ⟨0, 0⟩ else x.interval.shortest

end Binary64

end ReplicaKeeper
