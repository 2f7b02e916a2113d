import ReplicaKeeper.Time.Calendar

/-!
# Moments

A moment is a number of seconds since the start of 1970 in universal time, with a fraction in
nanoseconds.  A leap second has a fraction of one second or more, so that it follows the last
regular second of its minute.

Moments are written with whole seconds in universal time.
-/

set_option autoImplicit false

namespace ReplicaKeeper

/-- A moment. -/
structure Time where
  seconds : Int
  nanos : Nat
  deriving DecidableEq, Repr, Inhabited

namespace Time

/-- The number of the day on which seconds start to count. -/
def epochDay : Int := 719162

def secondsPerDay : Nat := 86400

/-- How many nanoseconds a second has. -/
def nanosPerSecond : Nat := 1000000000

/-- The seconds from the epoch to a time of day. -/
def secondsAt (date : Date) (hour minute second : Nat) : Int :=
  (date.dayNumber - epochDay) * secondsPerDay + (hour * 3600 + minute * 60 + second : Nat)

/-- The moment without its fraction.  A leap second stays one. -/
def truncate (time : Time) : Time :=
  ⟨time.seconds, if time.nanos < nanosPerSecond then 0 else nanosPerSecond⟩

/-! ## Writing -/

/-- A number with at least `width` digits. -/
def padded (width n : Nat) : String :=
  let digits := Nat.toDigits 10 n
  String.ofList (List.replicate (width - digits.length) '0' ++ digits)

/-- A year of four digits; every other year has a sign and at least four digits. -/
def yearText (year : Int) : String :=
  if 0 ≤ year ∧ year ≤ 9999 then padded 4 year.toNat
  else (if year < 0 then "-" else "+") ++ padded 4 year.natAbs

/-- The text of a moment, as in `2020-01-31T23:59:59Z`. -/
def text (time : Time) : String :=
  let date := Date.ofDayNumber (time.seconds / secondsPerDay + epochDay)
  let second := (time.seconds % secondsPerDay).toNat
  let leap := if time.nanos < nanosPerSecond then 0 else 1
  yearText date.year ++ "-" ++ padded 2 date.month ++ "-" ++ padded 2 date.day ++ "T" ++
    padded 2 (second / 3600) ++ ":" ++ padded 2 (second / 60 % 60) ++ ":" ++
    padded 2 (second % 60 + leap) ++ "Z"

end Time

end ReplicaKeeper
