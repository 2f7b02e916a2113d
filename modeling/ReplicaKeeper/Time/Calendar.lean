/-!
# The calendar

Days of the Gregorian calendar, extended to all years, and their numbers.  Day 0 is 1 January of the
year 1.
-/

set_option autoImplicit false

namespace ReplicaKeeper

/-- A day by its year, month and place in the month; month and day count from 1. -/
structure Date where
  year : Int
  month : Nat
  day : Nat
  deriving DecidableEq, Repr

namespace Calendar

/-- Every fourth year is a leap year, except for three of four that end a century. -/
def isLeap (year : Int) : Bool := year % 4 = 0 && (year % 100 ≠ 0 || year % 400 = 0)

/-- How many days come before a year. -/
def daysBeforeYear (year : Int) : Int :=
  365 * (year - 1) + (year - 1) / 4 - (year - 1) / 100 + (year - 1) / 400

/-- The lengths of the twelve months. -/
def monthLengths (leap : Bool) : List Nat :=
  [31, if leap then 29 else 28, 31, 30, 31, 30, 31, 31, 30, 31, 30, 31]

/-- How many days of the year come before a month. -/
def daysBeforeMonth (leap : Bool) (month : Nat) : Nat :=
  ((monthLengths leap).take (month - 1)).foldl (· + ·) 0

/-- The month and day of a place in the year, which counts from 0: the months are passed one by
one, and `month` is the first of them. -/
def monthAndDay (month : Nat) : List Nat → Nat → Nat × Nat
  | [], place => (month, place + 1)
  | length :: lengths, place =>
      if place < length then (month, place + 1)
      else monthAndDay (month + 1) lengths (place - length)

/-- The year of a day: 400 years have 146097 days, and the estimate from that is off by one at
most. -/
def yearOfDay (number : Int) : Int :=
  let estimate := number * 400 / 146097 + 1
  if number < daysBeforeYear estimate then estimate - 1
  else if daysBeforeYear (estimate + 1) ≤ number then estimate + 1
  else estimate

theorem daysBeforeYear_succ (year : Int) :
    daysBeforeYear (year + 1) = daysBeforeYear year + if isLeap year then 366 else 365 := by
  unfold daysBeforeYear isLeap
  split <;> rename_i h <;> simp at h <;> omega

/-- A day lies in its year. -/
theorem daysBeforeYear_yearOfDay (number : Int) :
    daysBeforeYear (yearOfDay number) ≤ number ∧
      number < daysBeforeYear (yearOfDay number + 1) := by
  unfold yearOfDay
  dsimp only
  split
  · unfold daysBeforeYear at *
    omega
  · split <;> unfold daysBeforeYear at * <;> omega

end Calendar

namespace Date

open Calendar

/-- Whether there is such a day. -/
def isValid (date : Date) : Bool :=
  match (monthLengths (isLeap date.year))[date.month - 1]? with
  | some length => 1 ≤ date.month && 1 ≤ date.day && date.day ≤ length
  | none => false

/-- The number of a day. -/
def dayNumber (date : Date) : Int :=
  daysBeforeYear date.year + daysBeforeMonth (isLeap date.year) date.month + (date.day - 1 : Nat)

/-- The day with a number. -/
def ofDayNumber (number : Int) : Date :=
  let year := yearOfDay number
  let (month, day) :=
    monthAndDay 1 (monthLengths (isLeap year)) (number - daysBeforeYear year).toNat
  ⟨year, month, day⟩

end Date

end ReplicaKeeper
