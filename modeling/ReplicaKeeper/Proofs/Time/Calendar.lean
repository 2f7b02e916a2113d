import ReplicaKeeper.Time.Basic

/-!
# Days and their numbers

Every number is that of a day: `Date.ofDayNumber` gives a day of the calendar, and the number of
that day is the number it was made from, `dayNumber_ofDayNumber`.
-/

set_option autoImplicit false

namespace ReplicaKeeper

namespace Calendar

/-! ## Years -/

theorem daysBeforeYear_le {left right : Int} (h : left ≤ right) :
    daysBeforeYear left ≤ daysBeforeYear right := by
  unfold daysBeforeYear
  omega

/-- The year of a day is counted by the days before it. -/
theorem le_yearOfDay_iff (year number : Int) :
    year ≤ yearOfDay number ↔ daysBeforeYear year ≤ number := by
  obtain ⟨hle, hlt⟩ := daysBeforeYear_yearOfDay number
  constructor
  · intro h
    have hbefore := daysBeforeYear_le h
    omega
  · intro h
    apply Classical.byContradiction
    intro hyear
    have hnext := daysBeforeYear_le (show yearOfDay number + 1 ≤ year by omega)
    omega

/-! ## Months -/

/-- How many days some months have together. -/
def totalOf : List Nat → Nat
  | [] => 0
  | length :: lengths => length + totalOf lengths

theorem totalOf_monthLengths (leap : Bool) :
    totalOf (monthLengths leap) = if leap then 366 else 365 := by
  cases leap <;> rfl

theorem foldl_add_eq_totalOf (days : Nat) (lengths : List Nat) :
    lengths.foldl (· + ·) days = days + totalOf lengths := by
  induction lengths generalizing days with
  | nil => rfl
  | cons length lengths ih =>
      rw [List.foldl_cons, ih, totalOf]
      omega

theorem le_of_mem_monthLengths {leap : Bool} {length : Nat} (h : length ∈ monthLengths leap) :
    length ≤ 31 := by
  have hall : ∀ leap, ∀ length ∈ monthLengths leap, length ≤ 31 := by decide
  exact hall leap length h

theorem daysBeforeMonth_eq_totalOf (leap : Bool) (month : Nat) :
    daysBeforeMonth leap month = totalOf ((monthLengths leap).take (month - 1)) := by
  unfold daysBeforeMonth
  rw [foldl_add_eq_totalOf, Nat.zero_add]

/-- The months are passed until the place lies in one of them. -/
theorem monthAndDay_spec (lengths : List Nat) (month place : Nat) (h : place < totalOf lengths) :
    ∃ i length, lengths[i]? = some length ∧
      monthAndDay month lengths place = (month + i, place - totalOf (lengths.take i) + 1) ∧
      totalOf (lengths.take i) ≤ place ∧ place < totalOf (lengths.take i) + length := by
  induction lengths generalizing month place with
  | nil => cases h
  | cons length lengths ih =>
      rw [totalOf] at h
      by_cases hlt : place < length
      · exact ⟨0, length, rfl, by simp [monthAndDay, hlt, totalOf], Nat.zero_le _,
          by simpa [totalOf] using hlt⟩
      · obtain ⟨i, last, hlast, hmonth, hle, hplace⟩ := ih (month + 1) (place - length) (by omega)
        refine ⟨i + 1, last, hlast, ?_, ?_, ?_⟩
        · rw [monthAndDay, if_neg hlt, hmonth, List.take_succ_cons, totalOf]
          exact Prod.ext (by omega) (by dsimp only; omega)
        · rw [List.take_succ_cons, totalOf]
          omega
        · rw [List.take_succ_cons, totalOf]
          omega

end Calendar

namespace Date

open Calendar

/-- The day with a number is a day of the calendar, and it has this number. -/
theorem ofDayNumber_spec (number : Int) :
    let date := ofDayNumber number
    date.year = yearOfDay number ∧ date.isValid = true ∧ date.dayNumber = number ∧
      1 ≤ date.month ∧ date.month ≤ 12 ∧ 1 ≤ date.day ∧ date.day ≤ 31 := by
  obtain ⟨hle, hlt⟩ := daysBeforeYear_yearOfDay number
  have hyear : (number - daysBeforeYear (yearOfDay number)).toNat <
      totalOf (monthLengths (isLeap (yearOfDay number))) := by
    rw [daysBeforeYear_succ] at hlt
    rw [totalOf_monthLengths]
    split at hlt <;> split <;> omega
  obtain ⟨i, length, hlength, hmonth, hfirst, hlast⟩ :=
    monthAndDay_spec (monthLengths (isLeap (yearOfDay number))) 1 _ hyear
  have hi : i < 12 := by
    have hbound := (List.getElem?_eq_some_iff.1 hlength).1
    simpa [monthLengths] using hbound
  have hlong : length ≤ 31 := le_of_mem_monthLengths (List.mem_of_getElem? hlength)
  have hdate : ofDayNumber number = ⟨yearOfDay number, 1 + i,
      (number - daysBeforeYear (yearOfDay number)).toNat -
        totalOf ((monthLengths (isLeap (yearOfDay number))).take i) + 1⟩ := by
    unfold ofDayNumber
    simp only [hmonth]
  have hplace : 1 + i - 1 = i := by omega
  rw [hdate]
  refine ⟨rfl, ?_, ?_, ?_⟩
  · unfold isValid
    simp only [hplace, hlength]
    simp only [Bool.and_eq_true, decide_eq_true_eq]
    omega
  · unfold dayNumber
    simp only [daysBeforeMonth_eq_totalOf, hplace]
    omega
  · dsimp only
    omega

theorem dayNumber_ofDayNumber (number : Int) : (ofDayNumber number).dayNumber = number :=
  (ofDayNumber_spec number).2.2.1

end Date

end ReplicaKeeper
