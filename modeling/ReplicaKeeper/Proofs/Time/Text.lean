import ReplicaKeeper.Proofs.Time.Calendar
import ReplicaKeeper.Time.Reader

/-!
# Moments are read as they are written

The text of a moment names a whole second, `Time.wholeSecond`.  Reading the text gives that second
if it lies within the calendar, and fails if it does not: `parse_text`.  The second has the text
that it was read from, `text_wholeSecond`, so that reading and writing once more change nothing.
-/

set_option autoImplicit false

namespace ReplicaKeeper

/-! ## Digits -/

theorem natOfDigits_eq (digits : List Char) : natOfDigits digits = Nat.ofDigitChars 10 digits 0 := by
  rw [Nat.ofDigitChars_eq_foldl, natOfDigits]
  congr 1
  funext n c
  rw [digitValue, Nat.mul_comm]

namespace Time

/-- The digits of a number, with zeros in front up to a width. -/
def paddedDigits (width n : Nat) : List Char :=
  List.replicate (width - (Nat.toDigits 10 n).length) '0' ++ Nat.toDigits 10 n

theorem toList_padded (width n : Nat) : (padded width n).toList = paddedDigits width n := by
  simp [padded, paddedDigits]

theorem isDigit_of_mem_paddedDigits {width n : Nat} {c : Char} (h : c ∈ paddedDigits width n) :
    c.isDigit = true := by
  rcases List.mem_append.1 h with hzero | hdigit
  · rw [List.eq_of_mem_replicate hzero]
    rfl
  · exact Nat.isDigit_of_mem_toDigits (by decide) (by decide) hdigit

theorem paddedDigits_ne_nil (width n : Nat) : paddedDigits width n ≠ [] := by
  simp [paddedDigits, Nat.toDigits_ne_nil]

/-- A number does not start with a character that is no digit. -/
theorem paddedDigits_append_ne {width n : Nat} {c : Char} {rest following : List Char}
    (h : c.isDigit = false) : paddedDigits width n ++ following ≠ c :: rest := by
  intro heq
  have hmem : c ∈ paddedDigits width n := by
    cases hdigits : paddedDigits width n with
    | nil => exact absurd hdigits (paddedDigits_ne_nil width n)
    | cons d digits =>
        rw [hdigits, List.cons_append] at heq
        rw [(List.cons.inj heq).1]
        exact List.mem_cons_self ..
  rw [isDigit_of_mem_paddedDigits hmem] at h
  cases h

theorem natOfDigits_paddedDigits (width n : Nat) : natOfDigits (paddedDigits width n) = n := by
  rw [natOfDigits_eq, paddedDigits, Nat.ofDigitChars_append, Nat.ofDigitChars_replicate_zero,
    Nat.mul_zero, Nat.ofDigitChars_ten_toDigits]

theorem length_paddedDigits {width n : Nat} (h : (Nat.toDigits 10 n).length ≤ width) :
    (paddedDigits width n).length = width := by
  simp only [paddedDigits, List.length_append, List.length_replicate]
  omega

theorem isBlank_of_isDigit {c : Char} (h : c.isDigit = true) : Text.isBlank c = false := by
  have hall : ∀ n < 58, 48 ≤ n → Text.isBlank (Char.ofNat n) = false := by decide
  have hbounds : 48 ≤ c.toNat ∧ c.toNat ≤ 57 := by
    unfold Char.isDigit at h
    rw [Bool.and_eq_true, decide_eq_true_eq, decide_eq_true_eq] at h
    exact h
  have hblank := hall c.toNat (by omega) hbounds.1
  rwa [Char.ofNat_toNat] at hblank

/-! ## Reading what was written -/

namespace Reader

variable {α β : Type}

/-- A reader that has read something goes on with the rest of the text. -/
theorem run_bind_of_ok {reader : Reader α} {next : α → Reader β} {cs rest : List Char} {x : α}
    (h : reader.run cs = .ok (x, rest)) : (reader >>= next).run cs = (next x).run rest := by
  rw [StateT.run_bind, h]
  rfl

theorem run_bind_of_error {reader : Reader α} {next : α → Reader β} {cs : List Char}
    {error : TimeError} (h : reader.run cs = .error error) :
    (reader >>= next).run cs = .error error := by
  rw [StateT.run_bind, h]
  rfl

theorem run_blanks {c : Char} (h : Text.isBlank c = false) (rest : List Char) :
    blanks.run (c :: rest) = .ok ((), c :: rest) := by
  have hskip : Text.skipBlank (c :: rest) = c :: rest := by simp [Text.skipBlank, h]
  change Except.ok ((), Text.skipBlank (c :: rest)) = _
  rw [hskip]

theorem run_blanks_paddedDigits (width n : Nat) (rest : List Char) :
    blanks.run (paddedDigits width n ++ rest) = .ok ((), paddedDigits width n ++ rest) := by
  cases hdigits : paddedDigits width n with
  | nil => exact absurd hdigits (paddedDigits_ne_nil width n)
  | cons c digits =>
      have hmem : c ∈ paddedDigits width n := by simp [hdigits]
      exact run_blanks (isBlank_of_isDigit (isDigit_of_mem_paddedDigits hmem)) _

theorem run_literal (c : Char) (rest : List Char) :
    (literal c).run (c :: rest) = .ok ((), rest) := by
  change (if c = c then _ else _) = _
  rw [if_pos rfl]

/-- Digits that no digit follows are the front of a text. -/
theorem takeWhile_digits {digits rest : List Char} (hdigits : ∀ c ∈ digits, c.isDigit = true)
    (hrest : ∀ c, rest.head? = some c → c.isDigit = false) :
    (digits ++ rest).takeWhile Char.isDigit = digits := by
  rw [List.takeWhile_append_of_pos hdigits]
  cases rest with
  | nil => simp
  | cons c rest => simp [hrest c rfl]

/-- A number is read as far as its width goes, or up to the first character that is no digit. -/
theorem run_number (width : Option Nat) (rest : List Char) {digits : List Char} (hne : digits ≠ [])
    (hdigits : ∀ c ∈ digits, c.isDigit = true)
    (hwidth : match width with
      | some width => digits.length = width
      | none => ∀ c, rest.head? = some c → c.isDigit = false) :
    (number width).run (digits ++ rest) =
      if greatestNumber < natOfDigits digits then .error .outOfRange
      else .ok (natOfDigits digits, rest) := by
  have hdrop : (digits ++ rest).drop digits.length = rest := by simp
  have hsome : digits.isEmpty = false := List.isEmpty_eq_false_iff.2 hne
  change number width (digits ++ rest) = _
  unfold number
  split
  · next hnil => exact absurd (List.append_eq_nil_iff.1 hnil).1 hne
  · cases width with
    | none =>
        have htaken := takeWhile_digits hdigits hwidth
        simp only [htaken, hdrop, hsome, Bool.false_eq_true, if_false]
    | some width =>
        have hfront : (digits ++ rest).take width = digits := by
          rw [← show digits.length = width from hwidth]
          simp
        have hnone : ∀ c, ([] : List Char).head? = some c → c.isDigit = false := by simp
        have htaken := takeWhile_digits hdigits hnone
        rw [List.append_nil] at htaken
        simp only [hfront, htaken, hdrop, hsome, Bool.false_eq_true, if_false]

/-- A number of two digits is read back when it is in its range. -/
theorem run_twoDigits {least greatest n : Nat} (hleast : least ≤ n) (hgreatest : n ≤ greatest)
    (h : n < 100) (rest : List Char) :
    (twoDigits least greatest).run (paddedDigits 2 n ++ rest) = .ok (n, rest) := by
  have hdigits : (Nat.toDigits 10 n).length ≤ 2 :=
    (Nat.length_toDigits_le_iff (by decide) (by decide)).2 h
  have hnumber : (number (some 2)).run (paddedDigits 2 n ++ rest) = .ok (n, rest) := by
    rw [run_number (some 2) rest (paddedDigits_ne_nil 2 n) (fun _ => isDigit_of_mem_paddedDigits)
      (length_paddedDigits hdigits), natOfDigits_paddedDigits, if_neg]
    have hmax : 100 < greatestNumber := by decide
    omega
  have hblanks := run_blanks_paddedDigits 2 n rest
  unfold twoDigits
  rw [run_bind_of_ok hblanks, run_bind_of_ok hnumber, if_pos ⟨hleast, hgreatest⟩]
  rfl

/-- The character after a year is none of a number. -/
theorem isDigit_of_dash : ∀ {rest : List Char} (c : Char), ('-' :: rest).head? = some c →
    c.isDigit = false := by
  intro rest c h
  cases h
  rfl

/-- The number of a year as it is read, before its range is checked. -/
def signedNumber : List Char → Reader Int
  | '-' :: rest => do
      set rest
      let n ← number none
      pure (-(n : Int))
  | '+' :: rest => do
      set rest
      let n ← number none
      pure (n : Int)
  | _ => do
      let n ← number (some 4)
      pure (n : Int)

theorem year_eq : year = (do
    blanks
    let cs ← get
    let year ← signedNumber cs
    if -greatestYear - 1 ≤ year ∧ year ≤ greatestYear then pure year else fail .outOfRange) := by
  unfold year
  refine bind_congr fun _ => bind_congr fun cs => ?_
  unfold signedNumber
  split <;> simp only [bind_assoc, pure_bind]

theorem toList_yearText (y : Int) :
    (yearText y).toList =
      if 0 ≤ y ∧ y ≤ 9999 then paddedDigits 4 y.natAbs
      else (if y < 0 then '-' else '+') :: paddedDigits 4 y.natAbs := by
  unfold yearText
  by_cases hfour : 0 ≤ y ∧ y ≤ 9999
  · rw [if_pos hfour, if_pos hfour, toList_padded, show y.toNat = y.natAbs by omega]
  · rw [if_neg hfour, if_neg hfour, String.toList_append, toList_padded]
    by_cases hnegative : y < 0
    · rw [if_pos hnegative, if_pos hnegative]
      rfl
    · rw [if_neg hnegative, if_neg hnegative]
      rfl

/-- After a sign the number goes up to the dash that follows it. -/
theorem run_set_number (sign : Nat → Int) (n : Nat) (cs rest : List Char) :
    (do
      set (paddedDigits 4 n ++ '-' :: rest)
      let n ← number none
      pure (sign n) : Reader Int).run cs =
      if greatestNumber < n then .error .outOfRange else .ok (sign n, '-' :: rest) := by
  have hset : (set (paddedDigits 4 n ++ '-' :: rest) : Reader PUnit).run cs =
      .ok (⟨⟩, paddedDigits 4 n ++ '-' :: rest) := rfl
  have hnumber := run_number none ('-' :: rest) (paddedDigits_ne_nil 4 n)
    (fun _ => isDigit_of_mem_paddedDigits) isDigit_of_dash
  rw [natOfDigits_paddedDigits] at hnumber
  rw [run_bind_of_ok hset]
  by_cases hgreat : greatestNumber < n
  · rw [if_pos hgreat] at hnumber ⊢
    exact run_bind_of_error hnumber
  · rw [if_neg hgreat] at hnumber ⊢
    rw [run_bind_of_ok hnumber]
    rfl

/-- The number of a year is read back unless it is too great. -/
theorem run_signedNumber (y : Int) (rest : List Char) :
    (signedNumber ((yearText y).toList ++ '-' :: rest)).run ((yearText y).toList ++ '-' :: rest) =
      if greatestNumber < y.natAbs then .error .outOfRange else .ok (y, '-' :: rest) := by
  rw [toList_yearText]
  by_cases hfour : 0 ≤ y ∧ y ≤ 9999
  · have hdigits : (Nat.toDigits 10 y.natAbs).length ≤ 4 :=
      (Nat.length_toDigits_le_iff (by decide) (by decide)).2 (by omega)
    have hnumber := run_number (some 4) ('-' :: rest) (paddedDigits_ne_nil 4 y.natAbs)
      (fun _ => isDigit_of_mem_paddedDigits) (length_paddedDigits hdigits)
    have hmax : 9999 < greatestNumber := by decide
    rw [natOfDigits_paddedDigits, if_neg (by omega)] at hnumber
    rw [if_pos hfour, if_neg (by omega)]
    unfold signedNumber
    split
    · next hdash => exact absurd hdash (paddedDigits_append_ne (by decide))
    · next hplus => exact absurd hplus (paddedDigits_append_ne (by decide))
    · rw [run_bind_of_ok hnumber, show (y.natAbs : Int) = y by omega]
      rfl
  · rw [if_neg hfour]
    by_cases hnegative : y < 0
    · rw [if_pos hnegative, List.cons_append, signedNumber,
        run_set_number (fun n => -(n : Int)), show -(y.natAbs : Int) = y by omega]
    · rw [if_neg hnegative, List.cons_append, signedNumber,
        run_set_number (fun n => (n : Int)), show (y.natAbs : Int) = y by omega]

/-- A year is read back when it fits into 32 bits. -/
theorem run_year (y : Int) (rest : List Char) :
    year.run ((yearText y).toList ++ '-' :: rest) =
      if -greatestYear - 1 ≤ y ∧ y ≤ greatestYear then .ok (y, '-' :: rest)
      else .error .outOfRange := by
  have hblanks : blanks.run ((yearText y).toList ++ '-' :: rest) =
      .ok ((), (yearText y).toList ++ '-' :: rest) := by
    rw [toList_yearText]
    by_cases hfour : 0 ≤ y ∧ y ≤ 9999
    · rw [if_pos hfour]
      exact run_blanks_paddedDigits 4 _ _
    · rw [if_neg hfour, List.cons_append]
      refine run_blanks ?_ _
      by_cases hnegative : y < 0
      · rw [if_pos hnegative]
        decide
      · rw [if_neg hnegative]
        decide
  have hget : (get : Reader (List Char)).run ((yearText y).toList ++ '-' :: rest) =
      .ok ((yearText y).toList ++ '-' :: rest, (yearText y).toList ++ '-' :: rest) := rfl
  have hnumber := run_signedNumber y rest
  have hmax : greatestYear < greatestNumber := by decide
  rw [year_eq, run_bind_of_ok hblanks, run_bind_of_ok hget]
  by_cases hgreat : greatestNumber < y.natAbs
  · rw [if_pos hgreat] at hnumber
    rw [run_bind_of_error hnumber, if_neg (by omega)]
  · rw [if_neg hgreat] at hnumber
    rw [run_bind_of_ok hnumber]
    by_cases hyear : -greatestYear - 1 ≤ y ∧ y ≤ greatestYear
    · rw [if_pos hyear, if_pos hyear]
      rfl
    · rw [if_neg hyear, if_neg hyear]
      rfl

/-! ## The whole text -/

/-- The characters of a date with a time of day. -/
def written (date : Date) (hour minute second : Nat) : List Char :=
  (yearText date.year).toList ++ '-' :: (paddedDigits 2 date.month ++ '-' ::
    (paddedDigits 2 date.day ++ 'T' :: (paddedDigits 2 hour ++ ':' ::
      (paddedDigits 2 minute ++ ':' :: (paddedDigits 2 second ++ ['Z'])))))

/-- What is made of a date with a time of day, in universal time and without a fraction. -/
def moment (date : Date) (hour minute second : Nat) : Except TimeError Time :=
  if !(firstDay.year ≤ date.year && date.year ≤ lastDay.year && date.isValid) then
    .error .outOfRange
  else
    let seconds := secondsAt date hour minute (min second 59)
    if secondsAt firstDay 0 0 0 ≤ seconds ∧ seconds ≤ secondsAt lastDay 23 59 59 then
      .ok ⟨seconds, if second = 60 then nanosPerSecond else 0⟩
    else .error .noSuchMoment

theorem run_fraction : fraction.run ['Z'] = .ok (0, ['Z']) := rfl

theorem run_offset : offset.run ['Z'] = .ok (0, []) := rfl

theorem run_finish : finish.run [] = .ok ((), []) := rfl

theorem run_dateEnd (rest : List Char) : dateEnd.run ('T' :: rest) = .ok ((), rest) := rfl

theorem run_blanks_dash (rest : List Char) : blanks.run ('-' :: rest) = .ok ((), '-' :: rest) :=
  run_blanks (by decide) rest

theorem run_blanks_colon (rest : List Char) : blanks.run (':' :: rest) = .ok ((), ':' :: rest) :=
  run_blanks (by decide) rest

/-- A written date and time of day are read back, when the year fits into 32 bits. -/
theorem run_time (date : Date) (hour minute second : Nat)
    (hmonth : 1 ≤ date.month ∧ date.month ≤ 12) (hday : 1 ≤ date.day ∧ date.day ≤ 31)
    (hhour : hour < 24) (hminute : minute < 60) (hsecond : second ≤ 60) :
    (time.run (written date hour minute second)).map (·.1) =
      if -greatestYear - 1 ≤ date.year ∧ date.year ≤ greatestYear then
        moment date hour minute second
      else .error .outOfRange := by
  have hyear := run_year date.year (paddedDigits 2 date.month ++ '-' ::
    (paddedDigits 2 date.day ++ 'T' :: (paddedDigits 2 hour ++ ':' ::
      (paddedDigits 2 minute ++ ':' :: (paddedDigits 2 second ++ ['Z'])))))
  unfold time written
  by_cases hfits : -greatestYear - 1 ≤ date.year ∧ date.year ≤ greatestYear
  · rw [if_pos hfits] at hyear ⊢
    rw [run_bind_of_ok hyear, run_bind_of_ok (run_blanks_dash _), run_bind_of_ok (run_literal _ _),
      run_bind_of_ok (run_twoDigits hmonth.1 hmonth.2 (by omega) _),
      run_bind_of_ok (run_blanks_dash _), run_bind_of_ok (run_literal _ _),
      run_bind_of_ok (run_twoDigits hday.1 hday.2 (by omega) _), run_bind_of_ok (run_dateEnd _),
      run_bind_of_ok (run_twoDigits (Nat.zero_le _) (Nat.le_of_lt_succ hhour) (by omega) _),
      run_bind_of_ok (run_blanks_colon _), run_bind_of_ok (run_literal _ _),
      run_bind_of_ok (run_twoDigits (Nat.zero_le _) (Nat.le_of_lt_succ hminute) (by omega) _),
      run_bind_of_ok (run_blanks_colon _), run_bind_of_ok (run_literal _ _),
      run_bind_of_ok (run_twoDigits (Nat.zero_le _) hsecond (by omega) _),
      run_bind_of_ok run_fraction, run_bind_of_ok run_offset, run_bind_of_ok run_finish]
    have hoffset : ¬ secondsPerDay ≤ (0 : Int).natAbs := by decide
    unfold moment
    simp only [hoffset, if_false, Int.sub_zero, Nat.add_zero]
    split
    · rfl
    · split <;> rfl
  · rw [if_neg hfits] at hyear ⊢
    rw [run_bind_of_error hyear]
    rfl

end Reader

/-! ## The second that a text names -/

/-- The day of a moment. -/
def date (time : Time) : Date := .ofDayNumber (time.seconds / secondsPerDay + epochDay)

/-- The second of the day. -/
def secondOfDay (time : Time) : Nat := (time.seconds % secondsPerDay).toNat

/-- A leap second counts one more. -/
def leap (time : Time) : Nat := if time.nanos < nanosPerSecond then 0 else 1

theorem toList_text (time : Time) :
    time.text.toList =
      Reader.written time.date (time.secondOfDay / 3600) (time.secondOfDay / 60 % 60)
        (time.secondOfDay % 60 + time.leap) := by
  simp [text, Reader.written, toList_padded, date, secondOfDay, leap]

/-- The moment lies within the calendar. -/
def InCalendar (time : Time) : Prop :=
  secondsAt Reader.firstDay 0 0 0 ≤ time.seconds ∧
    time.seconds ≤ secondsAt Reader.lastDay 23 59 59

instance (time : Time) : Decidable time.InCalendar := inferInstanceAs (Decidable (_ ∧ _))

/-- The second that the text of a moment names.  A leap second that does not follow the last second
of its minute is written like the next second. -/
def wholeSecond (time : Time) : Time :=
  if time.nanos < nanosPerSecond then ⟨time.seconds, 0⟩
  else if time.seconds % 60 = 59 then ⟨time.seconds, nanosPerSecond⟩
  else ⟨time.seconds + 1, 0⟩

theorem secondOfDay_lt (time : Time) : time.secondOfDay < 86400 := by
  unfold secondOfDay secondsPerDay
  omega

theorem secondOfDay_mod_60 (time : Time) : time.secondOfDay % 60 = (time.seconds % 60).toNat := by
  unfold secondOfDay secondsPerDay
  omega

/-- The second has the text that it is read from. -/
theorem text_wholeSecond (time : Time) : time.wholeSecond.text = time.text := by
  apply String.toList_injective
  rw [toList_text, toList_text]
  have hmod := time.secondOfDay_mod_60
  unfold wholeSecond
  by_cases hnanos : time.nanos < nanosPerSecond
  · have hleap : time.leap = 0 := if_pos hnanos
    rw [if_pos hnanos, hleap]
    rfl
  · have hleap : time.leap = 1 := if_neg hnanos
    rw [if_neg hnanos, hleap]
    by_cases hlast : time.seconds % 60 = 59
    · rw [if_pos hlast]
      rfl
    · rw [if_neg hlast]
      have hdate : date ⟨time.seconds + 1, 0⟩ = time.date := by
        unfold date secondsPerDay
        congr 2
        dsimp only
        omega
      have hsecond : secondOfDay ⟨time.seconds + 1, 0⟩ = time.secondOfDay + 1 := by
        unfold secondOfDay secondsPerDay
        dsimp only
        omega
      have hnext : leap ⟨time.seconds + 1, 0⟩ = 0 := rfl
      rw [hdate, hsecond, hnext]
      congr 1 <;> omega

/-- The year of a moment within the calendar is one of its years. -/
theorem inCalendar_iff (time : Time) :
    time.InCalendar ↔
      Reader.firstDay.year ≤ time.date.year ∧ time.date.year ≤ Reader.lastDay.year := by
  have hfirst : secondsAt Reader.firstDay 0 0 0 =
      (Calendar.daysBeforeYear Reader.firstDay.year - epochDay) * 86400 := by decide
  have hlast : secondsAt Reader.lastDay 23 59 59 =
      (Calendar.daysBeforeYear (Reader.lastDay.year + 1) - epochDay) * 86400 - 1 := by decide
  have hyear : time.date.year = Calendar.yearOfDay (time.seconds / 86400 + epochDay) := rfl
  have hlow := Calendar.le_yearOfDay_iff Reader.firstDay.year (time.seconds / 86400 + epochDay)
  have hhigh := Calendar.le_yearOfDay_iff (Reader.lastDay.year + 1)
    (time.seconds / 86400 + epochDay)
  unfold InCalendar
  rw [hfirst, hlast, hyear]
  omega

/-- The seconds of the parts that are written, with any second of the minute. -/
theorem secondsAt_date (time : Time) (second : Nat) :
    secondsAt time.date (time.secondOfDay / 3600) (time.secondOfDay / 60 % 60) second =
      time.seconds - time.secondOfDay % 60 + second := by
  have hday : time.date.dayNumber = time.seconds / secondsPerDay + epochDay :=
    Date.dayNumber_ofDayNumber _
  have hsecond : (time.secondOfDay : Int) = time.seconds % 86400 := by
    unfold secondOfDay secondsPerDay
    omega
  unfold secondsAt
  rw [hday]
  unfold secondsPerDay
  omega

/-- The parts that are written make the second that they name. -/
theorem moment_date {time : Time} (h : time.InCalendar) :
    Reader.moment time.date (time.secondOfDay / 3600) (time.secondOfDay / 60 % 60)
      (time.secondOfDay % 60 + time.leap) = .ok time.wholeSecond := by
  have hvalid : time.date.isValid = true := (Date.ofDayNumber_spec _).2.1
  obtain ⟨hfirst, hlast⟩ := time.inCalendar_iff.1 h
  have hyear : (!(Reader.firstDay.year ≤ time.date.year && time.date.year ≤ Reader.lastDay.year &&
      time.date.isValid)) = false := by simp [hfirst, hlast, hvalid]
  have hmod := time.secondOfDay_mod_60
  have hend : secondsAt Reader.lastDay 23 59 59 % 60 = 59 := by decide
  obtain ⟨hlow, hhigh⟩ := h
  unfold Reader.moment
  rw [hyear, if_neg Bool.false_ne_true, secondsAt_date]
  unfold wholeSecond leap
  by_cases hnanos : time.nanos < nanosPerSecond
  · simp only [if_pos hnanos]
    rw [if_pos (by omega), if_neg (by omega)]
    congr 2
    omega
  · simp only [if_neg hnanos]
    by_cases hminute : time.seconds % 60 = 59
    · rw [if_pos (by omega), if_pos (by omega), if_pos hminute]
      congr 2
      omega
    · rw [if_pos (by omega), if_neg (by omega), if_neg hminute]
      congr 2
      omega

/-- Outside the calendar there is no moment. -/
theorem moment_date_of_not_inCalendar {time : Time} (h : ¬ time.InCalendar)
    (hour minute second : Nat) :
    Reader.moment time.date hour minute second = .error .outOfRange := by
  rw [inCalendar_iff] at h
  have hyear : (!(Reader.firstDay.year ≤ time.date.year && time.date.year ≤ Reader.lastDay.year &&
      time.date.isValid)) = true := by
    simp only [Bool.not_eq_true', Bool.and_eq_false_imp, Bool.and_eq_true, decide_eq_true_eq]
    exact fun hbounds => absurd hbounds h
  unfold Reader.moment
  rw [hyear, if_pos rfl]

/-- The text of a moment is read back as the second that it names, if that lies within the
calendar. -/
theorem parse_text (time : Time) :
    parse time.text = if time.InCalendar then .ok time.wholeSecond else .error .outOfRange := by
  obtain ⟨-, -, -, hmonth, hmonth', hday, hday'⟩ :=
    Date.ofDayNumber_spec (time.seconds / secondsPerDay + epochDay)
  have hlt := time.secondOfDay_lt
  have hleap : time.leap ≤ 1 := by
    unfold leap
    split <;> decide
  have hrun := Reader.run_time time.date (time.secondOfDay / 3600)
    (time.secondOfDay / 60 % 60) (time.secondOfDay % 60 + time.leap)
    ⟨hmonth, hmonth'⟩ ⟨hday, hday'⟩ (by omega) (by omega) (by omega)
  unfold parse
  rw [toList_text, hrun]
  by_cases h : time.InCalendar
  · have hbounds := time.inCalendar_iff.1 h
    have hfirst : -Reader.greatestYear - 1 ≤ Reader.firstDay.year := by decide
    have hlast : Reader.lastDay.year ≤ Reader.greatestYear := by decide
    rw [if_pos (by omega), if_pos h, moment_date h]
  · rw [if_neg h, moment_date_of_not_inCalendar h, ite_self]

end Time

end ReplicaKeeper
