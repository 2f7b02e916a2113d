import ReplicaKeeper.Decode.Error
import ReplicaKeeper.Json.Number
import ReplicaKeeper.Text.Blank
import ReplicaKeeper.Time.Basic

/-!
# Reading moments

A moment is written as a date, a time of day and an offset from universal time.  The grammar is
generous: months, days and the parts of the time may have a single digit, blanks may stand between
the parts, a year with a sign may have any number of digits, and the fraction of a second may be
absent or of any length.  A part is checked against its range as soon as it is read.
-/

set_option autoImplicit false

namespace ReplicaKeeper.Time

open Text (skipBlank)

/-- Reads something at the front of a text. -/
abbrev Reader (α : Type) := StateT (List Char) (Except TimeError) α

namespace Reader

variable {α : Type}

def fail (error : TimeError) : Reader α := fun _ => .error error

def blanks : Reader Unit := modify skipBlank

/-- One given character. -/
def literal (c : Char) : Reader Unit := fun cs =>
  match cs with
  | [] => .error .tooShort
  | d :: rest => if d = c then .ok ((), rest) else .error .badCharacter

/-! ## Numbers -/

/-- The greatest number that is read, which has 63 bits. -/
def greatestNumber : Nat := 9223372036854775807

/-- A number of at least one digit and at most `width` digits, without width of any number. -/
def number (width : Option Nat) : Reader Nat := fun cs =>
  match cs with
  | [] => .error .tooShort
  | cs =>
      let digits := (match width with
        | some width => cs.take width
        | none => cs).takeWhile Char.isDigit
      if digits.isEmpty then .error .badCharacter
      else
        let n := natOfDigits digits
        if greatestNumber < n then .error .outOfRange else .ok (n, cs.drop digits.length)

/-- A number of one or two digits in a range. -/
def twoDigits (least greatest : Nat) : Reader Nat := do
  blanks
  let n ← number (some 2)
  if least ≤ n ∧ n ≤ greatest then pure n else fail .outOfRange

/-- The greatest year that a number of 32 bits can name. -/
def greatestYear : Int := 2147483647

/-- A year of at most four digits, or of any number of digits after a sign. -/
def year : Reader Int := do
  blanks
  let year : Int ← match ← get with
    | '-' :: rest => do
        set rest
        let n ← number none
        pure (-(n : Int))
    | '+' :: rest => do
        set rest
        let n ← number none
        pure (n : Int)
    | _ => do
        let n ← number (some 4)
        pure (n : Int)
  if -greatestYear - 1 ≤ year ∧ year ≤ greatestYear then pure year else fail .outOfRange

/-- The fraction of a second: nine digits count and the others are skipped. -/
def fraction : Reader Nat := do
  match ← get with
  | '.' :: rest =>
      set rest
      let n ← number (some 9)
      let taken := rest.length - (← get).length
      modify (·.dropWhile Char.isDigit)
      pure (n * tenTo (9 - taken))
  | _ => pure 0

/-! ## Offsets -/

/-- What may stand between the hours and the minutes of an offset. -/
def isOffsetSeparator (c : Char) : Bool := c = ':' || Text.isBlank c

/-- Whether a text starts with the name of universal time. -/
def startsWithName : List Char → Bool
  | a :: b :: c :: _ => a.toUpper = 'U' && b.toUpper = 'T' && c.toUpper = 'C'
  | _ => false

/-- Two digits of an offset. -/
def offsetDigits (greatestFirst : Char) : Reader Nat := fun cs =>
  match cs with
  | a :: b :: rest =>
      if a.isDigit && b.isDigit then
        if a ≤ greatestFirst then .ok (digitValue a * 10 + digitValue b, rest)
        else .error .outOfRange
      else .error .badCharacter
  | [c] => if c.utf8Size < 2 then .error .tooShort else .error .badCharacter
  | [] => .error .tooShort

/-- The offset from universal time in seconds. -/
def offset : Reader Int := do
  blanks
  let cs ← get
  if startsWithName cs then
    set (cs.drop 3)
    pure 0
  else
    match cs with
    | [] => fail .tooShort
    | c :: rest =>
        set rest
        if c = 'Z' || c = 'z' then pure 0
        else if c = '+' || c = '-' || c = '\u2212' then
          let hours ← offsetDigits '9'
          modify (·.dropWhile isOffsetSeparator)
          let minutes ← offsetDigits '5'
          let seconds : Int := (hours * 3600 + minutes * 60 : Nat)
          pure (if c = '+' then seconds else -seconds)
        else fail .badCharacter

/-! ## The whole moment -/

/-- The first and the last day of the calendar. -/
def firstDay : Date := ⟨-262143, 1, 1⟩

def lastDay : Date := ⟨262142, 12, 31⟩

/-- The character between the date and the time of day. -/
def dateEnd : Reader Unit := fun cs =>
  match cs with
  | [] => .error .tooShort
  | c :: rest => if c = 'T' || c = 't' || c = ' ' then .ok ((), rest) else .error .badCharacter

/-- The end of the text, after blanks. -/
def finish : Reader Unit := fun cs =>
  if (skipBlank cs).isEmpty then .ok ((), []) else .error .trailing

/-- A moment up to the end of the text. -/
def time : Reader Time := do
  let year ← year
  blanks
  literal '-'
  let month ← twoDigits 1 12
  blanks
  literal '-'
  let day ← twoDigits 1 31
  dateEnd
  let hour ← twoDigits 0 23
  blanks
  literal ':'
  let minute ← twoDigits 0 59
  blanks
  literal ':'
  let second ← twoDigits 0 60
  let nanos ← fraction
  let offset ← offset
  finish
  let date : Date := ⟨year, month, day⟩
  if !(firstDay.year ≤ year && year ≤ lastDay.year && date.isValid) then fail .outOfRange
  else if secondsPerDay ≤ offset.natAbs then fail .outOfRange
  else
    let seconds := secondsAt date hour minute (min second 59) - offset
    if secondsAt firstDay 0 0 0 ≤ seconds ∧ seconds ≤ secondsAt lastDay 23 59 59 then
      pure ⟨seconds, if second = 60 then nanosPerSecond + nanos else nanos⟩
    else fail .noSuchMoment

end Reader

/-- Reads a moment. -/
def parse (text : String) : Except TimeError Time := (Reader.time.run text.toList).map (·.1)

end ReplicaKeeper.Time
