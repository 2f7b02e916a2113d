/-!
# Agendas

An agenda keeps keys with the instants at which they are due, in milliseconds.  It does not sort
them.  A key waits in a slot, and slots come in six widths: the further ahead a key is set, the
wider its slot.  When the time of a slot has come it is opened, and its keys move to slots of the
next smaller width; a key in a slot of the smallest width comes out when that is opened.

A slot is emptied newest first.  So keys that are due together come out newest first or oldest
first, depending on how many slots they have been in; each slot turns their order round.

An agenda looks at its slots only when its alarm rings, and then it sees no further than the
instant for which the alarm was set.
-/

set_option autoImplicit false

namespace ReplicaKeeper.Controller

/-! ## Slots -/

/-- A key that is due at an instant, in a slot of a width. -/
structure Timer (κ : Type) where
  key : κ
  due : Nat
  /-- The width of the slot; 0 is the smallest. -/
  level : Nat
  deriving DecidableEq, Repr

/-- The width of slots, in milliseconds: each is 64 times the one before. -/
def slotWidth (level : Nat) : Nat := 1 <<< (6 * level)

/-- The greatest width of a slot. -/
def topLevel : Nat := 5

/-- The width of the slot for a key, given up to which instant slots have been opened. -/
def levelFor (elapsed due : Nat) : Nat := min topLevel (Nat.log2 ((elapsed ^^^ due) ||| 63) / 6)

/-- How far ahead a key can be set. -/
def maxAhead : Nat := 68719476735

variable {κ : Type}

/-- The instant at which the slot of a key is opened. -/
def Timer.opening (timer : Timer κ) : Nat :=
  timer.due / slotWidth timer.level * slotWidth timer.level

/-! ## Agendas -/

/-- Keys with the instants at which they are due. -/
structure Agenda (κ : Type) where
  /-- The keys, the newest of a slot in front of the others. -/
  timers : List (Timer κ) := []
  /-- Slots up to this instant have been opened. -/
  elapsed : Nat := 0
  /-- The instant of the last alarm that rang. -/
  reached : Nat := 0
  /-- When to look at the slots again. -/
  alarm : Option Nat := none
  deriving Repr

/-- A key was to be set too far ahead. -/
inductive AgendaError where
  | tooFarAhead
  deriving DecidableEq, Repr

namespace Agenda

/-- The slot to open next, by its width and its instant: the first one of the smallest width. -/
def nextSlot? (agenda : Agenda κ) : Option (Nat × Nat) := do
  let level ← (agenda.timers.map Timer.level).min?
  let opening ← ((agenda.timers.filter (·.level = level)).map Timer.opening).min?
  return (level, opening)

/-- The instant at which the next slot is opened. -/
def nextOpening? (agenda : Agenda κ) : Option Nat := agenda.nextSlot?.map (·.2)

/-! ## Setting keys -/

/-- Puts a key into a slot. -/
def push (key : κ) (due : Nat) (agenda : Agenda κ) : Except AgendaError (Agenda κ) :=
  if maxAhead < due - agenda.elapsed then .error .tooFarAhead
  else
    let timer : Timer κ := ⟨key, due, levelFor agenda.elapsed due⟩
    .ok { agenda with timers := timer :: agenda.timers }

/-- Sets the alarm unless it rings earlier. -/
def ringBy (instant : Nat) (agenda : Agenda κ) : Agenda κ :=
  { agenda with alarm := some ((agenda.alarm.map (min instant)).getD instant) }

variable [DecidableEq κ]

/-- Removes a key. -/
def erase (key : κ) (agenda : Agenda κ) : Agenda κ :=
  { agenda with timers := agenda.timers.filter (·.key ≠ key) }

/-- When a key is due. -/
def due? (key : κ) (agenda : Agenda κ) : Option Nat :=
  (agenda.timers.find? (·.key = key)).map Timer.due

/-- Sets when a key is due.  A key that is due earlier stays as it is; one that is due later, or at
the same time, becomes the newest one. -/
def set (key : κ) (due : Nat) (agenda : Agenda κ) : Except AgendaError (Agenda κ) :=
  match agenda.due? key with
  | none => do return (← agenda.push key due).ringBy due
  | some present =>
      if present < due then .ok agenda
      else do
        let agenda ← (agenda.erase key).push key due
        return { agenda with alarm := agenda.nextOpening? }

/-! ## Taking out keys -/

/-- Opens a slot that is not of the smallest width. -/
def openSlot (level opening : Nat) (agenda : Agenda κ) : Agenda κ :=
  let (inside, outside) :=
    agenda.timers.partition fun timer => timer.level = level && timer.opening = opening
  let moved := inside.reverse.map fun timer => { timer with level := level - 1 }
  { agenda with timers := moved ++ outside, elapsed := opening }

/-- Opens slots until a key comes out, up to the last alarm that rang.  A key moves at most
`topLevel` times. -/
def takeFrom : Nat → Agenda κ → Option κ × Agenda κ
  | 0, agenda => (none, agenda)
  | fuel + 1, agenda =>
      match agenda.nextSlot? with
      | none => (none, { agenda with elapsed := agenda.reached })
      | some (level, opening) =>
          if agenda.reached < opening then (none, { agenda with elapsed := agenda.reached })
          else if level = 0 then
            match agenda.timers.find? fun timer => timer.level = 0 && timer.due = opening with
            | none => (none, agenda)
            | some timer => (some timer.key, agenda.erase timer.key)
          else takeFrom fuel (agenda.openSlot level opening)

/-- The next key that is due at the last alarm that rang, with a new alarm. -/
def take (agenda : Agenda κ) : Option κ × Agenda κ :=
  let (key, agenda) := takeFrom (topLevel * agenda.timers.length + 1) agenda
  (key, { agenda with alarm := agenda.nextOpening? })

/-- Lets the alarm ring, as often as that is due, until a key comes out. -/
def nextFrom (now : Nat) : Nat → Agenda κ → Option κ × Agenda κ
  | 0, agenda => (none, agenda)
  | fuel + 1, agenda =>
      let instant := agenda.alarm.getD agenda.reached
      if now < instant then (none, agenda)
      else
        match take { agenda with reached := instant } with
        | (some key, agenda) => (some key, agenda)
        | (none, agenda) => if agenda.alarm.isNone then (none, agenda) else nextFrom now fuel agenda

/-- The next key that is due.  Every alarm opens a slot. -/
def next (now : Nat) (agenda : Agenda κ) : Option κ × Agenda κ :=
  nextFrom now (topLevel * agenda.timers.length + 2) agenda

/-- Takes out at most so many keys that are due. -/
def takeDue (now : Nat) : Nat → Agenda κ → List κ × Agenda κ
  | 0, agenda => ([], agenda)
  | count + 1, agenda =>
      match agenda.next now with
      | (none, agenda) => ([], agenda)
      | (some key, agenda) =>
          let (keys, agenda) := takeDue now count agenda
          (key :: keys, agenda)

/-- Takes out all keys that are due. -/
def takeAllDue (now : Nat) (agenda : Agenda κ) : List κ × Agenda κ :=
  agenda.takeDue now (agenda.timers.length + 1)

end Agenda

end ReplicaKeeper.Controller
