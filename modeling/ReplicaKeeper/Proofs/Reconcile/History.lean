import ReplicaKeeper.Proofs.Reconcile.Move
import Mathlib.Data.List.Induction

/-!
# Histories of a reconcile

A history is what happens when a reconcile is fed responses one after another, whatever they are:
one turn for each of them, with the state before, the request and the state after.  Nothing ties a
response to the request before it.

A property of the turns so far and the present state that the first turn starts from, and that every
move keeps, holds at every point of every history: `history_invariant`.
-/

set_option autoImplicit false

namespace ReplicaKeeper.Reconcile

/-- What a step is given: the moment at which it is made, and the response to the last request. -/
structure Input where
  now : Time
  response : Option Response

/-- One step of a reconcile as it was made. -/
structure Turn where
  before : State
  input : Input
  request : Option Request
  after : State

namespace Turn

/-- A turn that sends a patch. -/
def Patches (turn : Turn) : Prop := ∃ key patch, turn.request = some (.patchDeployment key patch)

/-- A turn that writes the status. -/
def Reports (turn : Turn) : Prop := ∃ scaler, turn.request = some (.updateStatus scaler)

/-- A turn is a move from the state before to the state after. -/
def IsMove (config : Config) (scaler : Scaler) (turn : Turn) : Prop :=
  Move turn.input.now config scaler turn.before turn.input.response turn.request turn.after

/-- A turn whose request is known is the move with that request. -/
theorem IsMove.sending {config : Config} {scaler : Scaler} {turn : Turn}
    {request : Option Request} (hmove : turn.IsMove config scaler)
    (hrequest : turn.request = request) :
    Move turn.input.now config scaler turn.before turn.input.response request turn.after := by
  subst hrequest
  exact hmove

/-- A turn whose response is known is the move after that response. -/
theorem IsMove.told {config : Config} {scaler : Scaler} {turn : Turn}
    {response : Option Response} (hmove : turn.IsMove config scaler)
    (hresponse : turn.input.response = response) :
    Move turn.input.now config scaler turn.before response turn.request turn.after := by
  subst hresponse
  exact hmove

end Turn

section Histories

variable (config : Config) (scaler : Scaler)

/-- The step that is made in a state. -/
def takeTurn (state : State) (input : Input) : Turn :=
  let made := step input.now config scaler input.response state
  ⟨state, input, made.2, made.1⟩

/-- The turns from a state. -/
def turnsFrom : State → List Input → List Turn
  | _, [] => []
  | state, input :: inputs =>
      let turn := takeTurn config scaler state input
      turn :: turnsFrom turn.after inputs

/-- The state after the turns from a state. -/
def stateFrom (state : State) (inputs : List Input) : State :=
  inputs.foldl (fun state input => (takeTurn config scaler state input).after) state

/-- The turns of a reconcile that starts at the beginning. -/
def history (inputs : List Input) : List Turn := turnsFrom config scaler {} inputs

/-- The state in which a history leaves the reconcile. -/
def stateAfter (inputs : List Input) : State := stateFrom config scaler {} inputs

theorem isMove_takeTurn (state : State) (input : Input) :
    (takeTurn config scaler state input).IsMove config scaler :=
  step_move input.now config scaler input.response state

theorem turnsFrom_append (state : State) (inputs : List Input) (input : Input) :
    turnsFrom config scaler state (inputs ++ [input]) =
      turnsFrom config scaler state inputs ++
        [takeTurn config scaler (stateFrom config scaler state inputs) input] := by
  induction inputs generalizing state with
  | nil => rfl
  | cons first inputs ih =>
      rw [List.cons_append, turnsFrom, turnsFrom, ih]
      rfl

/-- One more input makes one more turn, in the state in which the others left the reconcile. -/
theorem history_append (inputs : List Input) (input : Input) :
    history config scaler (inputs ++ [input]) =
      history config scaler inputs ++
        [takeTurn config scaler (stateAfter config scaler inputs) input] :=
  turnsFrom_append config scaler {} inputs input

theorem stateAfter_append (inputs : List Input) (input : Input) :
    stateAfter config scaler (inputs ++ [input]) =
      (takeTurn config scaler (stateAfter config scaler inputs) input).after := by
  simp [stateAfter, stateFrom]

theorem length_history (inputs : List Input) :
    (history config scaler inputs).length = inputs.length := by
  induction inputs using List.reverseRecOn with
  | nil => rfl
  | append_singleton inputs input ih => simp [history_append, ih]

end Histories

/-! ## Invariants -/

/-- What holds of the turns so far and the present state at the beginning, and after every turn when
it held before, holds of every history. -/
theorem history_induction {config : Config} {scaler : Scaler} {P : List Turn → State → Prop}
    (start : P [] {})
    (next : ∀ turns turn, P turns turn.before → turn.IsMove config scaler →
      P (turns ++ [turn]) turn.after)
    (inputs : List Input) :
    P (history config scaler inputs) (stateAfter config scaler inputs) := by
  induction inputs using List.reverseRecOn with
  | nil => exact start
  | append_singleton inputs input ih =>
      rw [history_append, stateAfter_append]
      exact next _ (takeTurn config scaler _ input) ih (isMove_takeTurn config scaler _ input)

/-- A turn of a history is a move, from the state in which the turns before it left the
reconcile. -/
theorem history_getElem? {config : Config} {scaler : Scaler} {inputs : List Input} {i : Nat}
    {turn : Turn} (hturn : (history config scaler inputs)[i]? = some turn) :
    turn.before = stateAfter config scaler (inputs.take i) ∧
      (history config scaler inputs).take i = history config scaler (inputs.take i) ∧
      turn.IsMove config scaler := by
  induction inputs using List.reverseRecOn with
  | nil => simp [history, turnsFrom] at hturn
  | append_singleton inputs input ih =>
      have hlength := length_history config scaler inputs
      rw [history_append] at hturn ⊢
      rcases Nat.lt_trichotomy i inputs.length with hlt | heq | hgt
      · rw [List.getElem?_append_left (by omega)] at hturn
        rw [List.take_append_of_le_length (by omega), List.take_append_of_le_length (by omega)]
        exact ih hturn
      · rw [List.getElem?_append_right (by omega), heq, hlength, Nat.sub_self] at hturn
        have hturn : takeTurn config scaler (stateAfter config scaler inputs) input = turn := by
          simpa using hturn
        subst hturn
        rw [List.take_append_of_le_length (by omega), List.take_append_of_le_length (by omega),
          heq, List.take_length, ← hlength, List.take_length]
        exact ⟨rfl, rfl, isMove_takeTurn config scaler _ input⟩
      · rw [List.getElem?_eq_none (by simp; omega)] at hturn
        cases hturn

/-- An invariant holds before every turn of a history, of the turns before it. -/
theorem history_invariant {config : Config} {scaler : Scaler} {P : List Turn → State → Prop}
    (start : P [] {})
    (next : ∀ turns turn, P turns turn.before → turn.IsMove config scaler →
      P (turns ++ [turn]) turn.after)
    {inputs : List Input} {i : Nat} {turn : Turn}
    (hturn : (history config scaler inputs)[i]? = some turn) :
    P ((history config scaler inputs).take i) turn.before ∧ turn.IsMove config scaler := by
  obtain ⟨hbefore, htake, hmove⟩ := history_getElem? hturn
  rw [hbefore, htake]
  exact ⟨history_induction start next _, hmove⟩

/-! ## Neighbours -/

/-- The last of the turns before a turn is its neighbour. -/
theorem getElem?_of_getLast?_take {turns : List Turn} {i : Nat} {turn previous : Turn}
    (hturn : turns[i]? = some turn) (hlast : (turns.take i).getLast? = some previous) :
    ∃ k, i = k + 1 ∧ turns[k]? = some previous := by
  cases i with
  | zero => simp at hlast
  | succ k =>
      obtain ⟨hlt, -⟩ := List.getElem?_eq_some_iff.1 hturn
      have hk : k < turns.length := by omega
      rw [List.take_add_one, List.getElem?_eq_getElem hk, Option.toList_some,
        List.getLast?_concat] at hlast
      exact ⟨k, rfl, (List.getElem?_eq_getElem hk).trans hlast⟩

/-- A turn starts in the state in which its neighbour ended. -/
theorem before_eq_after {config : Config} {scaler : Scaler} {inputs : List Input} {k : Nat}
    {turn next : Turn} (hturn : (history config scaler inputs)[k]? = some turn)
    (hnext : (history config scaler inputs)[k + 1]? = some next) : next.before = turn.after := by
  have hlast : ((history config scaler inputs).take (k + 1)).getLast? = some turn := by
    rw [List.take_add_one, hturn, Option.toList_some, List.getLast?_concat]
  refine (history_invariant
    (P := fun turns state => ∀ last, turns.getLast? = some last → state = last.after)
    ?_ ?_ hnext).1 turn hlast
  · intro last hlast
    cases hlast
  · intro turns turn _ _ last hlast
    rw [List.getLast?_concat] at hlast
    exact congrArg Turn.after (Option.some.inj hlast)

end ReplicaKeeper.Reconcile
