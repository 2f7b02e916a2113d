import ReplicaKeeper.Json.Number

/-!
# Pointers into values

A pointer is a text that leads to a place in a value.  Each slash starts a step: the name of a
member or the place of an item.  In names `~1` stands for a slash and `~0` for a tilde.
-/

set_option autoImplicit false

namespace ReplicaKeeper.Json

/-- A step with its escapes resolved. -/
def unescapeStep : List Char → List Char
  | '~' :: '1' :: rest => '/' :: unescapeStep rest
  | '~' :: '0' :: rest => '~' :: unescapeStep rest
  | c :: rest => c :: unescapeStep rest
  | [] => []

/-- The place that a step names in an array: digits without a zero in front. -/
def stepIndex? (step : String) : Option Nat :=
  match step.toList with
  | [] => none
  | ['0'] => some 0
  | '0' :: _ => none
  | digits => if digits.all Char.isDigit then some (natOfDigits digits) else none

/-- What one step leads to. -/
def step? (value : Json) (step : String) : Option Json :=
  match value with
  | .obj members => Entries.get? members step
  | .arr items => (stepIndex? step).bind fun index => items[index]?
  | _ => none

/-- What a pointer leads to. -/
def pointer? (value : Json) (pointer : String) : Option Json :=
  match pointer.splitOn "/" with
  | [""] => some value
  | "" :: steps =>
      (steps.map fun step => String.ofList (unescapeStep step.toList)).foldlM step? value
  | _ => none

end ReplicaKeeper.Json
