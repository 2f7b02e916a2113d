/-!
# Lines
-/

set_option autoImplicit false

namespace ReplicaKeeper.Text

/-- The first line of a text.  A return in front of the line end belongs to the line end. -/
def firstLine (s : String) : String :=
  match s.toList.span (· ≠ '\n') with
  | (line, []) => String.ofList line
  | (line, _ :: _) =>
      String.ofList (if line.getLast? = some '\r' then line.dropLast else line)

/-- A text whose lines after the first one are set in by a number of spaces. -/
def setIn (spaces : Nat) (s : String) : String :=
  String.ofList (s.toList.flatMap fun c =>
    if c = '\n' then c :: List.replicate spaces ' ' else [c])

end ReplicaKeeper.Text
