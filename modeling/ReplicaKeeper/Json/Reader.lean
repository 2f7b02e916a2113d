import ReplicaKeeper.Json.Token

/-!
# Reading JSON documents

The tokens of a document are consumed one by one.  `Frame`s are the arrays and objects that are
open, the innermost first, and `Awaits` says what may follow.  An array or object inside 127 others
is unreadable.  The value of a text is that of its document.
-/

set_option autoImplicit false

namespace ReplicaKeeper.Json

/-! ## What is open and what may follow -/

/-- An array or object that is not complete. -/
inductive Frame where
  /-- The items so far, the last one first. -/
  | array (items : List Document)
  /-- The members so far, the last one first. -/
  | object (members : List (Option String × Document))
  /-- The members so far, and the name whose value is being read. -/
  | member (members : List (Option String × Document)) (name : Option String)

/-- What the next token may be. -/
inductive Awaits where
  | value
  /-- After the opening bracket of an array. -/
  | valueOrClose
  /-- After the opening brace of an object. -/
  | nameOrClose
  /-- After a comma between members. -/
  | name
  | colon
  /-- After a complete item or member. -/
  | commaOrClose

/-- The state of reading a document. -/
inductive Progress where
  | reading (frames : List Frame) (awaits : Awaits)
  | complete (document : Document)

/-- How many arrays and objects may be open at a time, if the innermost is to be readable. -/
def maxDepth : Nat := 127

/-- Puts a complete part in its place. -/
def Progress.accept (part : Document) : List Frame → Option Progress
  | [] => some (.complete part)
  | .array items :: frames => some (.reading (.array (part :: items) :: frames) .commaOrClose)
  | .member members name :: frames =>
      some (.reading (.object ((name, part) :: members) :: frames) .commaOrClose)
  | .object _ :: _ => none

/-- Whether one more array or object may be open. -/
def hasRoom (frames : List Frame) : Bool := (frames.drop (maxDepth - 1)).isEmpty

/-- Closes an array or object, which is unreadable inside too many others. -/
def Progress.close (part : Document) (frames : List Frame) : Option Progress :=
  accept (if hasRoom frames then part else .unreadable) frames

/-- One token further. -/
def Progress.next : Progress → Token → Option Progress
  | .complete _, _ => none
  | .reading frames awaits, token =>
      match awaits, token with
      | .value, .scalar value | .valueOrClose, .scalar value => accept value frames
      | .value, .text s | .valueOrClose, .text s => accept (.ofText s) frames
      | .value, .openArray | .valueOrClose, .openArray =>
          some (.reading (.array [] :: frames) .valueOrClose)
      | .value, .openObject | .valueOrClose, .openObject =>
          some (.reading (.object [] :: frames) .nameOrClose)
      | .valueOrClose, .closeArray | .commaOrClose, .closeArray =>
          match frames with
          | .array items :: frames => close (.arr items.reverse) frames
          | _ => none
      | .nameOrClose, .closeObject | .commaOrClose, .closeObject =>
          match frames with
          | .object members :: frames => close (.obj members.reverse) frames
          | _ => none
      | .nameOrClose, .text name | .name, .text name =>
          match frames with
          | .object members :: frames => some (.reading (.member members name :: frames) .colon)
          | _ => none
      | .colon, .colon => some (.reading frames .value)
      | .commaOrClose, .comma =>
          match frames with
          | .array _ :: _ => some (.reading frames .value)
          | .object _ :: _ => some (.reading frames .name)
          | _ => none
      | _, _ => none

/-- The document of a list of tokens. -/
def ofTokens? (tokens : List Token) : Option Document :=
  match tokens.foldlM Progress.next (.reading [] .value) with
  | some (.complete document) => some document
  | _ => none

/-- Reads a document. -/
def parseDocument? (text : String) : Option Document := (tokens? text).bind ofTokens?

/-- Reads a document that is readable throughout, and gives its value. -/
def parse? (text : String) : Option Json := (parseDocument? text).bind Document.toJson?

end ReplicaKeeper.Json
