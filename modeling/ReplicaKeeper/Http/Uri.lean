/-!
# Request targets

The target of a request is a path, which may be followed by a query.  A fragment is not sent.  Most
characters that would have to be escaped are refused; quotes and braces are let through in a path.
-/

set_option autoImplicit false

namespace ReplicaKeeper

/-- The target of a request. -/
structure Uri where
  path : String
  query : Option String
  deriving DecidableEq, Repr

namespace Uri

/-- The longest text that is accepted, in bytes. -/
def maxLength : Nat := 65534

/-- Whether a character may stand in a path. -/
def isPathChar (c : Char) : Bool :=
  let n := c.toNat
  n = 0x21 || (0x24 ≤ n && n ≤ 0x3b) || n = 0x3d || (0x40 ≤ n && n ≤ 0x5f) ||
    (0x61 ≤ n && n ≤ 0x7a) || n = 0x7c || n = 0x7e || c = '"' || c = '\x7b' || c = '\x7d'

/-- Whether a character may stand in a query. -/
def isQueryChar (c : Char) : Bool :=
  let n := c.toNat
  n = 0x21 || (0x24 ≤ n && n ≤ 0x3b) || n = 0x3d || (0x3f ≤ n && n ≤ 0x7e)

/-- The rest of a target after its path: nothing, or a query. -/
def readQuery (path : String) : List Char → Option Uri
  | '?' :: rest =>
      let query := rest.takeWhile (· ≠ '#')
      if query.all isQueryChar then some ⟨path, some (String.ofList query)⟩ else none
  | _ => some ⟨path, none⟩

/-- Reads a target; none when it has a character that is refused or is too long. -/
def parse? (text : String) : Option Uri :=
  if maxLength < text.utf8ByteSize then none
  else
    let cs := text.toList
    let isEnd : Char → Bool := fun c => c = '?' || c = '#'
    let path := cs.takeWhile fun c => !isEnd c
    if path.all isPathChar then
      readQuery (String.ofList path) (cs.dropWhile fun c => !isEnd c)
    else none

/-- The text of a target. -/
def text (uri : Uri) : String :=
  match uri.query with
  | none => uri.path
  | some query => uri.path ++ "?" ++ query

end Uri

end ReplicaKeeper
