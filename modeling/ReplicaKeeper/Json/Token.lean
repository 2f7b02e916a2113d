import ReplicaKeeper.Json.Number

/-!
# The words of a JSON document

A document is read in two steps: its text becomes a list of tokens, and the tokens become a
document.  This module holds the first step.  Strings are decoded here, numbers get their values
here.  A string or number that follows the grammar is a token, even if it stands for nothing.
-/

set_option autoImplicit false

namespace ReplicaKeeper.Json

/-- A word of a document. -/
inductive Token where
  | openObject
  | closeObject
  | openArray
  | closeArray
  | comma
  | colon
  /-- A string, which is a value or the name of a member; one with half of a pair is none. -/
  | text (s : Option String)
  /-- A number, a truth value or null. -/
  | scalar (value : Document)

/-! ## Strings -/

/-- The value of a hexadecimal digit. -/
def hexValue? (c : Char) : Option Nat :=
  if c.isDigit then some (c.toNat - '0'.toNat)
  else if 'a' ≤ c && c ≤ 'f' then some (c.toNat - 'a'.toNat + 10)
  else if 'A' ≤ c && c ≤ 'F' then some (c.toNat - 'A'.toNat + 10)
  else none

/-- The number written by four hexadecimal digits. -/
def unitOfHex? (a b c d : Char) : Option Nat := do
  let a ← hexValue? a
  let b ← hexValue? b
  let c ← hexValue? c
  let d ← hexValue? d
  some (((a * 16 + b) * 16 + c) * 16 + d)

/-- The first units of the pairs that stand for one character. -/
def isLeadingUnit (n : Nat) : Bool := 0xD800 ≤ n && n < 0xDC00

/-- The second units of the pairs that stand for one character. -/
def isTrailingUnit (n : Nat) : Bool := 0xDC00 ≤ n && n < 0xE000

/-- The character of a pair of units. -/
def charOfPair (leading trailing : Nat) : Char :=
  Char.ofNat (0x10000 + (leading - 0xD800) * 0x400 + (trailing - 0xDC00))

/-- The character that a letter after a backslash stands for. -/
def escaped? : Char → Option Char
  | '"' => some '"'
  | '\\' => some '\\'
  | '/' => some '/'
  | 'b' => some '\x08'
  | 'f' => some '\x0c'
  | 'n' => some '\n'
  | 'r' => some '\r'
  | 't' => some '\t'
  | _ => none

/-- A part of a string. -/
inductive StringPart where
  | char (c : Char)
  /-- A unit of 16 bits, written by its number. -/
  | unit (n : Nat)
  deriving DecidableEq, Repr

/-- Reads the parts of a string after its opening quote.  Control characters must be escaped. -/
def readParts : List Char → Option (List StringPart × List Char)
  | [] => none
  | '"' :: rest => some ([], rest)
  | '\\' :: 'u' :: a :: b :: c :: d :: rest =>
      match unitOfHex? a b c d with
      | none => none
      | some unit => (readParts rest).map fun (parts, rest) => (.unit unit :: parts, rest)
  | '\\' :: c :: rest =>
      match escaped? c with
      | none => none
      | some e => (readParts rest).map fun (parts, rest) => (.char e :: parts, rest)
  | c :: rest =>
      if c.toNat < 0x20 || c = '\\' then none
      else (readParts rest).map fun (parts, rest) => (.char c :: parts, rest)

/-- The characters of a string; none when half of a pair of units stands alone. -/
def charsOfParts : List StringPart → Option (List Char)
  | [] => some []
  | .char c :: parts => (charsOfParts parts).map (c :: ·)
  | .unit n :: .unit m :: parts =>
      if isLeadingUnit n && isTrailingUnit m then (charsOfParts parts).map (charOfPair n m :: ·)
      else if isLeadingUnit n || isTrailingUnit n then none
      else (charsOfParts (.unit m :: parts)).map (Char.ofNat n :: ·)
  | .unit n :: parts =>
      if isLeadingUnit n || isTrailingUnit n then none
      else (charsOfParts parts).map (Char.ofNat n :: ·)

/-! ## Tokens -/

/-- The characters between tokens. -/
def isBlank (c : Char) : Bool := c = ' ' || c = '\n' || c = '\t' || c = '\r'

/-- Reads one token at the front of a text that starts with no blank. -/
def Token.read : List Char → Option (Token × List Char)
  | '{' :: rest => some (.openObject, rest)
  | '}' :: rest => some (.closeObject, rest)
  | '[' :: rest => some (.openArray, rest)
  | ']' :: rest => some (.closeArray, rest)
  | ',' :: rest => some (.comma, rest)
  | ':' :: rest => some (.colon, rest)
  | '"' :: rest => 
      (readParts rest).map fun (parts, rest) =>
        (.text ((charsOfParts parts).map String.ofList), rest)
  | 'n' :: 'u' :: 'l' :: 'l' :: rest => some (.scalar .null, rest)
  | 't' :: 'r' :: 'u' :: 'e' :: rest => some (.scalar (.bool true), rest)
  | 'f' :: 'a' :: 'l' :: 's' :: 'e' :: rest => some (.scalar (.bool false), rest)
  | cs => (Numeral.read cs).map fun (numeral, rest) => (.scalar numeral.document, rest)

/-- Reads tokens to the end of the text.  Every token takes a character, so that a fuel of the
length of the text and one more is enough. -/
def Token.readAll : Nat → List Char → Option (List Token)
  | 0, _ => none
  | fuel + 1, cs =>
      match cs.dropWhile isBlank with
      | [] => some []
      | c :: cs =>
          match Token.read (c :: cs) with
          | none => none
          | some (token, rest) => (readAll fuel rest).map (token :: ·)

/-- The tokens of a text. -/
def tokens? (text : String) : Option (List Token) :=
  let cs := text.toList
  Token.readAll (cs.length + 1) cs

end ReplicaKeeper.Json
