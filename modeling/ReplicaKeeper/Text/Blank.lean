/-!
# Blank characters

The characters that count as white space in every script.
-/

set_option autoImplicit false

namespace ReplicaKeeper.Text

/-- Whether a character is white space. -/
def isBlank (c : Char) : Bool :=
  c.isWhitespace || c = '\x0b' || c = '\x0c' || c = '\u0085' || c = '\u00a0' || c = '\u1680' ||
    ('\u2000' ≤ c && c ≤ '\u200a') || c = '\u2028' || c = '\u2029' || c = '\u202f' ||
    c = '\u205f' || c = '\u3000'

/-- The text after the blank characters at its front. -/
def skipBlank (cs : List Char) : List Char := cs.dropWhile isBlank

end ReplicaKeeper.Text
