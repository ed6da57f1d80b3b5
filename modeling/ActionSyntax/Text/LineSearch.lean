import ActionSyntax.Text.Utf8

/-!
The search for the end of a line over the bytes of a text, without decoding them. A line ends at a
line feed, at a carriage return, and at the three bytes of a line or paragraph separator.
-/

namespace ActionSyntax.LineSearch

set_option autoImplicit false

def bytes (text : List Char) : List UInt8 := text.flatMap String.utf8EncodeChar

/-- Whether the bytes after a lead byte `E2` complete a line or paragraph separator. -/
def completesSeparator : List UInt8 → Bool
  | 0x80 :: b :: _ => b == 0xA8 || b == 0xA9
  | _ => false

/-- Whether a line terminator begins at the head of the bytes. -/
def startsTerminator : List UInt8 → Bool
  | [] => false
  | b :: rest => b == 0x0A || b == 0x0D || (b == 0xE2 && completesSeparator rest)

/-- The number of bytes before the first line terminator, or of all bytes, added to `passed`. -/
def distance (passed : Nat) : List UInt8 → Nat
  | [] => passed
  | b :: rest => if startsTerminator (b :: rest) then passed else distance (passed + 1) rest

/-- The offset of the first line terminator at or after `start`, or the length of the text. -/
def lineEnd (text : List Char) (start : Nat) : Nat :=
  distance start ((bytes text).drop start)

end ActionSyntax.LineSearch
