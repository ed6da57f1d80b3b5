import ActionSyntax.Text.IdentifierRanges

/-!
The character classes of the scanner: blanks, line terminators, digits and identifier characters.
-/

namespace ActionSyntax.CharClass

set_option autoImplicit false

/-- Space, tab, vertical tab, form feed and the no-break space. -/
def isBlank (ch : Char) : Bool :=
  ch == ' ' || ch == '\t' || ch == '\x0b' || ch == '\x0c' || ch == '\u00a0'

/-- Line feed, carriage return, line separator and paragraph separator. -/
def isLineTerminator (ch : Char) : Bool :=
  ch == '\n' || ch == '\r' || ch == '\u2028' || ch == '\u2029'

def isBinaryDigit (ch : Char) : Bool := ch == '0' || ch == '1'

def isDecimalDigit (ch : Char) : Bool := '0' ≤ ch && ch ≤ '9'

def isAsciiLetter (ch : Char) : Bool := ('a' ≤ ch && ch ≤ 'z') || ('A' ≤ ch && ch ≤ 'Z')

/-- The value of a hexadecimal digit. -/
def hexDigitValue? (ch : Char) : Option Nat :=
  if '0' ≤ ch && ch ≤ '9' then some (ch.toNat - '0'.toNat)
  else if 'a' ≤ ch && ch ≤ 'f' then some (ch.toNat - 'a'.toNat + 10)
  else if 'A' ≤ ch && ch ≤ 'F' then some (ch.toNat - 'A'.toNat + 10)
  else none

def isHexDigit (ch : Char) : Bool := (hexDigitValue? ch).isSome

def inRanges (ranges : List (Nat × Nat)) (ch : Char) : Bool :=
  ranges.any fun range => range.1 ≤ ch.toNat && ch.toNat ≤ range.2

def isAscii (ch : Char) : Bool := ch.toNat < 128

/-- Letters, `_`, `$`, and beyond ASCII what may begin a name in Unicode. -/
def isIdentifierStart (ch : Char) : Bool :=
  if isAscii ch then isAsciiLetter ch || ch == '_' || ch == '$'
  else inRanges IdentifierRanges.starting ch

/-- What begins a name, digits, and beyond ASCII what may continue a name in Unicode. -/
def isIdentifierPart (ch : Char) : Bool :=
  isIdentifierStart ch ||
    if isAscii ch then isDecimalDigit ch else inRanges IdentifierRanges.continuing ch

theorem isIdentifierPart_of_start {ch : Char} (h : isIdentifierStart ch = true) :
    isIdentifierPart ch = true := by
  simp [isIdentifierPart, h]

theorem not_blank_of_lineTerminator {ch : Char} (h : isLineTerminator ch = true) :
    isBlank ch = false := by
  simp only [isLineTerminator, Bool.or_eq_true, beq_iff_eq] at h
  rcases h with ((h | h) | h) | h <;> subst h <;> decide

end ActionSyntax.CharClass
