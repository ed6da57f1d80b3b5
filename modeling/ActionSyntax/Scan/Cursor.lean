import ActionSyntax.Script

/-!
The scanner's place in a text, with what it passed since its notes were last taken: the starts of
lines and the comments. A carriage return and a line feed behind it end one line together.
-/

namespace ActionSyntax

set_option autoImplicit false

/-- The notes are kept newest first. -/
structure Cursor where
  rest : List Char
  index : Nat
  line : Nat
  passedLines : List Nat := []
  passedComments : List Comment := []

namespace Cursor

def ofContent (content : List Char) : Cursor := { rest := content, index := 0, line := 1 }

def atEnd (c : Cursor) : Bool := c.rest.isEmpty

def place (c : Cursor) : Span := Span.point c.line c.index

/-- The range from an earlier cursor to a later one. -/
def spanTo (c d : Cursor) : Span := ⟨c.line, d.line, c.index, d.index⟩

/-- The text from an earlier cursor to a later one. -/
def textTo (c d : Cursor) : List Char := Utf8.takeBytes c.rest (d.index - c.index)

def startsWith (c : Cursor) (text : List Char) : Bool := text.isPrefixOf c.rest

/-- Passes characters that take one byte each. -/
def skip (c : Cursor) (n : Nat) : Cursor := { c with rest := c.rest.drop n, index := c.index + n }

/-- Passes one character. -/
def advance (c : Cursor) : Cursor :=
  match c.rest with
  | [] => c
  | ch :: rest => { c with rest, index := c.index + ch.utf8Size }

/-- Goes on behind a line terminator of `width` bytes. -/
def startLine (c : Cursor) (rest : List Char) (width : Nat) : Cursor :=
  { c with
    rest
    index := c.index + width
    line := c.line + 1
    passedLines := (c.index + width) :: c.passedLines }

/-- Passes a line terminator, if one stands here. -/
def newline? (c : Cursor) : Option Cursor :=
  match c.rest with
  | [] => none
  | '\r' :: '\n' :: rest => some (c.startLine rest 2)
  | ch :: rest =>
    if CharClass.isLineTerminator ch then some (c.startLine rest ch.utf8Size) else none

def note (c : Cursor) (comment : Comment) : Cursor :=
  { c with passedComments := comment :: c.passedComments }

end Cursor

namespace Scan

/-- Why scanning stopped, and where the cursor was left. -/
structure Failure where
  id : ProblemId
  span : Span
  arguments : List (String × Argument)
  cursor : Cursor

def Failure.at (c : Cursor) (id : ProblemId) (span : Span)
    (arguments : List (String × Argument) := []) : Failure :=
  { id, span, arguments, cursor := c }

/-- Whatever stops scanning is a syntax error. -/
def Failure.problem (f : Failure) : Problem :=
  { id := f.id, severity := .syntaxError, span := f.span, arguments := f.arguments }

/-- The failure for a character that cannot stand here, or for the end of the text. -/
def Failure.unexpected (c : Cursor) : Failure :=
  if c.atEnd then .at c .unexpected c.place [("t", Argument.ofKind .endOfProgram)]
  else .at c .invalidOrUnexpected c.place

end Scan

end ActionSyntax
