import ActionSyntax.Keyword
import ActionSyntax.Scan.Escape

/-!
Names and reserved words. A name may hold escapes; a word that is reserved may not, and behind `#`
no word is reserved.
-/

namespace ActionSyntax.Scan

set_option autoImplicit false

/-- An escape in a name, from its backslash on. The character must be of the class. -/
def nameEscape (allowed : Char → Bool) (c : Cursor) : Except Failure (Char × Cursor) := do
  let (ch, c) ← escapedChar (c.skip 1)
  if allowed ch then pure (ch, c) else .error (.at c .invalidOrUnexpected c.place)

/-- Reads name characters and escapes of characters of the class onto those read before, which are
kept newest first. -/
def nameChars (allowed : Char → Bool) :
    Nat → List Char → Cursor → Except Failure (List Char × Cursor)
  | 0, read, c => .ok (read, c)
  | fuel + 1, read, c =>
    match c.rest with
    | [] => .ok (read, c)
    | ch :: _ =>
      if CharClass.isIdentifierPart ch then nameChars allowed fuel (ch :: read) c.advance
      else if ch == '\\' then do
        let (escaped, c) ← nameEscape allowed c
        nameChars allowed fuel (escaped :: read) c
      else .ok (read, c)

/-- Goes on with a name that began at `start`. -/
def nameFrom (start : Cursor) (read : List Char) (reserving : Bool) (c : Cursor) :
    Except Failure (Lexeme × Cursor) := do
  let (read, c) ←
    nameChars CharClass.isIdentifierPart (c.rest.length + 1) read c
  let name := String.ofList read.reverse
  if reserving && Keyword.isReserved name then
    if c.index - start.index == name.utf8ByteSize then
      pure ({ kind := .keyword, text := name }, c)
    else .error (.at c .keywordMustNotContainEscapes c.place)
  else pure ({ kind := .identifier, text := name }, c)

/-- A name that begins with an escape. -/
def escapedName (c : Cursor) : Except Failure (Lexeme × Cursor) := do
  let (ch, d) ← nameEscape CharClass.isIdentifierStart c
  nameFrom c [ch] true d

def isNamePart (ch : Char) : Bool := CharClass.isIdentifierPart ch || ch == '\\'

/-- A name behind `#`. -/
def unreservedName (c : Cursor) : Except Failure (Lexeme × Cursor) :=
  let inside := c.skip 1
  match inside.rest with
  | ch :: _ => if isNamePart ch then nameFrom c [] false inside else .error (.unexpected inside)
  | [] => .error (.unexpected inside)

end ActionSyntax.Scan
