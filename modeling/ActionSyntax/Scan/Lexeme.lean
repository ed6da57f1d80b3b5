import ActionSyntax.Scan.Name
import ActionSyntax.Scan.Numeral
import ActionSyntax.Scan.Punctuation
import ActionSyntax.Scan.Quotation

/-!
The lexeme at a cursor, once blanks and comments have been passed.
-/

namespace ActionSyntax.Scan

set_option autoImplicit false

/-- A lexeme that begins with a character no name, number or longer mark begins with. -/
def otherLexeme (ch : Char) (c : Cursor) : Except Failure (Lexeme × Cursor) :=
  if ch == '.' then
    if nextIs CharClass.isDecimalDigit (c.skip 1) then fractionLiteral c
    else .ok ({ kind := .dot }, c.skip 1)
  else if ch == '"' || ch == '\'' then stringLiteral ch c
  else if ch == '#' then unreservedName c
  else if ch == '\\' then escapedName c
  else .error (.unexpected c)

def lexeme (c : Cursor) : Except Failure (Lexeme × Cursor) :=
  match c.rest with
  | [] => .ok ({ kind := .endOfProgram }, c)
  | ch :: _ =>
    if CharClass.isIdentifierStart ch then nameFrom c [] true c
    else if CharClass.isDecimalDigit ch then numberLiteral c
    else
      match punctuation? c with
      | some reading => .ok reading
      | none => otherLexeme ch c

end ActionSyntax.Scan
