import ActionSyntax.Scan.Name

/-!
Regular expression literals. A slash is first read as an operator; where an expression must begin,
the literal is read on from there.
-/

namespace ActionSyntax.Scan

set_option autoImplicit false

/-- Passes a line terminator or a character, if any is left. -/
def passAny (c : Cursor) : Except Failure Cursor :=
  match c.newline? with
  | some d => .ok d
  | none => if c.atEnd then .error (.unexpected c) else .ok c.advance

/-- Passes the body and the slash that ends it. A character behind a backslash ends nothing. -/
def regularBody : Nat → Cursor → Except Failure Cursor
  | 0, c => .error (.unexpected c)
  | fuel + 1, c => do
    if c.startsWith ['\\'] then regularBody fuel (← passAny (c.skip 1))
    else if c.startsWith ['/'] then pure (c.skip 1)
    else regularBody fuel (← passAny c)

/-- Every line terminator as a line feed. -/
def unifiedLines : List Char → List Char
  | [] => []
  | '\r' :: '\n' :: rest => '\n' :: unifiedLines rest
  | ch :: rest => (if CharClass.isLineTerminator ch then '\n' else ch) :: unifiedLines rest

/-- The flags of a literal. An escape may stand for any character. -/
def regularFlags (c : Cursor) : Except Failure (List Char × Cursor) := do
  let (read, c) ← nameChars (fun _ => true) (c.rest.length + 1) [] c
  pure (read.reverse, c)

end ActionSyntax.Scan
