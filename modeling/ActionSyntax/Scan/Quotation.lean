import ActionSyntax.Scan.Escape
import ActionSyntax.Token

/-!
String literals. A single pair of quotes encloses one line. Three quotes enclose any number of
lines; when a line break follows the opening quotes, the last line tells how far the others are
indented.
-/

namespace ActionSyntax.Scan

set_option autoImplicit false

def namedEscape? : Char → Option Char
  | '\'' => some '\''
  | '"' => some '"'
  | '\\' => some '\\'
  | 'b' => some '\x08'
  | 'f' => some '\x0c'
  | 'n' => some '\n'
  | 'r' => some '\r'
  | 't' => some '\t'
  | 'v' => some '\x0b'
  | '0' => some '\x00'
  | _ => none

/-- An escape in a string, from its backslash on. An escaped line terminator stands for nothing. -/
def stringEscape (c : Cursor) : Except Failure (Option Char × Cursor) :=
  let inside := c.skip 1
  match inside.rest with
  | [] => .error (.unexpected inside)
  | ch :: _ =>
    if ch == 'u' || ch == 'x' then do
      let (value, d) ← escapedChar inside
      pure (some value, d)
    else
      match namedEscape? ch with
      | some value => .ok (some value, inside.skip 1)
      | none =>
        match inside.newline? with
        | some d => .ok (none, d)
        | none => .ok (some ch, inside.advance)

/-- What has been read of a string in single quotes, its characters newest first. -/
structure QuotedText where
  chars : List Char := []
  broken : Bool := false

/-- Reads up to the closing quote and passes it. A line break is kept as a line feed. -/
def quotedBody (quote : Char) : Nat → QuotedText → Cursor → Except Failure (QuotedText × Cursor)
  | 0, _, c => .error (.unexpected c)
  | fuel + 1, read, c =>
    match c.rest with
    | [] => .error (.unexpected c)
    | ch :: _ =>
      if ch == quote then .ok (read, c.skip 1)
      else if ch == '\\' then do
        let (value, c) ← stringEscape c
        quotedBody quote fuel { read with chars := value.toList ++ read.chars } c
      else
        match c.newline? with
        | some d => quotedBody quote fuel { chars := '\n' :: read.chars, broken := true } d
        | none => quotedBody quote fuel { read with chars := ch :: read.chars } c.advance

/-- Lines read so far, newest first, and the current one, its characters newest first. -/
structure BlockText where
  lines : List (List Char) := []
  current : List Char := []

def BlockText.endLine (b : BlockText) : BlockText :=
  { lines := b.current.reverse :: b.lines, current := [] }

/-- Reads up to the three closing quotes and passes them. -/
def blockBody (quote : Char) : Nat → BlockText → Cursor → Except Failure (BlockText × Cursor)
  | 0, _, c => .error (.unexpected c)
  | fuel + 1, read, c =>
    match c.rest with
    | [] => .error (.unexpected c)
    | ch :: _ =>
      if c.startsWith [quote, quote, quote] then .ok (read.endLine, c.skip 3)
      else if ch == '\\' then do
        let (value, c) ← stringEscape c
        blockBody quote fuel { read with current := value.toList ++ read.current } c
      else
        match c.newline? with
        | some d => blockBody quote fuel read.endLine d
        | none => blockBody quote fuel { read with current := ch :: read.current } c.advance

def indent (line : List Char) : Nat := (line.takeWhile CharClass.isBlank).length

/-- The lines without the indentation of the last one, which itself stays only for what follows its
blanks. Lines are given newest first. -/
def dedented : List (List Char) → List (List Char)
  | [] => []
  | last :: before =>
    let base := indent last
    let lines := before.reverse.map fun line => line.drop (min base (indent line))
    if (last.drop base).isEmpty then lines else lines ++ [last.drop base]

def joinLines : List (List Char) → List Char
  | [] => []
  | [line] => line
  | line :: rest => line ++ '\n' :: joinLines rest

/-- The value of a literal in three quotes, from its lines, newest first. -/
def blockValue (startsWithBreak : Bool) (lines : List (List Char)) : List Char :=
  joinLines (if startsWithBreak && 1 < lines.length then dedented lines else lines.reverse)

/-- A literal in three quotes, from behind the opening ones. -/
def blockLiteral (quote : Char) (c : Cursor) : Except Failure (Lexeme × Cursor) := do
  let first := c.newline?
  let inside := first.getD c
  let (read, c) ← blockBody quote (inside.rest.length + 1) {} inside
  pure ({ kind := .string, text := String.ofList (blockValue first.isSome read.lines) }, c)

/-- A literal that starts with the given quote. -/
def stringLiteral (quote : Char) (c : Cursor) : Except Failure (Lexeme × Cursor) := do
  if c.startsWith [quote, quote, quote] then blockLiteral quote (c.skip 3)
  else
    let inside := c.skip 1
    let (read, d) ← quotedBody quote (inside.rest.length + 1) {} inside
    if read.broken then .error (.at d .stringMustNotContainLineBreaks (c.spanTo d))
    else pure ({ kind := .string, text := String.ofList read.chars.reverse }, d)

end ActionSyntax.Scan
