import ActionSyntax.Scan.Cursor
import ActionSyntax.Text.LineSearch

/-!
What stands between tokens: blanks, line terminators and comments. A comment runs from `//` to the
end of its line, from `/*` to the matching `*/`, where such comments nest, or from `<!--` to `-->`.
-/

namespace ActionSyntax.Scan

set_option autoImplicit false

/-- Passes a line terminator or a character inside a comment. -/
def commentChar (c : Cursor) : Except Failure Cursor :=
  match c.newline? with
  | some d => .ok d
  | none => if c.atEnd then .error (.unexpected c) else .ok c.advance

/-- Passes the inside of a nested comment with `depth` more to close, and the last delimiter. -/
def blockEnd : Nat → Nat → Cursor → Except Failure Cursor
  | 0, _, c => .error (.unexpected c)
  | fuel + 1, depth, c =>
    if c.startsWith ['/', '*'] then blockEnd fuel (depth + 1) (c.skip 2)
    else if c.startsWith ['*', '/'] then
      match depth with
      | 0 => .ok (c.skip 2)
      | depth + 1 => blockEnd fuel depth (c.skip 2)
    else do blockEnd fuel depth (← commentChar c)

/-- Passes the inside of a markup comment, and its last delimiter. -/
def markupEnd : Nat → Cursor → Except Failure Cursor
  | 0, c => .error (.unexpected c)
  | fuel + 1, c =>
    if c.startsWith ['-', '-', '>'] then .ok (c.skip 3)
    else do markupEnd fuel (← commentChar c)

/-- Notes the comment from `start` to `stop`, whose delimiters have the given widths. -/
def noteBlock (start stop : Cursor) (opening closing : Nat) : Cursor :=
  let width := stop.index - start.index - opening - closing
  let content := Utf8.takeBytes (start.skip opening).rest width
  stop.note { multiLine := true, content := String.ofList content, span := start.spanTo stop }

/-- Passes a comment that runs to the end of its line. -/
def lineComment (c : Cursor) : Cursor :=
  let inside := c.skip 2
  let width := LineSearch.distance 0 (LineSearch.bytes inside.rest)
  let content := Utf8.takeBytes inside.rest width
  let stop := { inside with
    rest := (Utf8.dropBytes? inside.rest width).getD []
    index := inside.index + width }
  stop.note { multiLine := false, content := String.ofList content, span := c.spanTo stop }

/-- Passes a comment, if one stands here. -/
def comment? (c : Cursor) : Except Failure (Option Cursor) :=
  if c.startsWith ['<', '!', '-', '-'] then do
    let stop ← markupEnd (c.rest.length + 1) (c.skip 4)
    pure (some (noteBlock c stop 4 3))
  else if c.startsWith ['/', '*'] then do
    let stop ← blockEnd (c.rest.length + 1) 0 (c.skip 2)
    pure (some (noteBlock c stop 2 2))
  else if c.startsWith ['/', '/'] then .ok (some (lineComment c))
  else .ok none

/-- One step over what stands between tokens, or nothing if a token or the end follows. -/
def triviaStep? (c : Cursor) : Except Failure (Option Cursor) :=
  match c.rest with
  | [] => .ok none
  | ch :: _ =>
    if CharClass.isBlank ch then .ok (some c.advance)
    else match c.newline? with
      | some d => .ok (some d)
      | none => comment? c

def triviaEnd : Nat → Cursor → Except Failure Cursor
  | 0, c => .ok c
  | fuel + 1, c => do
    match ← triviaStep? c with
    | some d => triviaEnd fuel d
    | none => pure c

/-- Passes everything up to the next token. -/
def trivia (c : Cursor) : Except Failure Cursor := triviaEnd (c.rest.length + 1) c

end ActionSyntax.Scan
