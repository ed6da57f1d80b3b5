import ActionSyntax.Scan.Lexeme
import ActionSyntax.Scan.RegularExpression
import ActionSyntax.Scan.Trivia

/-!
The scanner of a script. Each step reads one token and hands what it passed on the way, and the
problem that stopped it, to the script.
-/

namespace ActionSyntax

set_option autoImplicit false

structure Scanner where
  script : Script
  cursor : Cursor
  token : Token

namespace Scanner

def ofScript (script : Script) : Scanner where
  script
  cursor := Cursor.ofContent script.content
  token := Token.initial

/-- Moves to a cursor and gives its notes to the script. -/
def moveTo (s : Scanner) (c : Cursor) : Scanner :=
  { s with
    script := { s.script with
      lineStarts := s.script.lineStarts ++ c.passedLines.reverse
      comments := s.script.comments ++ c.passedComments.reverse }
    cursor := { c with passedLines := [], passedComments := [] } }

/-- Stops at a failure and records its problem. -/
def stopAt (s : Scanner) (failure : Scan.Failure) : Scanner :=
  let moved := s.moveTo failure.cursor
  { moved with script := moved.script.collect failure.problem }

/-- The current token without what it said. -/
def blankToken (s : Scanner) : Token :=
  { s.token with text := "", number := Double.zero, flags := "", operator := none }

/-- The token that starts here, before anything is known about it. -/
def startedToken (s : Scanner) (c : Cursor) : Token :=
  { s.blankToken with span := { s.token.span with firstLine := c.line, start := c.index } }

/-- Reads the next token. On failure the problem is returned as well. -/
def next (s : Scanner) : Except Problem Unit × Scanner :=
  match Scan.trivia s.cursor with
  | .error failure => (.error failure.problem, { s with token := s.blankToken }.stopAt failure)
  | .ok start =>
    match Scan.lexeme start with
    | .error failure =>
      (.error failure.problem, { s with token := s.startedToken start }.stopAt failure)
    | .ok (lexeme, stop) =>
      (.ok (), { s.moveTo stop with token := { lexeme with span := start.spanTo stop } })

/-- The body of a regular expression that started with the current token. -/
def regularBodyText (s : Scanner) (stop : Cursor) : String :=
  let body := Utf8.slice? s.script.content (s.token.span.start + 1) (stop.index - 1)
  String.ofList (Scan.unifiedLines (body.getD []))

/-- Reads on from the current token, a slash, to the end of a regular expression. -/
def readRegularExpression (s : Scanner) : Except Problem Unit × Scanner :=
  match Scan.regularBody (s.cursor.rest.length + 1) s.cursor with
  | .error failure => (.error failure.problem, s.stopAt failure)
  | .ok body =>
    match Scan.regularFlags body with
    | .error failure => (.error failure.problem, s.stopAt failure)
    | .ok (flags, stop) =>
      let token : Token := { s.token with
        kind := .regularExpression
        text := s.regularBodyText body
        flags := String.ofList flags
        operator := none
        span := { s.token.span with lastLine := stop.line, stop := stop.index } }
      (.ok (), { s.moveTo stop with token })

end Scanner

end ActionSyntax
