import ActionSyntax.Grammar.Levels

/-!
Parsers. A parser stands at a token of a script; each entry point reads one construct from there to
the end of the text. It answers with a tree only if the script is still valid at the end.
-/

namespace ActionSyntax

set_option autoImplicit false

structure Parser where
  host : Host
  state : ParserState

namespace Parser

def script (p : Parser) : Script := p.state.script

/-- A parser at the first token. A problem with that token is recorded in the script. -/
def ofScript (host : Host) (script : Script) : Parser where
  host
  state :=
    match Parse.scan Scanner.next (ParserState.ofScript script) with
    | .ok () s => s
    | .error _ s => s

/-- The parser on a changed script. -/
def withScript (p : Parser) (script : Script) : Parser :=
  { p with state := { p.state with scanner := { p.state.scanner with script } } }

/-- A construct and the end of the text behind it. -/
def toEnd {α : Type} (construct : Parse α) : Parse α := do
  let value ← construct
  Parse.expectEnd
  return value

/-- Reads a construct from the current token to the end. -/
def run {α : Type} (p : Parser) (construct : Rules → Parse α) : Option α × Parser :=
  if !p.script.isValid then (none, p)
  else
    match toEnd (construct (Rules.ofHost p.host p.script)) p.state with
    | .ok value s => (if s.script.isValid then some value else none, { p with state := s })
    | .error _ s => (none, { p with state := s })

def parseProgram (p : Parser) : Option Program × Parser := p.run Rules.program

def parseStatement (p : Parser) : Option Statement × Parser :=
  p.run fun r => do
    let (statement, _) ← r.statementRule {}
    return statement

def parseExpressionWith (p : Parser) (allowIn : Bool) (level : Precedence) :
    Option Expr × Parser := p.run fun r => r.exprRule { allowIn, level }

def parseExpression (p : Parser) : Option Expr × Parser := p.parseExpressionWith true .list

def parseType (p : Parser) : Option TypeExpr × Parser := p.run Rules.typeExprRule

end Parser

end ActionSyntax
