import ActionSyntax.Grammar.Rules

/-!
Jumps out of loops and `switch` statements, and where they are legal.
-/

namespace ActionSyntax.Rules

set_option autoImplicit false

open Parse

structure Jump where
  span : Span
  label : Option String
  ended : Bool

/-- The keyword, a label on the same line, and the end of the statement. -/
def jump : Parse Jump := do
  let m ← mark
  next
  let hasLabel ← if (← get).onSameLine then consumeIdentifier else pure false
  let name := (← previous).text
  let label := if hasLabel then some name else none
  let ended ← endStatement
  return { span := ← finish m, label, ended }

/-- A label has to be around; without one, the jump has to be legal by itself. -/
def checkJump (context : Context) (j : Jump) (legal : Bool) (id : ProblemId) : Parse Unit :=
  match j.label with
  | some label =>
    if context.hasLabel label then return ()
    else report .verifyError .undefinedLabel j.span [("label", .text label)]
  | none => if legal then return () else syntaxError id j.span

def breakStatement (context : Context) : Parse Ended := do
  let j ← jump
  checkJump context j (context.inIteration || context.inSwitch) .illegalBreakStatement
  return (.breakOut j.span j.label, j.ended)

def continueStatement (context : Context) : Parse Ended := do
  let j ← jump
  checkJump context j context.inIteration .illegalContinueStatement
  return (.continueOn j.span j.label, j.ended)

end ActionSyntax.Rules
