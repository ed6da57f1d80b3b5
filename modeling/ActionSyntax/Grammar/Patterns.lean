import ActionSyntax.Grammar.Rules
import ActionSyntax.Tree.Destructuring

/-!
Patterns and variable bindings. A pattern is read as an expression and then taken for a pattern.
-/

namespace ActionSyntax.Rules

set_option autoImplicit false

open Parse

/-- Takes an expression for a pattern, or stops at the first part that is none. -/
def asPattern (e : Expr) : Parse Pattern :=
  match Pattern.ofExpr e with
  | .ok pattern => return pattern
  | .error span => stopAt .invalidDestructuringAssignmentTarget span

def beginsPattern : TokenKind → Bool
  | .identifier | .leftBrace | .leftBracket => true
  | _ => false

/-- An operand that has to be there. -/
def primary (r : Rules) (allowTyped : Bool) : Parse Expr := do
  match ← r.optPrimary allowTyped .suffix with
  | some e => return e
  | none => unexpected

def pattern (r : Rules) : Parse Pattern := do
  if !beginsPattern (← kind) then unexpected
  asPattern (← r.primary true)

/-- A value behind `=`, if there is one. -/
def optInit (r : Rules) (allowIn : Bool) : Parse (Option Expr) := do
  if ← consume .assign then return some (← r.assignmentExpr allowIn) else return none

/-- A pattern with an optional initial value. -/
def variableBinding (r : Rules) (allowIn : Bool := true) : Parse VariableBinding := do
  let m ← mark
  let pattern ← r.pattern
  let init ← r.optInit allowIn
  return { span := ← finish m, pattern, init }

/-- Variables in the head of a loop, if they are declared there. -/
def variableDeclaration? (r : Rules) : Parse (Option VariableDeclaration) := do
  let readOnly ← atKeyword? "const"
  if !readOnly && !(← atKeyword? "var") then return none
  let m ← mark
  next
  let bindings ← separated (r.variableBinding false) r.rounds
  return some { span := ← finish m, readOnly, bindings }

end ActionSyntax.Rules
