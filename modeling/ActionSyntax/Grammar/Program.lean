import ActionSyntax.Grammar.Statements

/-!
Programs: packages, and behind them statements.
-/

namespace ActionSyntax.Rules

set_option autoImplicit false

open Parse

/-- Further parts of the name of a package. -/
def packagePart? : Parse (Option String) := do
  if ← consume .dot then
    expectIf isWord
    return some (← previous).text
  else return none

/-- The name of a package, which may be missing. -/
def packageName (r : Rules) : Parse (List String) := do
  if ← consumeIdentifier then
    let first := (← previous).text
    let rest ← collectWhile packagePart? r.rounds
    return first :: rest
  else return []

def package? (r : Rules) : Parse (Option Package) := do
  if !(← atKeyword? "package") then return none
  let m ← mark
  next
  let id ← r.packageName
  let block ← r.block (Context.ofContainer .package)
  return some { span := ← finish m, id, block }

/-- The statements of a program, up to its end. -/
def programStatements (r : Rules) : Nat → Parse (List Statement)
  | 0 => exhausted
  | fuel + 1 => do
    if ← at? .endOfProgram then return []
    let (first, ended) ← r.statement (Context.ofContainer .topLevel)
    if ended then return first :: (← r.programStatements fuel) else return [first]

/-- A program. An empty one covers the whole text. -/
def program (r : Rules) : Parse Program := do
  let m ← mark
  let packages ← collectWhile r.package? r.rounds
  let statements ← r.programStatements r.rounds
  expectEnd
  let span ←
    if packages.isEmpty && statements.isEmpty then pure (← get).script.fullSpan else finish m
  return { span, packages, statements }

end ActionSyntax.Rules
