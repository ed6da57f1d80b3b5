import ActionSyntax.Grammar.Expressions

/-!
Loops and conditional statements.
-/

namespace ActionSyntax.Rules

set_option autoImplicit false

open Parse

/-- The expression in parentheses at the head of a statement. -/
def headExpr (r : Rules) : Parse Expr := do
  expect .leftParen
  let e ← r.expr {}
  expect .rightParen
  return e

def ifStatement (r : Rules) (context : Context) : Parse Ended := do
  let m ← mark
  next
  let test ← r.headExpr
  let (consequent, ended) ← r.statement context.nested
  let hasElse ← if ended then consumeKeyword "else" else pure false
  if hasElse then
    let (alternative, ended) ← r.statement context.nested
    return (.ifElse (← finish m) test consequent (some alternative), ended)
  else return (.ifElse (← finish m) test consequent none, ended)

def doStatement (r : Rules) (context : Context) : Parse Ended := do
  let m ← mark
  next
  let (body, ended) ← r.statement context.loopBody
  if !ended then unexpected
  expectKeyword "while"
  let test ← r.headExpr
  return (.doWhile (← finish m) body test, true)

def whileStatement (r : Rules) (context : Context) : Parse Ended := do
  let m ← mark
  next
  let test ← r.headExpr
  let (body, ended) ← r.statement context.loopBody
  return (.whileDo (← finish m) test body, ended)

/-- Whether a declaration may stand before `in`: one variable without a value. -/
def isForInDeclaration (declaration : VariableDeclaration) : Bool :=
  declaration.bindings.length ≤ 1 && declaration.bindings.all (·.init.isNone)

/-- A loop over a collection, after `in`. -/
def forInStatement (r : Rules) (context : Context) (m : Mark) (iteratesKeys : Bool)
    (left : ForBinding) : Parse Ended := do
  if let .variable declaration := left then
    if !isForInDeclaration declaration then syntaxError .malformedForInBinding declaration.span
  let right ← r.expr {}
  expect .rightParen
  let (body, ended) ← r.statement context.loopBody
  return (.forIn (← finish m) iteratesKeys left right body, ended)

/-- What a loop over values binds. -/
def eachBinding (r : Rules) : Parse ForBinding := do
  match ← r.variableDeclaration? with
  | some declaration => return .variable declaration
  | none => return .expression (← r.expr { allowIn := false, level := .suffix })

/-- A loop over values, after `each`. -/
def forEachStatement (r : Rules) (context : Context) (m : Mark) : Parse Ended := do
  expect .leftParen
  let left ← r.eachBinding
  expectKeyword "in"
  r.forInStatement context m false left

/-- What stands first in the head of a loop: nothing, or a binding that `in` may follow. -/
def forHead (r : Rules) : Parse (Option ForBinding) := do
  match ← r.variableDeclaration? with
  | some declaration => return some (.variable declaration)
  | none =>
    match ← r.optExpr { allowIn := false, level := .suffix } with
    | some e => return some (.expression e)
    | none => return none

/-- The rest of an initial expression, when no `in` follows. -/
def forInit (r : Rules) : ForBinding → Parse ForBinding
  | .variable declaration => return .variable declaration
  | .expression e => return .expression (← r.continued e false)

/-- A loop with an initial part, a test and an update, after the initial part. -/
def forRest (r : Rules) (context : Context) (m : Mark) (init : Option ForBinding) :
    Parse Ended := do
  expect .semicolon
  let test ← if ← at? .semicolon then pure none else some <$> r.expr {}
  expect .semicolon
  let update ← if ← at? .rightParen then pure none else some <$> r.expr {}
  expect .rightParen
  let (body, ended) ← r.statement context.loopBody
  return (.forLoop (← finish m) init test update body, ended)

def forStatement (r : Rules) (context : Context) : Parse Ended := do
  let m ← mark
  next
  if ← consumeContextKeyword "each" then return ← r.forEachStatement context m
  expect .leftParen
  match ← r.forHead with
  | none => r.forRest context m none
  | some head =>
    if ← consumeKeyword "in" then r.forInStatement context m true head
    else
      let init ← r.forInit head
      r.forRest context m (some init)

/-- The statements of a case, and whether all of them were properly ended. -/
def caseStatements (r : Rules) (context : Context) : Nat → Parse (List Statement × Bool)
  | 0 => exhausted
  | fuel + 1 => do
    let t ← token
    if t.isKeyword "case" || t.isKeyword "default" || t.kind == .rightBrace then return ([], true)
    let (first, ended) ← r.statement context
    if ended then
      let (rest, allEnded) ← r.caseStatements context fuel
      return (first :: rest, allEnded)
    else return ([first], false)

/-- The test of a case, which the default goes without. -/
def caseTest (r : Rules) : Parse (Option Expr) := do
  if ← consumeKeyword "case" then some <$> r.expr { allowTyped := false }
  else
    expectKeyword "default"
    return none

/-- The cases of a `switch`. A case that was not properly ended is the last. -/
def switchCases (r : Rules) (context : Context) : Nat → Parse (List SwitchCase)
  | 0 => exhausted
  | fuel + 1 => do
    if ← at? .rightBrace then return []
    let m ← mark
    let test ← r.caseTest
    expect .colon
    let (consequent, ended) ← r.caseStatements context r.rounds
    let first : SwitchCase := { span := ← finish m, test, consequent }
    if ended then return first :: (← r.switchCases context fuel) else return [first]

/-- What a case of a `switch type` is for, if one stands here: a pattern, or all that is left. -/
def typeCaseHead? (r : Rules) : Parse (Option (Option Pattern)) := do
  if ← consumeKeyword "case" then
    expect .leftParen
    let pattern ← r.pattern
    expect .rightParen
    return some (some pattern)
  if ← consumeKeyword "default" then return some none
  return none

/-- A case of a `switch type`, if one stands here. -/
def typeCase? (r : Rules) (context : Context) : Parse (Option TypeCase) := do
  let m ← mark
  match ← r.typeCaseHead? with
  | none => return none
  | some pattern =>
    let block ← r.block context.nested
    return some { span := ← finish m, pattern, block }

def switchTypeStatement (r : Rules) (context : Context) (m : Mark) : Parse Ended := do
  let discriminant ← r.headExpr
  expect .leftBrace
  let cases ← collectWhile (r.typeCase? context) r.rounds
  expect .rightBrace
  return (.switchType (← finish m) discriminant cases, true)

def switchStatement (r : Rules) (context : Context) : Parse Ended := do
  let m ← mark
  next
  if ← consumeContextKeyword "type" then return ← r.switchTypeStatement context m
  let discriminant ← r.headExpr
  expect .leftBrace
  let cases ← r.switchCases context.switchBody r.rounds
  expect .rightBrace
  return (.switchValue (← finish m) discriminant cases, true)

end ActionSyntax.Rules
