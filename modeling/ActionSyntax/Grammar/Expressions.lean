import ActionSyntax.Grammar.OperatorTable
import ActionSyntax.Grammar.Primary

/-!
Expressions by levels: an operand, and behind it whatever binds at least as tightly as asked for.
-/

namespace ActionSyntax.Rules

set_option autoImplicit false

open Parse

/-- Notes `await` or `yield` on the innermost function. A function that uses one must not use the
other, and `yield` needs a function around it. -/
def noteUse (op : Operator) (span : Span) : Parse Unit := do
  let s ← get
  match op, s.functions with
  | .await, use :: outer =>
    if use.usesYield then syntaxError .awaitMustntAppearInGenerator span
    else set { s with functions := { use with usesAwait := true } :: outer }
  | .yield, use :: outer =>
    if use.usesAwait then syntaxError .yieldMustntAppearInAsyncFunction span
    else set { s with functions := { use with usesYield := true } :: outer }
  | .yield, [] => syntaxError .yieldUnexpectedHere span
  | _, _ => return ()

/-- An operator and the operand behind it. -/
def unaryExpr (r : Rules) (rule : OperatorRule) (allowIn : Bool) : Parse Expr := do
  let m ← mark
  next
  let operand ← r.expr { allowIn, level := rule.operandLevel }
  let span ← finish m
  noteUse rule.operator span
  return .unary span rule.operator operand

/-- The ways in which an expression can go on. -/
inductive Continuation where
  | binary (rule : OperatorRule)
  | within
  | behind (op : Operator)
  | cast
  | typeTest (op : Operator)
  | assign
  | compoundAssign
  | conditional
  | list
  | dot
  | index
  | call
  | optionalChain
deriving DecidableEq, Repr

/-- How the current token continues an expression whose operators have at least the given level. -/
def continuation? (allowIn : Bool) (level : Precedence) (s : ParserState) : Option Continuation :=
  let t := s.token
  match (OperatorRule.between? t).filter (level ≤ ·.level) with
  | some rule => some (.binary rule)
  | none =>
    if allowIn && t.isKeyword "in" && level ≤ .relational then some .within
    else
      match (OperatorRule.behind? t).filter fun _ => s.onSameLine with
      | some op => some (.behind op)
      | none =>
        if t.isKeyword "as" then some .cast
        else if t.isContextKeyword "instanceof" then some (.typeTest .instanceOf)
        else if t.isKeyword "is" then some (.typeTest .isType)
        else
          match t.kind with
          | .assign => if level ≤ .assignment then some .assign else none
          | .compoundAssignment => if level ≤ .assignment then some .compoundAssign else none
          | .questionMark => if level ≤ .assignment then some .conditional else none
          | .comma => if level ≤ .list then some .list else none
          | .dot => some .dot
          | .leftBracket => if s.continues then some .index else none
          | .leftParen => if s.continues then some .call else none
          | .questionDot => some .optionalChain
          | _ => none

/-- What may be assigned to. Initializers are taken apart. -/
def assignmentTarget : Expr → Parse AssignmentTarget
  | e@(.array ..) | e@(.object ..) => return .pattern (← asPattern e)
  | e => return .expression e

/-- The type behind `as`, which may be strict. -/
def castContinuation (r : Rules) (m : Mark) (base : Expr) : Parse Expr := do
  let strict ← consume .exclamationMark
  if !strict then
    let _ ← consume .questionMark
  let right ← r.typeExpr
  return .typeBinary (← finish m) (if strict then .asTypeStrict else .asType) base right

/-- The expressions behind the commas of a list, the first comma being consumed. -/
def listContinuation (r : Rules) (allowIn : Bool) (m : Mark) (base : Expr) : Parse Expr := do
  let rest ← separated (r.assignmentExpr allowIn) r.rounds
  return .list (← finish m) (base :: rest)

def conditionalContinuation (r : Rules) (allowIn : Bool) (m : Mark) (base : Expr) :
    Parse Expr := do
  let consequent ← r.expr { allowIn, level := .assignment, allowTyped := false }
  expect .colon
  let alternative ← r.assignmentExpr allowIn
  return .conditional (← finish m) base consequent alternative

/-- What follows `?.`: arguments, a key or a name. -/
def optionalContinuation (r : Rules) (m : Mark) (base : Expr) : Parse Expr := do
  if ← consume .leftParen then return ← r.callContinuation m base true
  if ← consume .leftBracket then return ← r.indexContinuation m base true
  let id ← wordIdentifier
  return .member (← finish m) base id true

/-- Reads a continuation, after its first token. -/
def continueWith (r : Rules) (allowIn : Bool) (m : Mark) (base : Expr)
    (compound : Option Operator) : Continuation → Parse Expr
  | .binary rule => do
    let right ← r.expr { allowIn, level := rule.operandLevel }
    return .binary (← finish m) rule.operator base right
  | .within => do
    let right ← r.expr { allowIn, level := .shift }
    return .binary (← finish m) .within base right
  | .behind op => return .unary (← finish m) op base
  | .cast => r.castContinuation m base
  | .typeTest op => do
    let right ← r.typeExpr
    return .typeBinary (← finish m) op base right
  | .assign => do
    let left ← assignmentTarget base
    let right ← r.assignmentExpr allowIn
    return .assignment (← finish m) left none right
  | .compoundAssign => do
    let right ← r.assignmentExpr allowIn
    return .assignment (← finish m) (.expression base) compound right
  | .conditional => r.conditionalContinuation allowIn m base
  | .list => r.listContinuation allowIn m base
  | .dot => r.dotContinuation m base
  | .index => r.indexContinuation m base false
  | .call => r.callContinuation m base false
  | .optionalChain => r.optionalContinuation m base

/-- The longest expression that begins with the given one. -/
def continuations (r : Rules) (allowIn : Bool) (level : Precedence) : Nat → Expr → Parse Expr
  | 0, _ => exhausted
  | fuel + 1, base => do
    let s ← get
    match continuation? allowIn level s with
    | none => return base
    | some way =>
      next
      let longer ← r.continueWith allowIn (Mark.ofSpan base.span) base s.token.operator way
      r.continuations allowIn level fuel longer

def continued (r : Rules) (base : Expr) (allowIn : Bool := true) (level : Precedence := .list) :
    Parse Expr := r.continuations allowIn level r.rounds base

/-- What an expression begins with, operators and functions included. -/
def operand? (r : Rules) (mode : ExprMode) : Parse (Option Expr) := do
  if let some e ← r.optPrimaryRule mode.allowTyped mode.level then return some e
  let t ← token
  match (OperatorRule.front? t).filter (mode.level ≤ ·.level) with
  | some rule => return some (← r.unaryExpr rule mode.allowIn)
  | none =>
    if mode.level ≤ .assignment && t.isKeyword "function" then return some (← r.functionExpr)
    else return none

def optExprRule (r : Rules) (mode : ExprMode) : Parse (Option Expr) := do
  match ← r.operand? mode with
  | some base => return some (← r.continued base mode.allowIn mode.level)
  | none => return none

/-- An expression that has to be there. -/
def exprRule (r : Rules) (mode : ExprMode) : Parse Expr := do
  match ← r.optExprRule mode with
  | some e => return e
  | none => unexpected

end ActionSyntax.Rules
