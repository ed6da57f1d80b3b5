import ActionSyntax.Grammar.Generics
import ActionSyntax.Grammar.Patterns

/-!
What all functions share: parameters, result, clauses and body. While a body is being read, its uses
of `await` and `yield` are noted on top of the functions around it.
-/

namespace ActionSyntax.Rules

set_option autoImplicit false

open Parse

/-- Parameters of a function. -/
structure Params where
  required : List VariableBinding := []
  optional : List VariableBinding := []
  rest : Option VariableBinding := none

/-- Adds a parameter, which is optional if it has an initial value. -/
def Params.add (p : Params) (binding : VariableBinding) : Params :=
  if binding.init.isSome then { p with optional := p.optional ++ [binding] }
  else { p with required := p.required ++ [binding] }

/-- A rest parameter, after the ellipsis. -/
def restParam (r : Rules) : Parse VariableBinding := do
  let binding ← r.variableBinding
  if binding.init.isSome then syntaxError .restParamMustntHaveInit binding.span
  return binding

def functionParams (r : Rules) : Nat → Params → Parse Params
  | 0, _ => exhausted
  | fuel + 1, params => do
    if ← at? .rightParen then return params
    if ← consume .ellipsis then return { params with rest := some (← r.restParam) }
    let binding ← r.variableBinding
    if binding.init.isNone && !params.optional.isEmpty then
      syntaxError .requiredParamMustntFollowOptParam binding.span
    let params := params.add binding
    if ← consume .comma then r.functionParams fuel params else return params

/-- The types behind `throws`; several of them read as their union. -/
def throwsType (r : Rules) : Parse TypeExpr := do
  match ← separated r.typeExpr r.rounds with
  | [single] => return single
  | types => return .union (← finish (Mark.ofSpan (types.headD default).span)) types

/-- The clauses of a signature. -/
structure Clauses where
  throws : Option TypeExpr := none
  generics : Option Generics := none

def functionClauses (r : Rules) : Nat → Clauses → Parse Clauses
  | 0, _ => exhausted
  | fuel + 1, clauses => do
    if ← consumeKeyword "throws" then
      let word ← previous
      if clauses.throws.isSome then syntaxError .throwsClauseMustntRepeat word.span
      let type ← r.throwsType
      r.functionClauses fuel { clauses with throws := some type }
    else
      match ← r.boundsClause? clauses.generics with
      | some generics => r.functionClauses fuel { clauses with generics := some generics }
      | none => return clauses

/-- What a function is part of: an expression, a definition, or the definition of a constructor. -/
inductive FunctionRole where
  | expression | definition | constructor
deriving DecidableEq, Repr

/-- Tries to end a statement, where there is one to end. -/
def endsHere (defines : Bool) : Parse Bool := if defines then endStatement else return false

/-- The body of a function, and whether it ends a statement. A definition may go without. -/
def functionBody (r : Rules) (role : FunctionRole) : Parse (Option FunctionBody × Bool) := do
  let defines := role != .expression
  if ← at? .leftBrace then
    let block ← r.block (Context.functionBody (role == .constructor))
    return (some (.block block), true)
  if ← endsHere defines then return (none, true)
  let body ← r.assignmentExpr
  let ended ← endsHere defines
  return (some (.expression body), ended)

/-- A function from its parameters on. -/
structure FunctionParts where
  common : FunctionCommon
  generics : Option Generics
  ended : Bool

def functionParts (r : Rules) (generics : Option Generics) (role : FunctionRole) :
    Parse FunctionParts := do
  let m ← mark
  expect .leftParen
  let params ← r.functionParams r.rounds {}
  expect .rightParen
  let result ← r.optAnnotation
  let clauses ← r.functionClauses r.rounds { generics }
  let ((body, ended), use) ← inFunction (r.functionBody role)
  let common : FunctionCommon :=
    { span := ← finish m
      usesAwait := use.usesAwait
      usesYield := use.usesYield
      params := params.required
      optional := params.optional
      rest := params.rest
      result
      throws := clauses.throws
      body }
  return { common, generics := clauses.generics, ended }

/-- A function expression, from its keyword on. -/
def functionExpr (r : Rules) : Parse Expr := do
  let m ← mark
  expectKeyword "function"
  let id ← if ← consumeIdentifier then some <$> previousIdentifier else pure none
  let parts ← r.functionParts none .expression
  let span ← finish m
  if parts.common.body.isNone then syntaxError .functionMustveBody ((id.map (·.span)).getD span)
  return .function span id parts.common

/-- Takes an expression in parentheses for a parameter. -/
def addArrowParam (params : Params) (e : Expr) : Parse Params := do
  match e with
  | .assignment _ (.expression left) none right =>
    let pattern ← asPattern left
    return params.add { span := left.span.«to» right.span, pattern, init := some right }
  | .assignment span .. =>
    syntaxError .invalidArrowFunctionParam span
    return params
  | e =>
    let pattern ← asPattern e
    if !params.optional.isEmpty then syntaxError .requiredParamMustntFollowOptParam e.span
    return params.add { span := e.span, pattern, init := none }

def arrowParams (expressions : List Expr) : Parse Params := expressions.foldlM addArrowParam {}

/-- The body of a function written with an arrow. -/
def arrowBody (r : Rules) : Parse FunctionBody := do
  if ← at? .leftBrace then
    let block ← r.block (Context.functionBody false)
    return .block block
  else
    let value ← r.assignmentExpr
    return .expression value

/-- A function written with an arrow, after the arrow. -/
def arrowFunction (r : Rules) (m : Mark) (params : Params) (result : Option TypeExpr) :
    Parse Expr := do
  let (body, use) ← inFunction r.arrowBody
  let span ← finish m
  let common : FunctionCommon :=
    { span
      usesAwait := use.usesAwait
      usesYield := use.usesYield
      params := params.required
      optional := params.optional
      rest := params.rest
      result
      throws := none
      body := some body }
  return .function span none common

end ActionSyntax.Rules
