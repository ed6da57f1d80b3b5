import ActionSyntax.Grammar.Rules

/-!
Type expressions. Parameters of a function type written with an arrow are first read as types and
then taken for parameters: `name: T` is a typed one and `name?` an optional one.
-/

namespace ActionSyntax.Rules

set_option autoImplicit false

open Parse

/-- A name with an optional type, after the name. -/
def typedIdentifierFrom (r : Rules) (m : Mark) (name : String) : Parse Identifier := do
  let type ← r.optAnnotation
  return { span := ← finish m, name, type }

def typedIdentifier (r : Rules) : Parse Identifier := do
  let m ← mark
  let name ← expectName
  r.typedIdentifierFrom m name

/-- Type arguments, through the closing `>`. -/
def typeArguments (r : Rules) : Parse (List TypeExpr) := do
  let arguments ← separated r.typeExpr r.rounds
  expectGreater
  return arguments

/-- Parameters of a function type. -/
structure TypeParams where
  required : List Identifier := []
  optional : Option (List Identifier) := none
  rest : Option Identifier := none

/-- Adds an optional parameter. -/
def TypeParams.addOptional (p : TypeParams) (id : Identifier) : TypeParams :=
  { p with optional := some (p.optional.getD [] ++ [id]) }

def TypeParams.addRequired (p : TypeParams) (id : Identifier) : TypeParams :=
  { p with required := p.required ++ [id] }

/-- One parameter of a function type that begins with its keyword, and whether it is optional. -/
def functionTypeParam (r : Rules) : Parse (Identifier × Bool) := do
  let m ← mark
  let name ← expectName
  let optional ← consume .questionMark
  return (← r.typedIdentifierFrom m name, optional)

def functionTypeParams (r : Rules) : Nat → TypeParams → Parse TypeParams
  | 0, _ => exhausted
  | fuel + 1, params => do
    if ← at? .rightParen then return params
    if ← consume .ellipsis then return { params with rest := some (← r.typedIdentifier) }
    let (id, optional) ← r.functionTypeParam
    let t ← token
    if !optional && params.optional.isSome then
      syntaxError .requiredParamMustntFollowOptParam t.span
    let params := if optional then params.addOptional id else params.addRequired id
    if ← consume .comma then r.functionTypeParams fuel params else return params

/-- A function type, after its keyword. -/
def functionType (r : Rules) (m : Mark) : Parse TypeExpr := do
  expect .leftParen
  let params ← r.functionTypeParams r.rounds {}
  expect .rightParen
  let result ← r.optAnnotation
  return .function (← finish m) params.required params.optional params.rest result

/-- Takes a type without annotation for a parameter. -/
def convertTypeParam (type : Option TypeExpr) (params : TypeParams) : TypeExpr → Parse TypeParams
  | .nullable span (.name _ name) => return params.addOptional { span, name, type }
  | .nullable _ base => do
    syntaxError .invalidArrowFunctionParam base.span
    return { params with optional := some (params.optional.getD []) }
  | .name span name => do
    if params.optional.isSome then syntaxError .requiredParamMustntFollowOptParam span
    return params.addRequired { span, name, type }
  | other => do
    syntaxError .invalidOrUnexpected other.span
    return params

/-- Takes types written before an arrow for parameters. -/
def convertTypeParams (types : List TypeExpr) : Parse TypeParams :=
  types.foldlM
    (fun params node =>
      match node with
      | .typed _ base type => convertTypeParam (some type) params base
      | node => convertTypeParam none params node) {}

/-- The result of a function type written with an arrow, after the arrow. -/
def arrowType (r : Rules) (m : Mark) (params : TypeParams) : Parse TypeExpr := do
  let result ← r.typeExpr
  return .function (← finish m) params.required params.optional params.rest (some result)

/-- More items behind a comma, where an item may be missing behind the last comma. -/
def moreTypes (r : Rules) (ends : TokenKind → Bool) : Nat → Parse (List TypeExpr)
  | 0 => exhausted
  | fuel + 1 => do
    if ← consume .comma then
      if ends (← kind) then return []
      let first ← r.typeExpr
      return first :: (← r.moreTypes ends fuel)
    else return []

/-- An array type or a tuple type, after the bracket. -/
def bracketType (r : Rules) (m : Mark) : Parse TypeExpr := do
  if ← consume .ellipsis then
    let item ← r.typeExpr
    expect .rightBracket
    return .array (← finish m) item
  if ← consume .rightBracket then return .tuple (← finish m) []
  let first ← r.typeExpr
  if !(← at? .comma) then
    expect .rightBracket
    return .array (← finish m) first
  let rest ← r.moreTypes (· == .rightBracket) r.rounds
  expect .rightBracket
  return .tuple (← finish m) (first :: rest)

/-- The rest parameter and everything behind it, after the ellipsis. -/
def restArrowType (r : Rules) (m : Mark) (params : TypeParams) : Parse TypeExpr := do
  let rest ← r.typedIdentifier
  expect .rightParen
  expect .arrow
  r.arrowType m { params with rest := some rest }

/-- A type in parentheses, a union list or a function type, after the parenthesis. -/
def parensType (r : Rules) (m : Mark) : Parse TypeExpr := do
  if ← consume .rightParen then
    expect .arrow
    return ← r.arrowType m {}
  if ← consume .ellipsis then return ← r.restArrowType m {}
  let first ← r.typeExpr
  if !(← at? .comma) then
    expect .rightParen
    if ← consume .arrow then
      let params ← convertTypeParams [first]
      return ← r.arrowType m params
    return .parens (← finish m) first
  let rest ← r.moreTypes (fun k => k == .rightParen || k == .ellipsis) r.rounds
  let types := first :: rest
  if ← consume .ellipsis then
    let params ← convertTypeParams types
    return ← r.restArrowType m params
  expect .rightParen
  if ← consume .arrow then
    let params ← convertTypeParams types
    return ← r.arrowType m params
  return .union (← finish m) types

/-- A name, or a function type with one parameter, after the name. -/
def nameType (r : Rules) (m : Mark) : Parse TypeExpr := do
  let base := TypeExpr.name (← finish m) (← previous).text
  if ← consume .arrow then
    let params ← convertTypeParams [base]
    r.arrowType m params
  else return base

/-- What a type begins with. A `|` may stand before a union that is written line by line. -/
def typeHead (r : Rules) (m : Mark) : Parse TypeExpr := do
  if ← consumeContextKeyword "undefined" then return .undefined (← finish m)
  if ← consume .identifier then return ← r.nameType m
  if ← consumeKeyword "function" then return ← r.functionType m
  if ← consume .leftBracket then return ← r.bracketType m
  if ← consume .leftBrace then
    let fields ← separatedUntil .rightBrace r.typedIdentifier r.rounds
    expect .rightBrace
    return .record (← finish m) fields
  if ← consume .leftParen then return ← r.parensType m
  if ← consumeKeyword "void" then return .void (← finish m)
  if ← consumeOperator .multiply then return .any (← finish m)
  if ← consumeKeyword "null" then return .null (← finish m)
  if ← consumeOperator .bitwiseOr then return ← r.typeExpr
  unexpected

/-- What follows the dot behind a type. -/
def typeMember (r : Rules) (m : Mark) (base : TypeExpr) : Parse TypeExpr := do
  if ← consumeOperator .less then
    let arguments ← r.typeArguments
    return .instantiation (← finish m) base arguments
  let id ← wordIdentifier
  return .member (← finish m) base id

/-- One continuation of a type. The type behind a `|` takes the rest of a chain, whose members then
join those before it. -/
def typeSuffix? (r : Rules) (base : TypeExpr) : Parse (Option TypeExpr) := do
  let m := Mark.ofSpan base.span
  if ← consume .questionMark then return some (.nullable (← finish m) base)
  if ← consume .exclamationMark then return some (.nonNullable (← finish m) base)
  if ← consume .dot then return some (← r.typeMember m base)
  if ← consume .colon then
    let type ← r.typeExpr
    return some (.typed (m.«to» type.span) base type)
  if ← consumeOperator .bitwiseOr then
    let right ← r.typeExpr
    return some (.union (m.«to» right.span) (base.unionMembers ++ right.unionMembers))
  return none

def typeSuffixes (r : Rules) : Nat → TypeExpr → Parse TypeExpr
  | 0, _ => exhausted
  | fuel + 1, base => do
    match ← r.typeSuffix? base with
    | some longer => r.typeSuffixes fuel longer
    | none => return base

def typeExprRule (r : Rules) : Parse TypeExpr := do
  let head ← r.typeHead (← mark)
  r.typeSuffixes r.rounds head

end ActionSyntax.Rules
