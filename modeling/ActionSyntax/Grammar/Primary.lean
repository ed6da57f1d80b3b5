import ActionSyntax.Grammar.Functions
import ActionSyntax.Grammar.Nodes
import ActionSyntax.Grammar.Types
import ActionSyntax.Precedence

/-!
What an expression can begin with, apart from operators and the `function` keyword.
-/

namespace ActionSyntax.Rules

set_option autoImplicit false

open Parse

/-- Arguments of a call, through the closing parenthesis. -/
def arguments (r : Rules) : Parse (List Expr) := do
  let items ← separatedUntil .rightParen r.assignmentExpr r.rounds
  expect .rightParen
  return items

/-- What follows a dot: type arguments or a name. -/
def dotContinuation (r : Rules) (m : Mark) (base : Expr) : Parse Expr := do
  if ← consumeOperator .less then
    let arguments ← r.typeArguments
    return .instantiation (← finish m) base arguments
  let id ← wordIdentifier
  return .member (← finish m) base id false

/-- The key of an index and the closing bracket. -/
def indexContinuation (r : Rules) (m : Mark) (base : Expr) (optional : Bool) : Parse Expr := do
  let key ← r.expr {}
  expect .rightBracket
  return .index (← finish m) base key optional

def callContinuation (r : Rules) (m : Mark) (base : Expr) (optional : Bool) : Parse Expr := do
  let arguments ← r.arguments
  return .call (← finish m) base arguments optional

/-- An expression that begins with the name just consumed. -/
def identifierPrimary (r : Rules) (allowTyped : Bool) : Parse Expr := do
  let t ← previous
  let m := Mark.ofSpan t.span
  let isTyped ← if allowTyped then consume .colon else pure false
  if isTyped then
    let type ← r.typeExpr
    return .identifier { span := ← finish m, name := t.text, type := some type }
  if t.isContextKeyword "embed" && (← at? .string) then
    next
    let source := (← previous).text
    let type ← r.optAnnotation
    return .embed (← finish m) source type
  let id := Expr.identifier { span := ← finish m, name := t.text }
  if ← consume .arrow then
    let params ← arrowParams [id]
    r.arrowFunction m params none
  else return id

/-- What is found between parentheses: expressions, and whether an ellipsis stopped them, which
begins a rest parameter. -/
def parensItems (r : Rules) : Nat → List Expr → Parse (List Expr × Bool)
  | 0, _ => exhausted
  | fuel + 1, items => do
    if ← consume .ellipsis then return (items, true)
    let e ← r.assignmentExpr
    if ← consume .comma then r.parensItems fuel (items ++ [e]) else return (items ++ [e], false)

/-- A function with a rest parameter, after the ellipsis. -/
def restArrowFunction (r : Rules) (m : Mark) (items : List Expr) : Parse Expr := do
  let params ← arrowParams items
  let rest ← r.restParam
  expect .rightParen
  let result ← r.optAnnotation
  expect .arrow
  r.arrowFunction m { params with rest := some rest } result

/-- An expression out of those between parentheses. -/
def parensContent : List Expr → Parse Expr
  | [] => unexpected
  | [single] => return single
  | first :: rest =>
    return .list (first.span.«to» ((rest.getLast?.getD first).span)) (first :: rest)

/-- A function written with an arrow, or an expression in parentheses, after the opening one. -/
def parensOrArrow (r : Rules) (m : Mark) : Parse Expr := do
  if ← consume .rightParen then
    expect .arrow
    return ← r.arrowFunction m {} none
  let (items, atRest) ← r.parensItems r.rounds []
  if atRest then return ← r.restArrowFunction m items
  expect .rightParen
  if ← consume .colon then
    let params ← arrowParams items
    let result ← r.typeExpr
    expect .arrow
    return ← r.arrowFunction m params (some result)
  if ← consume .arrow then
    let params ← arrowParams items
    return ← r.arrowFunction m params none
  let content ← parensContent items
  return .parens (← finish m) content

/-- Where only a tight operand may stand, parentheses begin no function. -/
def parensPrimary (r : Rules) (m : Mark) (level : Precedence) : Parse Expr := do
  if Precedence.assignment < level then
    let e ← r.expr {}
    expect .rightParen
    return .parens (← finish m) e
  else r.parensOrArrow m

/-- The key of a field that has to have a value. -/
def objectKey (r : Rules) : Parse Expr := do
  if ← consume .leftBracket then
    let key ← r.assignmentExpr
    expect .rightBracket
    return key
  if ← consume .number then
    let t ← previous
    return .number t.span t.number
  expect .string
  let t ← previous
  return .string t.span t.text

/-- The key of a field, and its value. Only a name may go without a value. -/
def objectField (r : Rules) : Parse (Expr × Option Expr) := do
  if ← consumeIdentifier then
    let t ← previous
    if ← consume .colon then
      let value ← r.assignmentExpr
      return (.string t.span t.text, some value)
    else return (.string t.span t.text, none)
  let key ← r.objectKey
  expect .colon
  let value ← r.assignmentExpr
  return (key, some value)

def objectItem (r : Rules) : Parse ObjectItem := do
  let m ← mark
  if ← consume .ellipsis then
    let e ← r.assignmentExpr
    return .spread (← finish m) e
  let (key, value) ← r.objectField
  return .field (← finish m) key value

/-- An object initializer, after the brace. -/
def objectInitializer (r : Rules) (m : Mark) : Parse Expr := do
  let fields ← separatedUntil .rightBrace r.objectItem r.rounds
  expect .rightBrace
  let type ← r.optAnnotation
  return .object (← finish m) fields type

def arrayItem (r : Rules) : Parse Expr := do
  let m ← mark
  if ← consume .ellipsis then
    let e ← r.assignmentExpr
    return .spread (← finish m) e
  r.assignmentExpr

/-- The items of an array. A comma where an item could begin is a hole. -/
def arrayItems (r : Rules) : Nat → Parse (List (Option Expr))
  | 0 => exhausted
  | fuel + 1 => do
    if ← consume .comma then return none :: (← r.arrayItems fuel)
    if ← at? .rightBracket then return []
    let item ← r.arrayItem
    if ← consume .comma then return some item :: (← r.arrayItems fuel)
    else return [some item]

/-- An array initializer, after the bracket. -/
def arrayInitializer (r : Rules) (m : Mark) : Parse Expr := do
  let items ← r.arrayItems r.rounds
  expect .rightBracket
  let type ← r.optAnnotation
  return .array (← finish m) items type

/-- Members, type arguments and indices behind the name of a class. -/
def newBase (r : Rules) : Nat → Expr → Parse Expr
  | 0, _ => exhausted
  | fuel + 1, base => do
    let m := Mark.ofSpan base.span
    if ← consume .dot then
      let longer ← r.dotContinuation m base
      r.newBase fuel longer
    else
      let s ← get
      if s.token.kind == .leftBracket && s.continues then
        next
        let longer ← r.indexContinuation m base false
        r.newBase fuel longer
      else return base

/-- The creation of an object, after its keyword. -/
def newExpr (r : Rules) (m : Mark) : Parse Expr := do
  let first ← r.primary false
  let base ← r.newBase r.rounds first
  let arguments ← if ← consume .leftParen then r.arguments else pure []
  return .new (← finish m) base arguments

/-- A regular expression, at the slash that begins it. -/
def regularExpression (m : Mark) : Parse Expr := do
  scan Scanner.readRegularExpression
  next
  let t ← previous
  return .regularExpression (← finish m) t.text t.flags

def beginsRegularExpression (t : Token) : Bool :=
  t.isOperator .divide || t.isCompoundAssignment .divide

/-- A literal or a word that stands for a value. -/
def simplePrimary? (r : Rules) (m : Mark) : Parse (Option Expr) := do
  if ← consumeKeyword "default" then
    expect .leftParen
    let type ← r.typeExpr
    expect .rightParen
    return some (.defaultOf (← finish m) type)
  if ← consumeKeyword "this" then return some (.this (← finish m))
  if ← consumeKeyword "import" then
    expect .dot
    expectContextKeyword "meta"
    return some (.importMeta (← finish m))
  if ← consumeKeyword "null" then return some (.null (← finish m))
  if ← consume .string then return some (.string (← finish m) (← previous).text)
  if ← consume .number then return some (.number (← finish m) (← previous).number)
  if ← consumeKeyword "true" then return some (.boolean (← finish m) true)
  if ← consumeKeyword "false" then return some (.boolean (← finish m) false)
  if beginsRegularExpression (← token) then return some (← regularExpression m)
  if ← consumeKeyword "super" then return some (.super (← finish m))
  return none

/-- What an expression begins with, if that is no operator. -/
def optPrimaryRule (r : Rules) (allowTyped : Bool) (level : Precedence) : Parse (Option Expr) := do
  let m ← mark
  if ← consumeIdentifier then return some (← r.identifierPrimary allowTyped)
  if let some e ← r.simplePrimary? m then return some e
  if ← consume .leftParen then return some (← r.parensPrimary m level)
  if ← consume .leftBrace then return some (← r.objectInitializer m)
  if ← consume .leftBracket then return some (← r.arrayInitializer m)
  if ← consumeKeyword "new" then return some (← r.newExpr m)
  if ← atOperator? .less then return some (← r.nodeRule true)
  return none

end ActionSyntax.Rules
