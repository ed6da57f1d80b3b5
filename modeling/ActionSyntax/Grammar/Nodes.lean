import ActionSyntax.Grammar.Patterns

/-!
Node literals: tags with attributes and children, and lists of nodes between empty tags.
-/

namespace ActionSyntax.Rules

set_option autoImplicit false

open Parse

/-- An expression in braces, after the opening one. -/
def bracedExpr (r : Rules) : Parse Expr := do
  let e ← r.expr {}
  expect .rightBrace
  return e

/-- A child of a node, or nothing where a closing tag begins, whose first token is consumed. -/
def nodeChild? (r : Rules) : Parse (Option Expr) := do
  if ← consume .closingTag then return none
  if ← at? .leftBrace then
    let m ← mark
    next
    let e ← r.bracedExpr
    return some (.spread (← finish m) e)
  return some (← r.node)

def nodeChildren (r : Rules) : Parse (List Expr) := collectWhile r.nodeChild? r.rounds

/-- Further parts of the name of a tag, each behind a colon. -/
def tagName (r : Rules) : Nat → Expr → Parse Expr
  | 0, _ => exhausted
  | fuel + 1, base => do
    if ← consume .colon then
      let id ← identifier
      let span ← finish (Mark.ofSpan base.span)
      r.tagName fuel (.member span base id false)
    else return base

def attributeValue (r : Rules) : Parse Expr := do
  if ← consume .leftBrace then r.bracedExpr else r.primary false

/-- The value of an attribute behind `=`, if it has one. -/
def optAttributeValue (r : Rules) : Parse (Option Expr) := do
  if ← consume .assign then return some (← r.attributeValue) else return none

/-- An attribute of a tag, or nothing at the end of the tag. -/
def nodeAttribute? (r : Rules) : Parse (Option NodeAttribute) := do
  if ← atOperator? .divide then return none
  if ← atOperator? .greater then return none
  let m ← mark
  let id ← identifier
  let value ← r.optAttributeValue
  return some { span := ← finish m, id, value }

/-- The name of a closing tag. -/
def closingName (r : Rules) : Parse Unit := do
  let _ ← expectName
  let _ ← collectWhile (do if ← consume .colon then some <$> expectName else return none) r.rounds

/-- The children of a node and its closing tag, or nothing for a tag that closes itself. -/
def nodeBody (r : Rules) : Parse (Option (List Expr)) := do
  if ← consumeOperator .divide then
    expectOperator .greater
    return none
  expectOperator .greater
  let children ← r.nodeChildren
  r.closingName
  expectOperator .greater
  return some children

/-- A node literal. Only the outermost may be a list of nodes. -/
def nodeRule (r : Rules) (outermost : Bool) : Parse Expr := do
  let m ← mark
  expectOperator .less
  let isList ← if outermost then consumeOperator .greater else pure false
  if isList then
    let children ← r.nodeChildren
    expectOperator .greater
    return .nodeList (← finish m) children
  let first ← identifier
  let id ← r.tagName r.rounds (.identifier first)
  let attributes ← collectWhile r.nodeAttribute? r.rounds
  let children ← r.nodeBody
  return .node (← finish m) id attributes children

end ActionSyntax.Rules
