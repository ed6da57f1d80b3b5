import ActionSyntax.Grammar.Rules

/-!
Type parameters of a definition, and `where` clauses that bound them.
-/

namespace ActionSyntax.Rules

set_option autoImplicit false

open Parse

def typeParameter : Parse TypeParameter := do
  let id ← identifier
  return { span := id.span, id }

/-- Type parameters behind the name of a definition, if there are any. -/
def optGenerics (r : Rules) : Parse (Option Generics) := do
  if !(← at? .dot) then return none
  let m ← mark
  next
  expectOperator .less
  let params ← separated typeParameter r.rounds
  expectGreater
  return some { span := ← finish m, params, bounds := [] }

def typeBound (r : Rules) : Parse TypeBound := do
  let m ← mark
  let id ← identifier
  expectKeyword "is"
  let type ← r.typeExpr
  return { span := ← finish m, id, type }

/-- Adds bounds. Bounds without parameters stand for themselves, at the first bounded name. -/
def addBounds (generics : Option Generics) (bounds : List TypeBound) : Generics :=
  match generics, bounds with
  | some g, bounds => { g with bounds := g.bounds ++ bounds }
  | none, first :: rest => { span := first.id.span, params := [], bounds := first :: rest }
  | none, [] => default

/-- The generics with the bounds of a `where` clause, if such a clause stands here. -/
def boundsClause? (r : Rules) (generics : Option Generics) : Parse (Option Generics) := do
  if ← consumeKeyword "where" then
    let bounds ← separated r.typeBound r.rounds
    return some (addBounds generics bounds)
  else return none

end ActionSyntax.Rules
