import ActionSyntax.Span

/-!
Type expressions, and the identifiers that may carry one.
-/

namespace ActionSyntax

set_option autoImplicit false

mutual

inductive TypeExpr where
  | name (span : Span) (name : String)
  | member (span : Span) (base : TypeExpr) (id : Identifier)
  | any (span : Span)
  | void (span : Span)
  | undefined (span : Span)
  | null (span : Span)
  /-- The optional parameters are absent when none was written; a parameter that was written and is
  no name leaves an empty list. -/
  | function (span : Span) (params : List Identifier) (optional : Option (List Identifier))
      (rest : Option Identifier) (result : Option TypeExpr)
  | array (span : Span) (item : TypeExpr)
  | tuple (span : Span) (items : List TypeExpr)
  | record (span : Span) (fields : List Identifier)
  | union (span : Span) (members : List TypeExpr)
  | instantiation (span : Span) (base : TypeExpr) (arguments : List TypeExpr)
  | nullable (span : Span) (base : TypeExpr)
  | nonNullable (span : Span) (base : TypeExpr)
  | parens (span : Span) (base : TypeExpr)
  | typed (span : Span) (base : TypeExpr) (type : TypeExpr)

structure Identifier where
  span : Span
  name : String
  type : Option TypeExpr := none

end

instance : Inhabited TypeExpr := ⟨.any default⟩

instance : Inhabited Identifier := ⟨{ span := default, name := "" }⟩

def TypeExpr.span : TypeExpr → Span
  | .name span .. | .member span .. | .any span | .void span | .undefined span | .null span
  | .function span .. | .array span .. | .tuple span .. | .record span .. | .union span ..
  | .instantiation span .. | .nullable span .. | .nonNullable span .. | .parens span ..
  | .typed span .. => span

/-- The members of a union, or the type alone. -/
def TypeExpr.unionMembers : TypeExpr → List TypeExpr
  | .union _ members => members
  | type => [type]

structure TypeParameter where
  span : Span
  id : Identifier
deriving Inhabited

/-- The clause `T is B`. -/
structure TypeBound where
  span : Span
  id : Identifier
  type : TypeExpr
deriving Inhabited

/-- The parameters of a definition and the bounds on them. -/
structure Generics where
  span : Span
  params : List TypeParameter
  bounds : List TypeBound
deriving Inhabited

end ActionSyntax
