import ActionSyntax.Tree.Node

/-!
Expressions read as patterns. Names, array initializers and object initializers are patterns; inside
an array a spread item takes the rest, and inside an object no spread is possible.
-/

namespace ActionSyntax

set_option autoImplicit false

mutual

/-- The pattern that an expression spells, or the range of the first part that is none. -/
def Pattern.ofExpr : Expr → Except Span Pattern
  | .identifier id => .ok (.name id.span id.name id.type)
  | .array span items type => do return .array span (← Pattern.ofItems items) type
  | .object span fields type => do return .object span (← Pattern.ofFields fields) type
  | other => .error other.span

def Pattern.ofItems : List (Option Expr) → Except Span (List PatternItem)
  | [] => .ok []
  | none :: rest => do return .hole :: (← Pattern.ofItems rest)
  | some (.spread span e) :: rest => do
    let pattern ← Pattern.ofExpr e
    return .spread span pattern :: (← Pattern.ofItems rest)
  | some e :: rest => do
    let pattern ← Pattern.ofExpr e
    return .pattern pattern :: (← Pattern.ofItems rest)

def Pattern.ofFields : List ObjectItem → Except Span (List PatternField)
  | [] => .ok []
  | .spread span _ :: _ => .error span
  | .field span key none :: rest => do
    return { span, key, pattern := none } :: (← Pattern.ofFields rest)
  | .field span key (some value) :: rest => do
    let pattern ← Pattern.ofExpr value
    return { span, key, pattern := some pattern } :: (← Pattern.ofFields rest)

end

end ActionSyntax
