import ActionSyntax.Precedence
import ActionSyntax.Token

/-!
The operators that a token may stand for in front of an operand or between two, with their level and
the least level of the operand that follows. That operand's level decides how chains group.
-/

namespace ActionSyntax

set_option autoImplicit false

structure OperatorRule where
  operator : Operator
  level : Precedence
  operandLevel : Precedence
deriving DecidableEq, Repr

namespace OperatorRule

private def tight (operator : Operator) : OperatorRule := ⟨operator, .unary, .unary⟩

private def onPlace (operator : Operator) : OperatorRule := ⟨operator, .unary, .suffix⟩

/-- The operator in front of an operand. -/
def front? (t : Token) : Option OperatorRule :=
  match t.kind with
  | .operator =>
    match t.operator with
    | some .add => some (tight .positive)
    | some .subtract => some (tight .negate)
    | some .bitwiseNot => some (tight .bitwiseNot)
    | some .preIncrement => some (onPlace .preIncrement)
    | some .preDecrement => some (onPlace .preDecrement)
    | _ => none
  | .keyword =>
    if t.text == "await" then some (tight .await)
    else if t.text == "yield" then some ⟨.yield, .assignment, .assignment⟩
    else if t.text == "delete" then some (onPlace .delete)
    else if t.text == "typeof" then some (tight .typeOf)
    else if t.text == "void" then some (tight .void)
    else none
  | .exclamationMark => some (tight .logicalNot)
  | _ => none

/-- The levels of an operator between two operands: its own, and that of the operand behind it. -/
def binaryLevels? : Operator → Option (Precedence × Precedence)
  | .add | .subtract => some (.additive, .multiplicative)
  | .multiply | .divide | .remainder => some (.multiplicative, .exponentiation)
  | .power => some (.exponentiation, .exponentiation)
  | .logicalAnd => some (.logicalAnd, .bitwiseOr)
  | .logicalXor => some (.logicalXor, .logicalAnd)
  | .logicalOr => some (.logicalOr, .logicalXor)
  | .nullCoalescing => some (.logicalOr, .nullCoalescing)
  | .bitwiseAnd => some (.bitwiseAnd, .equality)
  | .bitwiseXor => some (.bitwiseXor, .bitwiseAnd)
  | .bitwiseOr => some (.bitwiseOr, .bitwiseXor)
  | .shiftLeft | .shiftRight | .shiftRightUnsigned => some (.shift, .additive)
  | .equal | .notEqual | .strictEqual | .strictNotEqual => some (.equality, .relational)
  | .less | .greater | .lessOrEqual | .greaterOrEqual => some (.relational, .shift)
  | _ => none

/-- The operator between two operands. -/
def between? (t : Token) : Option OperatorRule :=
  match t.kind, t.operator with
  | .operator, some op => (binaryLevels? op).map fun levels => ⟨op, levels.1, levels.2⟩
  | _, _ => none

/-- The operator behind an operand. -/
def behind? (t : Token) : Option Operator :=
  match t.kind, t.operator with
  | .exclamationMark, _ => some .nonNull
  | .operator, some .preIncrement => some .postIncrement
  | .operator, some .preDecrement => some .postDecrement
  | _, _ => none

end OperatorRule

end ActionSyntax
