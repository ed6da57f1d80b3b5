/-!
Operators. Operators that are spelled alike and mean different things are told apart: a sign and a
sum, the two places of an increment, negation and the assertion that a value is not null.
-/

namespace ActionSyntax

set_option autoImplicit false

inductive Operator where
  | await | yield | asType | asTypeStrict | instanceOf | isType | delete | typeOf | void
  | logicalNot | positive | negate | bitwiseNot | add | subtract | multiply | divide | remainder
  | power | logicalAnd | logicalXor | logicalOr | bitwiseAnd | bitwiseXor | bitwiseOr | shiftLeft
  | shiftRight | shiftRightUnsigned | equal | notEqual | strictEqual | strictNotEqual | less
  | greater | lessOrEqual | greaterOrEqual | nonNull | preIncrement | preDecrement | postIncrement
  | postDecrement | getIndex | setIndex | deleteIndex | iterateKeys | iterateValues | within
  | convertImplicit | convertExplicit | nullCoalescing
deriving DecidableEq, Repr

namespace Operator

def all : List Operator :=
  [.await, .yield, .asType, .asTypeStrict, .instanceOf, .isType, .delete, .typeOf, .void,
   .logicalNot, .positive, .negate, .bitwiseNot, .add, .subtract, .multiply, .divide, .remainder,
   .power, .logicalAnd, .logicalXor, .logicalOr, .bitwiseAnd, .bitwiseXor, .bitwiseOr,
   .shiftLeft, .shiftRight, .shiftRightUnsigned, .equal, .notEqual, .strictEqual,
   .strictNotEqual, .less, .greater, .lessOrEqual, .greaterOrEqual, .nonNull, .preIncrement,
   .preDecrement, .postIncrement, .postDecrement, .getIndex, .setIndex, .deleteIndex,
   .iterateKeys, .iterateValues, .within, .convertImplicit, .convertExplicit, .nullCoalescing]

/-- How the operator is written in a program. -/
def symbol : Operator → String
  | .await => "await"
  | .yield => "yield"
  | .asType => "as"
  | .asTypeStrict => "as!"
  | .instanceOf => "instanceof"
  | .isType => "is"
  | .delete => "delete"
  | .typeOf => "typeof"
  | .void => "void"
  | .logicalNot => "!"
  | .positive => "+"
  | .negate => "-"
  | .bitwiseNot => "~"
  | .add => "+"
  | .subtract => "-"
  | .multiply => "*"
  | .divide => "/"
  | .remainder => "%"
  | .power => "**"
  | .logicalAnd => "&&"
  | .logicalXor => "^^"
  | .logicalOr => "||"
  | .bitwiseAnd => "&"
  | .bitwiseXor => "^"
  | .bitwiseOr => "|"
  | .shiftLeft => "<<"
  | .shiftRight => ">>"
  | .shiftRightUnsigned => ">>>"
  | .equal => "=="
  | .notEqual => "!="
  | .strictEqual => "==="
  | .strictNotEqual => "!=="
  | .less => "<"
  | .greater => ">"
  | .lessOrEqual => "<="
  | .greaterOrEqual => ">="
  | .nonNull => "!"
  | .preIncrement => "++"
  | .preDecrement => "--"
  | .postIncrement => "++"
  | .postDecrement => "--"
  | .getIndex => "getIndex"
  | .setIndex => "setIndex"
  | .deleteIndex => "deleteIndex"
  | .iterateKeys => "iterateKeys"
  | .iterateValues => "iterateValues"
  | .within => "in"
  | .convertImplicit => "convertImplicit"
  | .convertExplicit => "convertExplicit"
  | .nullCoalescing => "??"

/-- The operator's name in a printed tree. -/
def title : Operator → String
  | .await => "Await"
  | .yield => "Yield"
  | .asType => "As"
  | .asTypeStrict => "AsStrict"
  | .instanceOf => "Instanceof"
  | .isType => "Is"
  | .delete => "Delete"
  | .typeOf => "Typeof"
  | .void => "Void"
  | .logicalNot => "LogicalNot"
  | .positive => "Positive"
  | .negate => "Negate"
  | .bitwiseNot => "BitwiseNot"
  | .add => "Add"
  | .subtract => "Subtract"
  | .multiply => "Multiply"
  | .divide => "Divide"
  | .remainder => "Remainder"
  | .power => "Pow"
  | .logicalAnd => "LogicalAnd"
  | .logicalXor => "LogicalXor"
  | .logicalOr => "LogicalOr"
  | .bitwiseAnd => "BitwiseAnd"
  | .bitwiseXor => "BitwiseXor"
  | .bitwiseOr => "BitwiseOr"
  | .shiftLeft => "LeftShift"
  | .shiftRight => "RightShift"
  | .shiftRightUnsigned => "UnsignedRightShift"
  | .equal => "Equals"
  | .notEqual => "NotEquals"
  | .strictEqual => "StrictEquals"
  | .strictNotEqual => "StrictNotEquals"
  | .less => "Lt"
  | .greater => "Gt"
  | .lessOrEqual => "Le"
  | .greaterOrEqual => "Ge"
  | .nonNull => "NonNull"
  | .preIncrement => "PreIncrement"
  | .preDecrement => "PreDecrement"
  | .postIncrement => "PostIncrement"
  | .postDecrement => "PostDecrement"
  | .getIndex => "ProxyGetIndex"
  | .setIndex => "ProxySetIndex"
  | .deleteIndex => "ProxyDeleteIndex"
  | .iterateKeys => "ProxyIterateKeys"
  | .iterateValues => "ProxyIterateValues"
  | .within => "In"
  | .convertImplicit => "ProxyConvertImplicit"
  | .convertExplicit => "ProxyConvertExplicit"
  | .nullCoalescing => "NullCoalescing"

/-- Whether the operator takes a single operand. -/
def isUnary : Operator → Bool
  | .await | .yield | .delete | .typeOf | .void | .logicalNot | .positive | .negate | .bitwiseNot
  | .nonNull | .preIncrement | .preDecrement | .postIncrement | .postDecrement => true
  | _ => false

def yieldsBoolean : Operator → Bool
  | .equal | .notEqual | .strictEqual | .strictNotEqual | .less | .greater | .lessOrEqual
  | .greaterOrEqual | .delete | .logicalNot | .within | .isType | .instanceOf => true
  | _ => false

/-- How many parameters a proxy method for the operator declares. -/
def proxyParameters (op : Operator) : Nat :=
  match op with
  | .getIndex | .deleteIndex | .convertImplicit | .convertExplicit | .within => 1
  | .iterateKeys | .iterateValues => 0
  | _ => if op.isUnary then 1 else 2

end Operator

end ActionSyntax
