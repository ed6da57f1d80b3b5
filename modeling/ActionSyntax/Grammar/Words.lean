import ActionSyntax.Token
import ActionSyntax.Tree.Modifier

/-!
Words that introduce definitions. Apart from the reserved ones they are names, and count only where
they are spelled out.
-/

namespace ActionSyntax.Words

set_option autoImplicit false

/-- `enum`, `namespace` and `type`, which introduce a definition in front of a name. -/
def isSoftDefinition (t : Token) : Bool :=
  t.isContextKeyword "enum" || t.isContextKeyword "namespace" || t.isContextKeyword "type"

def strictDefinitions : List String := ["class", "function", "interface", "var", "const"]

def isStrictDefinition (t : Token) : Bool := t.kind == .keyword && strictDefinitions.contains t.text

def modifier? (t : Token) : Option Modifier :=
  if t.kind == .identifier && t.rawLength == t.text.utf8ByteSize then Modifier.ofWord? t.text
  else none

def access? (t : Token) : Option Access :=
  if t.kind == .keyword then Access.ofWord? t.text else none

/-- A reserved word that begins a definition. -/
def beginsDefinition (t : Token) : Bool := isStrictDefinition t || (access? t).isSome

/-- Any word that begins a definition behind a decorator. -/
def beginsDecorated (t : Token) : Bool :=
  beginsDefinition t || isSoftDefinition t || (modifier? t).isSome

/-- The operator that a proxy method of the given name overloads. -/
def proxyOperator? (name : String) : Option Operator :=
  [("positive", Operator.positive), ("negate", .negate), ("bitNot", .bitwiseNot), ("add", .add),
   ("subtract", .subtract), ("multiply", .multiply), ("divide", .divide),
   ("remainder", .remainder), ("pow", .power), ("bitAnd", .bitwiseAnd), ("bitXor", .bitwiseXor),
   ("bitOr", .bitwiseOr), ("leftShift", .shiftLeft), ("rightShift", .shiftRight),
   ("unsignedRightShift", .shiftRightUnsigned), ("getIndex", .getIndex), ("setIndex", .setIndex),
   ("deleteIndex", .deleteIndex), ("has", .within), ("iterateKeys", .iterateKeys),
   ("iterateValues", .iterateValues), ("convertImplicit", .convertImplicit),
   ("convertExplicit", .convertExplicit)].lookup name

end ActionSyntax.Words
