import ActionSyntax.Number.Double
import ActionSyntax.Operator
import ActionSyntax.Script
import ActionSyntax.Tree.Modifier
import ActionSyntax.Tree.Type

/-!
The tree of a program: patterns, expressions, functions, statements and definitions. They contain
each other, since a function is an expression and its body holds statements.
-/

namespace ActionSyntax

set_option autoImplicit false

mutual

/-- What a value is taken apart by. -/
inductive Pattern where
  | name (span : Span) (name : String) (type : Option TypeExpr)
  | object (span : Span) (fields : List PatternField) (type : Option TypeExpr)
  | array (span : Span) (items : List PatternItem) (type : Option TypeExpr)

structure PatternField where
  span : Span
  key : Expr
  pattern : Option Pattern

inductive PatternItem where
  | hole
  | pattern (pattern : Pattern)
  | spread (span : Span) (pattern : Pattern)

structure VariableBinding where
  span : Span
  pattern : Pattern
  init : Option Expr

inductive Expr where
  | identifier (id : Identifier)
  | embed (span : Span) (source : String) (type : Option TypeExpr)
  | unary (span : Span) (operator : Operator) (operand : Expr)
  | binary (span : Span) (operator : Operator) (left right : Expr)
  | typeBinary (span : Span) (operator : Operator) (left : Expr) (right : TypeExpr)
  | defaultOf (span : Span) (type : TypeExpr)
  | function (span : Span) (id : Option Identifier) (common : FunctionCommon)
  | object (span : Span) (fields : List ObjectItem) (type : Option TypeExpr)
  | spread (span : Span) (expression : Expr)
  | array (span : Span) (items : List (Option Expr)) (type : Option TypeExpr)
  | nodeList (span : Span) (children : List Expr)
  | node (span : Span) (id : Expr) (attributes : List NodeAttribute) (children : Option (List Expr))
  | member (span : Span) (base : Expr) (id : Identifier) (optional : Bool)
  | index (span : Span) (base key : Expr) (optional : Bool)
  | call (span : Span) (base : Expr) (arguments : List Expr) (optional : Bool)
  | importMeta (span : Span)
  | this (span : Span)
  | string (span : Span) (value : String)
  | null (span : Span)
  | boolean (span : Span) (value : Bool)
  | number (span : Span) (value : Double)
  | regularExpression (span : Span) (body flags : String)
  | conditional (span : Span) (test consequent alternative : Expr)
  | parens (span : Span) (expression : Expr)
  | list (span : Span) (expressions : List Expr)
  | instantiation (span : Span) (base : Expr) (arguments : List TypeExpr)
  | assignment (span : Span) (left : AssignmentTarget) (compound : Option Operator) (right : Expr)
  | new (span : Span) (base : Expr) (arguments : List Expr)
  | super (span : Span)

inductive ObjectItem where
  | field (span : Span) (key : Expr) (value : Option Expr)
  | spread (span : Span) (expression : Expr)

structure NodeAttribute where
  span : Span
  id : Identifier
  value : Option Expr

inductive AssignmentTarget where
  | expression (expression : Expr)
  | pattern (pattern : Pattern)

/-- What all functions have. The span runs from the parameters to the end. -/
structure FunctionCommon where
  span : Span
  usesAwait : Bool
  usesYield : Bool
  params : List VariableBinding
  optional : List VariableBinding
  rest : Option VariableBinding
  result : Option TypeExpr
  throws : Option TypeExpr
  body : Option FunctionBody

inductive FunctionBody where
  | block (block : Block)
  | expression (expression : Expr)

structure Block where
  span : Span
  statements : List Statement

/-- What stands before the keyword of a definition. -/
structure Attributes where
  decorators : Option (List Expr) := none
  modifiers : Modifiers := {}
  access : Option Access := none

inductive Statement where
  | expression (span : Span) (expression : Expr)
  | empty (span : Span)
  | block (block : Block)
  | superCall (span : Span) (arguments : List Expr)
  | importName (span : Span) (localName : Option Identifier) (name : List Identifier)
      (wildcard recursive : Bool)
  | ifElse (span : Span) (test : Expr) (consequent : Statement) (alternative : Option Statement)
  | doWhile (span : Span) (body : Statement) (test : Expr)
  | whileDo (span : Span) (test : Expr) (body : Statement)
  | breakOut (span : Span) (label : Option String)
  | continueOn (span : Span) (label : Option String)
  | returnValue (span : Span) (expression : Option Expr)
  | throwValue (span : Span) (expression : Expr)
  | tryCatch (span : Span) (block : Block) (catches : List CatchClause) (last : Option Block)
  | labeled (span : Span) (label : String) (statement : Statement)
  | forLoop (span : Span) (init : Option ForBinding) (test update : Option Expr) (body : Statement)
  | forIn (span : Span) (iteratesKeys : Bool) (left : ForBinding) (right : Expr) (body : Statement)
  | switchValue (span : Span) (discriminant : Expr) (cases : List SwitchCase)
  | switchType (span : Span) (discriminant : Expr) (cases : List TypeCase)
  /-- The child keeps what was found in it; its statements are those read before it stopped. -/
  | includeSource (span : Span) (source : String) (child : Script) (statements : List Statement)
  | useNamespace (span : Span) (expression : Expr)
  | useResource (span : Span) (bindings : List VariableBinding) (block : Block)
  | withObject (span : Span) (object : Expr) (body : Statement)
  | namespaceDef (span : Span) (attributes : Attributes) (id : Identifier) (block : Block)
  | namespaceAlias (span : Span) (attributes : Attributes) (id : Identifier) (expression : Expr)
  | variableDef (span : Span) (attributes : Attributes) (readOnly : Bool)
      (bindings : List VariableBinding)
  | functionDef (span : Span) (attributes : Attributes) (id : Identifier)
      (generics : Option Generics) (common : FunctionCommon)
  | constructorDef (span : Span) (attributes : Attributes) (id : Identifier)
      (common : FunctionCommon)
  | getterDef (span : Span) (attributes : Attributes) (id : Identifier) (common : FunctionCommon)
  | setterDef (span : Span) (attributes : Attributes) (id : Identifier) (common : FunctionCommon)
  | proxyDef (span : Span) (attributes : Attributes) (id : Identifier) (operator : Operator)
      (common : FunctionCommon)
  | classDef (span : Span) (attributes : Attributes) (id : Identifier) (isValue isAlgebraic : Bool)
      (generics : Option Generics) (extended : Option TypeExpr) (implemented : List TypeExpr)
      (block : Block)
  | interfaceDef (span : Span) (attributes : Attributes) (id : Identifier)
      (generics : Option Generics) (extended : List TypeExpr) (block : Block)
  | enumDef (span : Span) (attributes : Attributes) (id : Identifier) (isFlags : Bool)
      (numericType : Option TypeExpr) (block : Block)
  | typeDef (span : Span) (attributes : Attributes) (id : Identifier) (generics : Option Generics)
      (type : TypeExpr)

structure CatchClause where
  span : Span
  pattern : Pattern
  block : Block

inductive ForBinding where
  | variable (declaration : VariableDeclaration)
  | expression (expression : Expr)

/-- Variables declared in the head of a loop. -/
structure VariableDeclaration where
  span : Span
  readOnly : Bool
  bindings : List VariableBinding

/-- A case without a test is the default. -/
structure SwitchCase where
  span : Span
  test : Option Expr
  consequent : List Statement

/-- A case without a pattern is the default. -/
structure TypeCase where
  span : Span
  pattern : Option Pattern
  block : Block

end

structure Package where
  span : Span
  id : List String
  block : Block

structure Program where
  span : Span
  packages : List Package
  statements : List Statement

namespace Pattern

def span : Pattern → Span
  | .name span .. | .object span .. | .array span .. => span

/-- A name without a type. -/
def isPlainName : Pattern → Bool
  | .name _ _ none => true
  | _ => false

end Pattern

namespace Expr

def span : Expr → Span
  | .identifier id => id.span
  | .embed span .. | .unary span .. | .binary span .. | .typeBinary span .. | .defaultOf span ..
  | .function span .. | .object span .. | .spread span .. | .array span .. | .nodeList span ..
  | .node span .. | .member span .. | .index span .. | .call span .. | .importMeta span
  | .this span | .string span .. | .null span | .boolean span .. | .number span ..
  | .regularExpression span .. | .conditional span .. | .parens span .. | .list span ..
  | .instantiation span .. | .assignment span .. | .new span .. | .super span => span

end Expr

def AssignmentTarget.span : AssignmentTarget → Span
  | .expression e => e.span
  | .pattern p => p.span

/-- The number of parameters other than the rest parameter. -/
def FunctionCommon.parameterCount (f : FunctionCommon) : Nat := f.params.length + f.optional.length

namespace Attributes

/-- Whether nothing was written, not even an empty decorator list. -/
def isEmpty (a : Attributes) : Bool :=
  a.decorators.isNone && a.modifiers.isEmpty && a.access.isNone

/-- Whether there is a modifier, an access modifier or a decorator. -/
def isSubstantial (a : Attributes) : Bool :=
  !a.modifiers.isEmpty || a.access.isSome || a.decorators.any (!·.isEmpty)

end Attributes

namespace Statement

def span : Statement → Span
  | .block b => b.span
  | .expression span .. | .empty span | .superCall span .. | .importName span .. | .ifElse span ..
  | .doWhile span .. | .whileDo span .. | .breakOut span .. | .continueOn span ..
  | .returnValue span .. | .throwValue span .. | .tryCatch span .. | .labeled span ..
  | .forLoop span .. | .forIn span .. | .switchValue span .. | .switchType span ..
  | .includeSource span .. | .useNamespace span .. | .useResource span .. | .withObject span ..
  | .namespaceDef span .. | .namespaceAlias span .. | .variableDef span .. | .functionDef span ..
  | .constructorDef span .. | .getterDef span .. | .setterDef span .. | .proxyDef span ..
  | .classDef span .. | .interfaceDef span .. | .enumDef span .. | .typeDef span .. => span

def attributes? : Statement → Option Attributes
  | .namespaceDef _ attributes .. | .namespaceAlias _ attributes .. | .variableDef _ attributes ..
  | .functionDef _ attributes .. | .constructorDef _ attributes .. | .getterDef _ attributes ..
  | .setterDef _ attributes .. | .proxyDef _ attributes .. | .classDef _ attributes ..
  | .interfaceDef _ attributes .. | .enumDef _ attributes .. | .typeDef _ attributes .. =>
    some attributes
  | _ => none

end Statement

end ActionSyntax
