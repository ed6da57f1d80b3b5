import Mathlib.Data.List.ReduceOption
import ActionSyntax.Grammar.Context
import ActionSyntax.Grammar.State
import ActionSyntax.Tree.Node

/-!
The pieces of a tree. A piece has the pieces of its own that stand in it; what surrounds a statement is
kept with it, up to the next body of a function or block of a definition, where all begins anew.
-/

namespace ActionSyntax

set_option autoImplicit false

/-- What may stand between a statement and the block that begins anew around it. -/
inductive Enclosure where
  | loop
  | switchCase
  | label (name : String)
  | other
deriving DecidableEq, Repr

/-- The kind of the block that begins anew around a statement, and what stands between the two, the
innermost first. The body of a function is a plain block. -/
structure Situation where
  container : Container
  within : List Enclosure := []
deriving DecidableEq, Repr

namespace Situation

/-- The kind of the block that holds the statement directly. -/
def directly (a : Situation) : Container := if a.within.isEmpty then a.container else .plain

/-- The surroundings of what stands in a further construct. -/
def inside (a : Situation) (e : Enclosure) : Situation := { a with within := e :: a.within }

/-- Where a function body begins. -/
def fresh : Situation := ⟨.plain, []⟩

end Situation

/-- A piece of a tree. A body is kept with what its function has been seen to use. The parameters of a
function type are told from other identifiers. -/
inductive Piece where
  | program (p : Program)
  | package (p : Package)
  | statement (around : Situation) (s : Statement)
  | block (around : Situation) (b : Block)
  | catchClause (around : Situation) (c : CatchClause)
  | switchCase (around : Situation) (c : SwitchCase)
  | typeCase (around : Situation) (c : TypeCase)
  | declaration (d : VariableDeclaration)
  | binding (b : VariableBinding)
  | function (f : FunctionCommon)
  | body (use : FunctionUse) (b : Option FunctionBody)
  | pattern (p : Pattern)
  | patternField (f : PatternField)
  | patternSpread (span : Span) (p : Pattern)
  | expr (e : Expr)
  | objectItem (i : ObjectItem)
  | attribute (a : NodeAttribute)
  | identifier (id : Identifier)
  | parameter (id : Identifier)
  | type (t : TypeExpr)
  | generics (g : Generics)
  | typeParameter (p : TypeParameter)
  | typeBound (b : TypeBound)

def TypeExpr.children : TypeExpr → List Piece
  | .member _ base id => [.type base, .identifier id]
  | .function _ params optional rest result =>
    params.map .parameter ++ (optional.getD []).map .parameter ++ rest.toList.map .parameter ++
      result.toList.map .type
  | .array _ item => [.type item]
  | .tuple _ items => items.map .type
  | .record _ fields => fields.map .identifier
  | .union _ members => members.map .type
  | .instantiation _ base arguments => .type base :: arguments.map .type
  | .nullable _ base | .nonNullable _ base | .parens _ base => [.type base]
  | .typed _ base type => [.type base, .type type]
  | .name .. | .any _ | .void _ | .undefined _ | .null _ => []

def Identifier.children (id : Identifier) : List Piece := id.type.toList.map .type

def PatternItem.pieces : PatternItem → List Piece
  | .hole => []
  | .pattern p => [.pattern p]
  | .spread span p => [.patternSpread span p]

def Pattern.children : Pattern → List Piece
  | .name _ _ type => type.toList.map .type
  | .object _ fields type => fields.map .patternField ++ type.toList.map .type
  | .array _ items type => items.flatMap PatternItem.pieces ++ type.toList.map .type

def AssignmentTarget.piece : AssignmentTarget → Piece
  | .expression e => .expr e
  | .pattern p => .pattern p

def Expr.children : Expr → List Piece
  | .identifier id => [.identifier id]
  | .embed _ _ type => type.toList.map .type
  | .unary _ _ operand => [.expr operand]
  | .binary _ _ left right => [.expr left, .expr right]
  | .typeBinary _ _ left right => [.expr left, .type right]
  | .defaultOf _ type => [.type type]
  | .function _ id common => id.toList.map .identifier ++ [.function common]
  | .object _ fields type => fields.map .objectItem ++ type.toList.map .type
  | .spread _ e | .parens _ e => [.expr e]
  | .array _ items type => items.reduceOption.map .expr ++ type.toList.map .type
  | .nodeList _ children => children.map .expr
  | .node _ id attributes children =>
    .expr id :: attributes.map .attribute ++ (children.getD []).map .expr
  | .member _ base id _ => [.expr base, .identifier id]
  | .index _ base key _ => [.expr base, .expr key]
  | .call _ base arguments _ | .new _ base arguments => .expr base :: arguments.map .expr
  | .conditional _ test consequent alternative =>
    [.expr test, .expr consequent, .expr alternative]
  | .list _ expressions => expressions.map .expr
  | .instantiation _ base arguments => .expr base :: arguments.map .type
  | .assignment _ left _ right => [left.piece, .expr right]
  | .importMeta _ | .this _ | .string .. | .null _ | .boolean .. | .number ..
  | .regularExpression .. | .super _ => []

def ObjectItem.children : ObjectItem → List Piece
  | .field _ key value => .expr key :: value.toList.map .expr
  | .spread _ e => [.expr e]

namespace FunctionCommon

/-- What the function has been seen to use. -/
def use (f : FunctionCommon) : FunctionUse := ⟨f.usesAwait, f.usesYield⟩

/-- All parameters, the required ones first. -/
def bindings (f : FunctionCommon) : List VariableBinding := f.params ++ f.optional ++ f.rest.toList

def children (f : FunctionCommon) : List Piece :=
  f.bindings.map .binding ++ f.result.toList.map .type ++ f.throws.toList.map .type ++
    [.body f.use f.body]

end FunctionCommon

/-- Behind a body all begins anew. -/
def FunctionBody.piece : FunctionBody → Piece
  | .block b => .block .fresh b
  | .expression e => .expr e

def Attributes.pieces (a : Attributes) : List Piece := (a.decorators.getD []).map .expr

def ForBinding.piece : ForBinding → Piece
  | .variable d => .declaration d
  | .expression e => .expr e

/-- What a statement included belongs to another script. -/
def Statement.children (around : Situation) : Statement → List Piece
  | .expression _ e | .throwValue _ e | .useNamespace _ e => [.expr e]
  | .block b => [.block (around.inside .other) b]
  | .superCall _ arguments => arguments.map .expr
  | .importName _ localName name _ _ => localName.toList.map .identifier ++ name.map .identifier
  | .ifElse _ test consequent alternative =>
    .expr test :: .statement (around.inside .other) consequent ::
      alternative.toList.map (.statement (around.inside .other))
  | .doWhile _ body test => [.statement (around.inside .loop) body, .expr test]
  | .whileDo _ test body => [.expr test, .statement (around.inside .loop) body]
  | .returnValue _ e => e.toList.map .expr
  | .tryCatch _ b catches last =>
    .block (around.inside .other) b :: catches.map (.catchClause around) ++
      last.toList.map (.block (around.inside .other))
  | .labeled _ label statement => [.statement (around.inside (.label label)) statement]
  | .forLoop _ init test update body =>
    init.toList.map ForBinding.piece ++ test.toList.map .expr ++ update.toList.map .expr ++
      [.statement (around.inside .loop) body]
  | .forIn _ _ left right body =>
    [left.piece, .expr right, .statement (around.inside .loop) body]
  | .switchValue _ discriminant cases =>
    .expr discriminant :: cases.map (.switchCase (around.inside .switchCase))
  | .switchType _ discriminant cases => .expr discriminant :: cases.map (.typeCase around)
  | .useResource _ bindings b =>
    bindings.map .binding ++ [.block (around.inside .other) b]
  | .withObject _ object body => [.expr object, .statement (around.inside .other) body]
  | .namespaceDef _ attributes id b =>
    attributes.pieces ++ [.identifier id, .block ⟨.namespace, []⟩ b]
  | .namespaceAlias _ attributes id e => attributes.pieces ++ [.identifier id, .expr e]
  | .variableDef _ attributes _ bindings => attributes.pieces ++ bindings.map .binding
  | .functionDef _ attributes id generics common =>
    attributes.pieces ++ .identifier id :: generics.toList.map .generics ++ [.function common]
  | .constructorDef _ attributes id common | .getterDef _ attributes id common
  | .setterDef _ attributes id common | .proxyDef _ attributes id _ common =>
    attributes.pieces ++ [.identifier id, .function common]
  | .classDef _ attributes id _ _ generics extended implemented b =>
    attributes.pieces ++ .identifier id :: generics.toList.map .generics ++
      extended.toList.map .type ++ implemented.map .type ++ [.block ⟨.class id.name, []⟩ b]
  | .interfaceDef _ attributes id generics extended b =>
    attributes.pieces ++ .identifier id :: generics.toList.map .generics ++ extended.map .type ++
      [.block ⟨.interface, []⟩ b]
  | .enumDef _ attributes id _ numericType b =>
    attributes.pieces ++ .identifier id :: numericType.toList.map .type ++
      [.block ⟨.enum, []⟩ b]
  | .typeDef _ attributes id generics type =>
    attributes.pieces ++ .identifier id :: generics.toList.map .generics ++ [.type type]
  | .empty _ | .breakOut .. | .continueOn .. | .includeSource .. => []

namespace Piece

/-- The pieces that stand directly in a piece. -/
def children : Piece → List Piece
  | .program p =>
    p.packages.map .package ++ p.statements.map (.statement ⟨.topLevel, []⟩)
  | .package p => [.block ⟨.package, []⟩ p.block]
  | .statement around s => s.children around
  | .block around b => b.statements.map (.statement around)
  | .catchClause around c => [.pattern c.pattern, .block (around.inside .other) c.block]
  | .switchCase around c => c.test.toList.map .expr ++ c.consequent.map (.statement around)
  | .typeCase around c => c.pattern.toList.map .pattern ++ [.block (around.inside .other) c.block]
  | .declaration d => d.bindings.map .binding
  | .binding b => .pattern b.pattern :: b.init.toList.map .expr
  | .function f => f.children
  | .body _ b => b.toList.map FunctionBody.piece
  | .pattern p => p.children
  | .patternField f => .expr f.key :: f.pattern.toList.map .pattern
  | .patternSpread _ p => [.pattern p]
  | .expr e => e.children
  | .objectItem i => i.children
  | .attribute a => .identifier a.id :: a.value.toList.map .expr
  | .identifier id | .parameter id => id.children
  | .type t => t.children
  | .generics g => g.params.map .typeParameter ++ g.bounds.map .typeBound
  | .typeParameter p => [.identifier p.id]
  | .typeBound b => [.identifier b.id, .type b.type]

/-- The range that a piece covers. A body covers what it consists of, if there is any. -/
def span? : Piece → Option Span
  | .program p => some p.span
  | .package p => some p.span
  | .statement _ s => some s.span
  | .block _ b => some b.span
  | .catchClause _ c => some c.span
  | .switchCase _ c => some c.span
  | .typeCase _ c => some c.span
  | .declaration d => some d.span
  | .binding b => some b.span
  | .function f => some f.span
  | .body _ none => none
  | .body _ (some (.block b)) => some b.span
  | .body _ (some (.expression e)) => some e.span
  | .pattern p => some p.span
  | .patternField f => some f.span
  | .patternSpread span _ => some span
  | .expr e => some e.span
  | .objectItem (.field span ..) | .objectItem (.spread span _) => some span
  | .attribute a => some a.span
  | .identifier id | .parameter id => some id.span
  | .type t => some t.span
  | .generics g => some g.span
  | .typeParameter p => some p.span
  | .typeBound b => some b.span

/-- Whether a piece counts when the bodies of functions are left aside, unless they are entered. -/
def entered (deep : Bool) : Piece → Bool
  | .body .. => deep
  | _ => true

/-- A piece stands in another one or is that piece. Bodies of functions are entered only if asked for;
a body itself is where it begins. -/
inductive Holds (deep : Bool) : Piece → Piece → Prop
  | self (p : Piece) : Holds deep p p
  | inside {p c q : Piece} (child : c ∈ p.children) (entered : c.entered deep = true)
      (holds : Holds deep c q) : Holds deep p q

/-- A piece stands in one of several, or is one of them. -/
def Among (deep : Bool) (ps : List Piece) (q : Piece) : Prop :=
  ∃ p ∈ ps, p.entered deep = true ∧ p.Holds deep q

section Holding

variable {deep : Bool} {p q r : Piece} {ps qs : List Piece}

theorem holds_iff : p.Holds deep q ↔ q = p ∨ Among deep p.children q := by
  constructor
  · rintro (_ | ⟨child, entered, holds⟩)
    · exact Or.inl rfl
    · exact Or.inr ⟨_, child, entered, holds⟩
  · rintro (rfl | ⟨c, child, entered, holds⟩)
    · exact .self _
    · exact .inside child entered holds

theorem Holds.trans (hpq : p.Holds deep q) (hqr : q.Holds deep r) : p.Holds deep r := by
  induction hpq with
  | self => exact hqr
  | inside child entered _ ih => exact .inside child entered (ih hqr)

@[simp] theorem among_nil : ¬ Among deep [] q := by simp [Among]

@[simp] theorem among_cons :
    Among deep (p :: ps) q ↔
      (p.entered deep = true ∧ (q = p ∨ Among deep p.children q)) ∨ Among deep ps q := by
  rw [← holds_iff]
  simp [Among]

@[simp] theorem among_append :
    Among deep (ps ++ qs) q ↔ Among deep ps q ∨ Among deep qs q := by
  simp [Among, or_and_right, exists_or]

theorem Among.mono (h : Among deep ps q) (hsub : ps ⊆ qs) : Among deep qs q := by
  obtain ⟨p, hp, hholds⟩ := h
  exact ⟨p, hsub hp, hholds⟩

end Holding

/-- Nodes and lists of nodes that a tag closes. -/
def isElement : Piece → Bool
  | .expr (.nodeList ..) | .expr (.node _ _ _ (some _)) => true
  | _ => false

/-- Statements, bodies, expressions with an operator in front or behind, and nodes that a tag closes. -/
def isNotable : Piece → Bool
  | .statement .. | .body .. | .expr (.unary ..) => true
  | p => p.isElement

end Piece

end ActionSyntax
