import ActionSyntax.Grammar.Definitions
import ActionSyntax.Proofs.Pieces.Piece

/-!
What may stand where in a tree: jumps, and definitions with their modifiers, bodies and parameters.
-/

namespace ActionSyntax

set_option autoImplicit false

/-- The context in which a statement is read is that of its surroundings. -/
structure Situation.Agrees (a : Situation) (c : Context) : Prop where
  container : c.container = a.directly
  labels : ∀ label, label ∈ c.labels ↔ .label label ∈ a.within
  loops : c.inIteration = true ↔ .loop ∈ a.within
  cases : c.inSwitch = true ↔ .switchCase ∈ a.within

namespace Situation.Agrees

variable {a : Situation} {c : Context}

theorem nested (h : a.Agrees c) : (a.inside .other).Agrees c.nested where
  container := rfl
  labels label := by simpa [inside, Context.nested] using h.labels label
  loops := by simpa [inside, Context.nested] using h.loops
  cases := by simpa [inside, Context.nested] using h.cases

theorem loopBody (h : a.Agrees c) : (a.inside .loop).Agrees c.loopBody where
  container := rfl
  labels label := by simpa [inside, Context.loopBody, Context.nested] using h.labels label
  loops := by simp [inside, Context.loopBody]
  cases := by simpa [inside, Context.loopBody, Context.nested] using h.cases

theorem switchBody (h : a.Agrees c) : (a.inside .switchCase).Agrees c.switchBody where
  container := rfl
  labels label := by simpa [inside, Context.switchBody, Context.nested] using h.labels label
  loops := by simpa [inside, Context.switchBody, Context.nested] using h.loops
  cases := by simp [inside, Context.switchBody]

theorem withLabel (h : a.Agrees c) (label : String) :
    (a.inside (.label label)).Agrees (c.withLabel label) where
  container := rfl
  labels other := by simp [inside, Context.withLabel, h.labels other]
  loops := by simpa [inside, Context.withLabel, Context.nested] using h.loops
  cases := by simpa [inside, Context.withLabel, Context.nested] using h.cases

theorem ofContainer (container : Container) :
    (⟨container, []⟩ : Situation).Agrees (Context.ofContainer container) where
  container := rfl
  labels := by simp [Context.ofContainer]
  loops := by simp [Context.ofContainer]
  cases := by simp [Context.ofContainer]

theorem functionBody (isConstructor : Bool) :
    Situation.fresh.Agrees (Context.functionBody isConstructor) where
  container := rfl
  labels := by simp [Context.functionBody, fresh]
  loops := by simp [Context.functionBody, fresh]
  cases := by simp [Context.functionBody, fresh]

theorem isInterface (h : a.Agrees c) : c.isInterface = true ↔ a.directly = .interface := by
  rw [← h.container, Context.isInterface, beq_iff_eq]

end Situation.Agrees

section Jumps

/-- The problem with a jump that has no target. -/
def Statement.jumpProblem? (around : Situation) : Statement → Option Problem
  | .breakOut span none =>
    if .loop ∈ around.within ∨ .switchCase ∈ around.within then none
    else some { id := .illegalBreakStatement, severity := .syntaxError, span }
  | .continueOn span none =>
    if .loop ∈ around.within then none
    else some { id := .illegalContinueStatement, severity := .syntaxError, span }
  | .breakOut span (some label) | .continueOn span (some label) =>
    if .label label ∈ around.within then none
    else some { id := .undefinedLabel, severity := .verifyError, span,
                arguments := [("label", .text label)] }
  | _ => none

/-- The problem with a piece that is a jump without a target. -/
def Piece.jumpProblem? : Piece → Option Problem
  | .statement around s => s.jumpProblem? around
  | _ => none

def Statement.isJump : Statement → Bool
  | .breakOut .. | .continueOn .. => true
  | _ => false

/-- The problems that jumps are reported with. -/
def ProblemId.isJump : ProblemId → Bool
  | .illegalBreakStatement | .illegalContinueStatement | .undefinedLabel => true
  | _ => false

end Jumps

section Definitions

/-- None of the modifiers has been written. -/
def Attributes.Lacks (a : Attributes) (modifiers : List Modifier) : Prop :=
  ∀ m ∈ modifiers, a.modifiers.contains m = false

/-- Neither a modifier, nor an access modifier, nor a decorator has been written. -/
structure Attributes.Bare (a : Attributes) : Prop where
  modifiers : a.modifiers = {}
  access : a.access = none
  decorators : a.decorators.getD [] = []

/-- A function has a body, unless it is native. -/
def FunctionCommon.Bodied (f : FunctionCommon) (a : Attributes) : Prop :=
  f.body.isSome = !a.modifiers.native

/-- Methods of an interface have no attributes, and all others have a body unless they are native. -/
structure FunctionCommon.MethodIn (around : Situation) (a : Attributes) (f : FunctionCommon) :
    Prop where
  bare : around.directly = .interface → a.Bare
  bodied : around.directly ≠ .interface → f.Bodied a

/-- A variable of an enumeration is constant and has a plain name, unless it is static. -/
def VariantsIn (around : Situation) (a : Attributes) (readOnly : Bool)
    (bindings : List VariableBinding) : Prop :=
  around.directly = .enum → a.modifiers.static = false →
    readOnly = true ∧ ∀ b ∈ bindings, b.pattern.isPlainName = true

/-- A proxy method belongs to a class or an enumeration, and has what its operator asks for. -/
structure FunctionCommon.ProxyIn (around : Situation) (a : Attributes) (name : String)
    (op : Operator) (f : FunctionCommon) : Prop where
  place : around.directly = .enum ∨ ∃ name, around.directly = .class name
  bodied : f.Bodied a
  awaits : f.usesAwait = false
  yields : f.usesYield = true → op = .iterateKeys ∨ op = .iterateValues
  operator : Words.proxyOperator? name = some op
  params : f.params.length = op.proxyParameters
  optional : f.optional = []
  rest : f.rest = none
  modifiers : a.Lacks [.final, .override, .static]

/-- A definition may stand where it does, with the modifiers and the body that it has. -/
def Statement.LegalIn (around : Situation) : Statement → Prop
  | .classDef _ a _ isValue isAlgebraic _ extended implemented _ =>
    around.directly ≠ .plain ∧ a.Lacks [.native, .override, .proxy, .static] ∧
      (isAlgebraic = true → isValue = true) ∧
      (isValue = true → extended = none ∧ implemented = [])
  | .interfaceDef _ a .. =>
    around.directly ≠ .plain ∧ a.Lacks [.native, .override, .proxy, .static]
  | .enumDef _ a .. => around.directly ≠ .plain ∧ a.Lacks Modifier.all
  | .namespaceDef _ a .. =>
    around.directly ∈ [Container.topLevel, .package, .namespace] ∧ a.Lacks Modifier.all
  | .namespaceAlias _ a .. | .typeDef _ a .. =>
    around.directly ≠ .interface ∧ a.Lacks Modifier.all
  | .variableDef _ a readOnly bindings =>
    around.directly ≠ .interface ∧ a.Lacks [.final, .native, .override, .proxy] ∧
      VariantsIn around a readOnly bindings
  | .functionDef _ a _ _ f => f.MethodIn around a
  | .getterDef _ a _ f | .setterDef _ a _ f =>
    f.MethodIn around a ∧ f.usesAwait = false ∧ f.usesYield = false
  | .constructorDef _ a id f =>
    around.directly = .class id.name ∧ f.Bodied a ∧ f.usesAwait = false ∧ f.usesYield = false ∧
      a.Lacks [.final, .override, .proxy, .static]
  | .proxyDef _ a id op f => f.ProxyIn around a id.name op
  | _ => True

/-- A statement among the pieces is legal where it stands. -/
def Piece.Legal : Piece → Prop
  | .statement around s => s.LegalIn around
  | _ => True

end Definitions

end ActionSyntax
