import ActionSyntax.Proofs.Shadows.Stages

/-!
Expressions that are read without commas. They are one expression each: no comma list, unless in parentheses,
and nothing that is spread.
-/

namespace ActionSyntax

set_option autoImplicit false

open Parse Rules

/-- Whatever the reading gives has the property. -/
def Yields {α : Type} (p : α → Prop) (x : Parse α) : Prop := ∀ ⦃s a t⦄, x s = .ok a t → p a

namespace Yields

variable {α β : Type} {p : β → Prop}

theorem pure {a : β} (h : p a) : Yields p (Pure.pure a : Parse β) := by
  rintro s a t ⟨⟩
  exact h

theorem bind {x : Parse α} {f : α → Parse β} {q : α → Prop} (hx : Yields q x) (hf : ∀ a, q a → Yields p (f a)) :
    Yields p (x >>= f) := by
  intro s b t h
  obtain ⟨a, u, hread, hrest⟩ := bind_ok h
  exact hf a (hx hread) hrest

/-- Only what is read last counts. -/
theorem seq {x : Parse α} {f : α → Parse β} (hf : ∀ a, Yields p (f a)) : Yields p (x >>= f) := by
  intro s b t h
  obtain ⟨a, u, -, hrest⟩ := bind_ok h
  exact hf a hrest

theorem ite {condition : Prop} {_ : Decidable condition} {x y : Parse β} (hx : Yields p x) (hy : Yields p y) :
    Yields p (if condition then x else y) := by
  split
  · exact hx
  · exact hy

/-- One of two readings, whose value is taken on in the same way. -/
theorem branch {condition : Prop} {_ : Decidable condition} {x y : Parse α} {f : α → Parse β}
    (hf : ∀ a, Yields p (f a)) : Yields p (if condition then x >>= f else y >>= f) := .ite (.seq hf) (.seq hf)

theorem unexpected : Yields p Parse.unexpected := by
  intro s b t h
  obtain ⟨_, _, -, h⟩ := bind_ok h
  obtain ⟨_, _, -, h⟩ := bind_ok h
  cases h

end Yields

namespace Expr

/-- One expression, neither several with commas between nor one that is spread. -/
def IsSingle : Expr → Prop
  | .list .. | .spread .. => False
  | _ => True

variable {e : Expr}

theorem IsSingle.listItems (h : e.IsSingle) : listItems e = [e] := by
  cases e with
  | list => exact h.elim
  | _ => rfl

theorem IsSingle.isSpread (h : e.IsSingle) : isSpread e = false := by
  cases e with
  | spread => exact h.elim
  | _ => rfl

end Expr

namespace Rules

open ActionSyntax.Expr (IsSingle)

/-- What is found, if anything is. -/
abbrev Found (found : Option Expr) : Prop := ∀ e ∈ found, e.IsSingle

theorem found_some {e : Expr} (h : e.IsSingle) : Found (some e) := by
  rintro _ ⟨⟩
  exact h

theorem yields_found {x : Parse Expr} (hx : Yields IsSingle x) : Yields Found (x >>= fun e => pure (some e)) :=
  hx.bind fun _ h => .pure (found_some h)

variable (r : Rules)

section Operands

theorem arrowFunction_yields (m : Mark) (params : Params) (result : Option TypeExpr) :
    Yields IsSingle (r.arrowFunction m params result) := .seq fun _ => .seq fun _ => .pure trivial

theorem identifierPrimary_yields (allowTyped : Bool) : Yields IsSingle (r.identifierPrimary allowTyped) := by
  refine .seq fun t => .branch fun isTyped => .ite ?_ (.seq fun behind => .ite ?_ ?_)
  · exact .seq fun _ => .seq fun _ => .pure trivial
  · exact .seq fun _ => .seq fun _ => .seq fun _ => .seq fun _ => .pure trivial
  · refine .seq fun _ => .seq fun _ => .ite (.seq fun params => ?_) (.pure trivial)
    exact r.arrowFunction_yields _ params none

theorem parensPrimary_yields (m : Mark) (level : Precedence) : Yields IsSingle (r.parensPrimary m level) := by
  refine .ite (.seq fun _ => .seq fun _ => .seq fun _ => .pure trivial) ?_
  refine .seq fun _ => .ite (.seq fun _ => r.arrowFunction_yields _ _ _) (.seq fun ⟨items, atRest⟩ => ?_)
  refine .ite (.seq fun _ => .seq fun _ => .seq fun _ => .seq fun _ => .seq fun _ =>
    r.arrowFunction_yields _ _ _) (.seq fun _ => .seq fun _ => .ite ?_ (.seq fun _ => .ite ?_ ?_))
  · exact .seq fun _ => .seq fun _ => .seq fun _ => r.arrowFunction_yields _ _ _
  · exact .seq fun _ => r.arrowFunction_yields _ _ _
  · exact .seq fun _ => .seq fun _ => .pure trivial

theorem objectInitializer_yields (m : Mark) : Yields IsSingle (r.objectInitializer m) :=
  .seq fun _ => .seq fun _ => .seq fun _ => .seq fun _ => .pure trivial

theorem arrayInitializer_yields (m : Mark) : Yields IsSingle (r.arrayInitializer m) :=
  .seq fun _ => .seq fun _ => .seq fun _ => .seq fun _ => .pure trivial

theorem newExpr_yields (m : Mark) : Yields IsSingle (r.newExpr m) :=
  .seq fun _ => .seq fun _ => .seq fun _ => .branch fun _ => .seq fun _ => .pure trivial

theorem nodeRule_yields (outermost : Bool) : Yields IsSingle (r.nodeRule outermost) := by
  refine .seq fun m => .seq fun _ => .branch fun isList => .ite ?_ ?_
  · exact .seq fun _ => .seq fun _ => .seq fun _ => .pure trivial
  · exact .seq fun _ => .seq fun _ => .seq fun _ => .seq fun _ => .seq fun _ => .pure trivial

theorem simplePrimary?_yields (m : Mark) : Yields Found (r.simplePrimary? m) := by
  have hword : ∀ {f : Span → Expr}, (∀ span, (f span).IsSingle) →
      Yields Found (do return some (f (← finish m))) := fun h => .seq fun span => .pure (found_some (h span))
  have hliteral : ∀ {f : Span → Token → Expr}, (∀ span t, (f span t).IsSingle) →
      Yields Found (do return some (f (← finish m) (← previous))) := fun h =>
    .seq fun span => .seq fun t => .pure (found_some (h span t))
  refine .seq fun _ => .ite (.seq fun _ => .seq fun _ => .seq fun _ => hword fun _ => trivial) ?_
  refine .seq fun _ => .ite (hword fun _ => trivial) ?_
  refine .seq fun _ => .ite (.seq fun _ => .seq fun _ => hword fun _ => trivial) ?_
  refine .seq fun _ => .ite (hword fun _ => trivial) ?_
  refine .seq fun _ => .ite (hliteral fun _ _ => trivial) ?_
  refine .seq fun _ => .ite (hliteral fun _ _ => trivial) ?_
  refine .seq fun _ => .ite (hword fun _ => trivial) ?_
  refine .seq fun _ => .ite (hword fun _ => trivial) ?_
  refine .seq fun t => .ite (yields_found ?_) ?_
  · exact .seq fun _ => .seq fun _ => .seq fun _ => .seq fun _ => .pure trivial
  refine .seq fun _ => .ite (hword fun _ => trivial) (.pure nofun)

theorem optPrimaryRule_yields (allowTyped : Bool) (level : Precedence) :
    Yields Found (r.optPrimaryRule allowTyped level) := by
  refine .seq fun m => .seq fun _ => .ite (yields_found (r.identifierPrimary_yields allowTyped)) ?_
  refine .bind (r.simplePrimary?_yields m) fun found hfound => ?_
  cases found with
  | some e => exact .pure hfound
  | none =>
    refine .seq fun _ => .ite (yields_found (r.parensPrimary_yields m level)) ?_
    refine .seq fun _ => .ite (yields_found (r.objectInitializer_yields m)) ?_
    refine .seq fun _ => .ite (yields_found (r.arrayInitializer_yields m)) ?_
    refine .seq fun _ => .ite (yields_found (r.newExpr_yields m)) ?_
    exact .seq fun _ => .ite (yields_found (r.nodeRule_yields true)) (.pure nofun)

theorem functionExpr_yields : Yields IsSingle r.functionExpr := by
  refine .seq fun m => .seq fun _ => .seq fun named => .branch fun id => .seq fun parts => .seq fun span => ?_
  exact .ite (.seq fun _ => .pure trivial) (.pure trivial)

theorem operand?_yields (mode : ExprMode) : Yields Found (r.operand? mode) := by
  refine .bind (r.optPrimaryRule_yields mode.allowTyped mode.level) fun found hfound => ?_
  cases found with
  | some e => exact .pure hfound
  | none =>
    refine .seq fun t => ?_
    cases (OperatorRule.front? t).filter (mode.level ≤ ·.level) with
    | some rule =>
      exact yields_found (.seq fun _ => .seq fun _ => .seq fun _ => .seq fun _ => .seq fun _ => .pure trivial)
    | none => exact .ite (yields_found r.functionExpr_yields) (.pure nofun)

end Operands

section Continuations

theorem continueWith_yields {allowIn : Bool} {m : Mark} {base : Expr} {compound : Option Operator}
    {way : Continuation} (hway : way ≠ .list) :
    Yields IsSingle (r.continueWith allowIn m base compound way) := by
  have hindex : ∀ optional, Yields IsSingle (r.indexContinuation m base optional) := fun optional =>
    .seq fun _ => .seq fun _ => .seq fun _ => .pure trivial
  have hcall : ∀ optional, Yields IsSingle (r.callContinuation m base optional) := fun optional =>
    .seq fun _ => .seq fun _ => .pure trivial
  cases way with
  | list => exact absurd rfl hway
  | binary rule => exact .seq fun _ => .seq fun _ => .pure trivial
  | within => exact .seq fun _ => .seq fun _ => .pure trivial
  | behind op => exact .seq fun _ => .pure trivial
  | cast =>
    refine .seq fun strict => .ite ?_ ?_
    · exact .seq fun _ => .seq fun _ => .seq fun _ => .pure trivial
    · exact .seq fun _ => .seq fun _ => .pure trivial
  | typeTest op => exact .seq fun _ => .seq fun _ => .pure trivial
  | assign => exact .seq fun _ => .seq fun _ => .seq fun _ => .pure trivial
  | compoundAssign => exact .seq fun _ => .seq fun _ => .pure trivial
  | conditional => exact .seq fun _ => .seq fun _ => .seq fun _ => .seq fun _ => .pure trivial
  | dot =>
    refine .seq fun _ => .ite ?_ ?_
    · exact .seq fun _ => .seq fun _ => .pure trivial
    · exact .seq fun _ => .seq fun _ => .pure trivial
  | index => exact hindex false
  | call => exact hcall false
  | optionalChain =>
    refine .seq fun _ => .ite (hcall true) (.seq fun _ => .ite (hindex true) ?_)
    exact .seq fun _ => .seq fun _ => .pure trivial

theorem continuations_yields {allowIn : Bool} : ∀ {fuel : Nat} {base : Expr}, base.IsSingle →
    Yields IsSingle (r.continuations allowIn .assignment fuel base)
  | 0, _, _ => fun _ _ _ h => nomatch h
  | fuel + 1, base, hbase => by
    refine .seq fun s => ?_
    cases hway : continuation? allowIn .assignment s with
    | none => exact .pure hbase
    | some way =>
      have hne : way ≠ .list := fun heq => absurd (continuation?_list (heq ▸ hway)) (by decide)
      exact .seq fun _ => .bind (r.continueWith_yields hne) fun longer hlonger => continuations_yields hlonger

end Continuations

/-- What is read without commas is one expression. -/
theorem assignmentExpr_yields {q : Rules} (hr : r.optExpr = q.optExprRule) (allowIn : Bool) :
    Yields IsSingle (r.assignmentExpr allowIn) := by
  intro s e t h
  obtain ⟨base, v, hoperand, hcontinued⟩ := expr_inv (congrFun hr _) h
  exact q.continuations_yields (q.operand?_yields _ hoperand base rfl) hcontinued

end Rules

end ActionSyntax
