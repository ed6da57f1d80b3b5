import ActionSyntax.Grammar.Expressions
import ActionSyntax.Proofs.Chains.Reading

/-!
Readings that do not look back. An expression is read from its first token on, and what has been read before
that token makes no difference.
-/

namespace ActionSyntax

set_option autoImplicit false

open Parse Rules

/-- What has been read before the current token makes no difference, unless nothing is taken; then the
value is an idle one. -/
def Heedless {α : Type} (idle : α → Prop) (x : Parse α) : Prop :=
  ∀ (s : ParserState) (previous : Token), x { s with previous } = x s ∨
    (∃ a, idle a ∧ x s = .ok a s ∧ x { s with previous } = .ok a { s with previous }) ∨
    ((∃ stop t, x s = .error stop t) ∧ ∃ stop t, x { s with previous } = .error stop t)

namespace Heedless

variable {α β : Type} {idle : α → Prop} {idle' : β → Prop} {x : Parse α} {f : α → Parse β}

theorem bind (hx : Heedless idle x) (hf : ∀ a, idle a → Heedless idle' (f a)) :
    Heedless idle' (x >>= f) := by
  intro s previous
  have hstops : ∀ {u : ParserState}, (∃ stop t, x u = .error stop t) →
      ∃ stop t, (x >>= f) u = .error stop t := by
    rintro u ⟨stop, t, hread⟩
    refine ⟨stop, t, ?_⟩
    show EStateM.bind x f u = _
    unfold EStateM.bind
    rw [hread]
  rcases hx s previous with hsame | ⟨a, ha, hread, hread'⟩ | ⟨hstop, hstop'⟩
  · refine Or.inl ?_
    show EStateM.bind x f _ = EStateM.bind x f s
    unfold EStateM.bind
    rw [hsame]
  · rw [bind_of_ok hread, bind_of_ok hread']
    exact hf a ha s previous
  · exact Or.inr (Or.inr ⟨hstops hstop, hstops hstop'⟩)

/-- Behind a reading that takes something, there is nothing to look back to. -/
theorem seq (hx : Heedless (fun _ => False) x) : Heedless idle' (x >>= f) := hx.bind nofun

theorem pure (a : α) : Heedless (· = a) (Pure.pure a : Parse α) := fun _ _ =>
  Or.inr (Or.inl ⟨a, rfl, rfl, rfl⟩)

theorem mark : Heedless (fun _ => True) Parse.mark := fun _ _ => Or.inr (Or.inl ⟨_, trivial, rfl, rfl⟩)

theorem token : Heedless (fun _ => True) Parse.token := fun _ _ => Or.inr (Or.inl ⟨_, trivial, rfl, rfl⟩)

theorem atOperator? (op : Operator) : Heedless (fun _ => True) (Parse.atOperator? op) := fun _ _ =>
  Or.inr (Or.inl ⟨_, trivial, rfl, rfl⟩)

theorem next : Heedless (fun _ => False) Parse.next := fun _ _ => Or.inl rfl

theorem unexpected : Heedless idle (Parse.unexpected : Parse α) := fun _ _ =>
  Or.inr (Or.inr ⟨⟨_, _, rfl⟩, ⟨_, _, rfl⟩⟩)

theorem ite {condition : Prop} {_ : Decidable condition} {y : Parse α} (hx : Heedless idle x)
    (hy : Heedless idle y) : Heedless idle (if condition then x else y) := by
  split
  · exact hx
  · exact hy

theorem consumeIf (condition : Token → Bool) : Heedless (· = false) (Parse.consumeIf condition) := by
  intro s previous
  have htoken : ({ s with previous } : ParserState).token = s.token := rfl
  unfold Parse.consumeIf
  rw [token_bind, token_bind, htoken]
  split
  · exact Or.inl rfl
  · exact Or.inr (Or.inl ⟨false, rfl, rfl, rfl⟩)

/-- A token that may begin the reading. -/
theorem alternative (condition : Token → Bool) {p q : Parse β} (hq : Heedless idle' q) :
    Heedless idle' (Parse.consumeIf condition >>= fun found => if found = true then p else q) :=
  (consumeIf condition).bind fun _ hnone => by
    rw [hnone]
    exact hq

theorem expectIf (condition : Token → Bool) : Heedless (fun _ => False) (Parse.expectIf condition) :=
  (consumeIf condition).bind fun _ hnone => by
    rw [hnone]
    exact unexpected

/-- A reading that may find nothing. -/
theorem option {x : Parse (Option α)} {f : Option α → Parse β} (hx : Heedless (· = none) x)
    (hnone : Heedless idle' (f none)) : Heedless idle' (x >>= f) :=
  hx.bind fun _ ha => ha ▸ hnone

/-- The slash has been passed over when the regular expression is taken. -/
theorem regularExpression (m : Mark) : Heedless (fun _ => False) (Rules.regularExpression m) := by
  intro s previous
  have hrest : ∀ {u : ParserState}, s.scanner.readRegularExpression.1 = .ok () → u.scanner = s.scanner →
      u.functions = s.functions → u.superFound = s.superFound →
      Rules.regularExpression m u = (Parse.next >>= fun _ => Parse.previous >>= fun t =>
        Parse.finish m >>= fun span => Pure.pure (.regularExpression span t.text t.flags))
          { s with scanner := s.scanner.readRegularExpression.2 } := by
    rintro ⟨scanner, token, functions, superFound⟩ hok hscanner hfunctions hsuper
    cases hscanner
    cases hfunctions
    cases hsuper
    have hread : Parse.scan Scanner.readRegularExpression ⟨s.scanner, token, s.functions, s.superFound⟩ =
        .ok () ⟨s.scanner.readRegularExpression.2, token, s.functions, s.superFound⟩ := by
      unfold Parse.scan
      rw [show s.scanner.readRegularExpression = (.ok (), s.scanner.readRegularExpression.2) from
        Prod.ext hok rfl]
    exact bind_of_ok hread _
  have hstop : ∀ {u : ParserState} {problem : Problem}, u.scanner = s.scanner →
      s.scanner.readRegularExpression.1 = .error problem →
      ∃ stop t, Rules.regularExpression m u = .error stop t := by
    intro u problem hscanner herror
    refine ⟨.problem problem, { u with scanner := s.scanner.readRegularExpression.2 }, ?_⟩
    have hread : Parse.scan Scanner.readRegularExpression u =
        .error (.problem problem) { u with scanner := s.scanner.readRegularExpression.2 } := by
      unfold Parse.scan
      rw [hscanner, show s.scanner.readRegularExpression =
        (.error problem, s.scanner.readRegularExpression.2) from Prod.ext herror rfl]
    show EStateM.bind _ _ u = _
    unfold EStateM.bind
    rw [hread]
  cases hscan : s.scanner.readRegularExpression.1 with
  | ok => exact Or.inl ((@hrest { s with previous } hscan rfl rfl rfl).trans (@hrest s hscan rfl rfl rfl).symm)
  | error problem => exact Or.inr (Or.inr ⟨hstop rfl hscan, hstop rfl hscan⟩)

variable (r : Rules)

theorem nodeRule (outermost : Bool) : Heedless (fun _ => False) (r.nodeRule outermost) :=
  mark.bind fun _ _ => (expectIf _).seq

theorem functionExpr : Heedless (fun _ => False) r.functionExpr := mark.bind fun _ _ => (expectIf _).seq

theorem unaryExpr (rule : OperatorRule) (allowIn : Bool) :
    Heedless (fun _ => False) (r.unaryExpr rule allowIn) := mark.bind fun _ _ => next.seq

theorem simplePrimary? (m : Mark) : Heedless (· = none) (r.simplePrimary? m) := by
  unfold Rules.simplePrimary?
  refine alternative _ (alternative _ (alternative _ (alternative _ (alternative _ (alternative _
    (alternative _ (alternative _ (token.bind fun t _ => ?_))))))))
  exact ite (regularExpression m).seq (alternative _ (.pure none))

theorem optPrimaryRule (allowTyped : Bool) (level : Precedence) :
    Heedless (· = none) (r.optPrimaryRule allowTyped level) := by
  unfold Rules.optPrimaryRule
  refine mark.bind fun m _ => alternative _ ((simplePrimary? r m).option ?_)
  refine alternative _ (alternative _ (alternative _ (alternative _ ((atOperator? _).bind fun _ _ => ?_))))
  exact ite (nodeRule r true).seq (.pure none)

theorem operand? (mode : ExprMode) : Heedless (· = none) (r.operand? mode) := by
  refine (optPrimaryRule r _ _).option (token.bind fun t _ => ?_)
  split
  · exact (unaryExpr r _ _).seq
  · exact ite (functionExpr r).seq (.pure none)

theorem optExprRule (mode : ExprMode) : Heedless (· = none) (r.optExprRule mode) :=
  (operand? r mode).option (.pure none)

theorem exprRule (mode : ExprMode) : Heedless (fun _ => False) (r.exprRule mode) :=
  (optExprRule r mode).option unexpected

end Heedless

end ActionSyntax
