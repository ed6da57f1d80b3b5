import ActionSyntax.Proofs.Building.Primary
import ActionSyntax.Proofs.Reads.Expressions

/-!
What is built of expressions. What an expression begins with is part of everything that continues it,
so all that is said of an expression is said from where its first operand begins.
-/

namespace ActionSyntax

set_option autoImplicit false

open Parse Setting Setting.Sound Rules

variable {lossy : Prop} {s t u : ParserState}

/-- Operators behind an operand are not noted. -/
theorem Rules.behind_plain {allowIn : Bool} {level : Precedence} {op : Operator}
    (h : continuation? allowIn level s = some (.behind op)) : op ≠ .await ∧ op ≠ .yield := by
  have hbehind : OperatorRule.behind? s.token = some op := by
    unfold continuation? at h
    dsimp only at h
    split at h
    · cases h
    split at h
    · cases h
    split at h
    · rename_i found hfound
      cases h
      exact (Option.filter_eq_some_iff.mp hfound).1
    · repeat' split at h
      all_goals cases h
  unfold OperatorRule.behind? at hbehind
  split at hbehind <;> cases hbehind <;> decide

/-- What is assigned to lies where its expression lies. -/
theorem Rules.assignmentTarget_ok {e : Expr} {target : AssignmentTarget}
    (h : assignmentTarget e s = .ok target t) :
    t = s ∧ Reworks [.expr e] [target.piece] ∧ target.span = e.span := by
  unfold assignmentTarget at h
  split at h
  · obtain ⟨pattern, u, hu, hgo⟩ := bind_ok h
    obtain ⟨rfl, hpattern⟩ := asPattern_ok hu
    cases hgo
    exact ⟨rfl, .pattern hpattern, Pattern.ofExpr_span hpattern⟩
  · obtain ⟨pattern, u, hu, hgo⟩ := bind_ok h
    obtain ⟨rfl, hpattern⟩ := asPattern_ok hu
    cases hgo
    exact ⟨rfl, .pattern hpattern, Pattern.ofExpr_span hpattern⟩
  · cases h
    exact ⟨rfl, .refl _, rfl⟩

/-- What an assignment begins and ends with. -/
theorem ExprRead.assigned {v : ParserState} {base right : Expr} {target : AssignmentTarget}
    {compound : Option Operator} (hbase : ExprRead lossy s base u)
    (hright : ExprRead lossy v right t) (hspan : target.span = base.span) :
    (Expr.assignment ((Mark.ofSpan s.token.span).«to» t.previous.span) target compound right).Tight :=
  calc (Mark.ofSpan s.token.span).«to» t.previous.span
    _ = (Mark.ofSpan base.span).«to» right.span := by
      rw [hbase.mark, hright.span_eq]
      rfl
    _ = target.span.«to» right.span := by
      rw [hspan]
      rfl

namespace Rules.Builder

variable {r : Rules} (R : r.Builder lossy)
include R

theorem unaryExpr_ok {rule : OperatorRule} {allowIn : Bool} {e : Expr}
    (hrule : OperatorRule.front? s.token = some rule)
    (h : r.unaryExpr rule allowIn s = .ok e t) : ExprRead lossy s e t := by
  unfold unaryExpr at h
  rw [mark_bind] at h
  obtain ⟨u, hu, h⟩ := bind_next lossy (front?_proper hrule) h
  obtain ⟨operand, v, hv, h⟩ := bind_ok h
  rw [finish_bind] at h
  obtain ⟨_, w, hw, h⟩ := bind_ok h
  cases h
  have hprevious : t.previous = v.previous := by
    rcases noteUse_ok hw with ⟨p, rfl, -⟩ | ⟨-, rfl⟩ <;> rfl
  refine ⟨⟨.front (hu.builds.skip (R.expr_ok hv).builds) hw, ?_⟩, trivial⟩
  rw [hprevious]
  rfl

section Continuations

variable {base e : Expr} {allowIn : Bool} (hu : Builds lossy true s [.expr base] u)
include hu

theorem castContinuation_ok (h : r.castContinuation (Mark.ofSpan s.token.span) base u = .ok e t) :
    ExprRead lossy s e t := by
  obtain ⟨strict, v, hv, h⟩ := bind_ok h
  obtain ⟨w, hw, h⟩ := bind_perhaps (c := fun t => t.kind == .questionMark) lossy (proper_kind (by decide)) h
  obtain ⟨right, x, hx, h⟩ := bind_ok h
  cases h
  have hmark : Builds lossy false u [] v := by
    rcases consumeIf_ok lossy (proper_kind (by decide)) hv with ⟨-, -, hv⟩ | ⟨-, rfl⟩
    · exact hv.builds.weaken
    · exact .refl _
  exact ⟨⟨.whole (hu.seq (hmark.skip (hw.skip (R.typeExpr hx).builds)))
    rfl ⟨rfl, trivial, trivial⟩, rfl⟩, trivial⟩

theorem listContinuation_ok
    (h : r.listContinuation allowIn (Mark.ofSpan s.token.span) base u = .ok e t) :
    ExprRead lossy s e t := by
  obtain ⟨rest, v, hv, h⟩ := bind_ok h
  cases h
  have hrest := separated_each (fun h => (R.assignmentExpr_ok h).builds) hv
  exact ⟨⟨.whole (hu.seq hrest) rfl ⟨rfl, trivial, trivial⟩, rfl⟩, trivial⟩

theorem conditionalContinuation_ok
    (h : r.conditionalContinuation allowIn (Mark.ofSpan s.token.span) base u = .ok e t) :
    ExprRead lossy s e t := by
  obtain ⟨consequent, v, hv, h⟩ := bind_ok h
  obtain ⟨w, hw, -, h⟩ := bind_expect lossy (proper_kind (by decide)) h
  obtain ⟨alternative, x, hx, h⟩ := bind_ok h
  cases h
  have hrest := (R.expr_ok hv).builds.seq (hw.builds.skip (R.assignmentExpr_ok hx).builds)
  exact ⟨⟨.whole (hu.seq hrest) rfl ⟨rfl, trivial, trivial⟩, rfl⟩, trivial⟩

theorem optionalContinuation_ok
    (h : r.optionalContinuation (Mark.ofSpan s.token.span) base u = .ok e t) :
    ExprRead lossy s e t := by
  rcases bind_if lossy (proper_kind (by decide)) h with ⟨v, hv, -, h⟩ | h
  · exact R.callContinuation_ok (hu.close hv.builds) h
  rcases bind_if lossy (proper_kind (by decide)) h with ⟨v, hv, -, h⟩ | h
  · exact R.indexContinuation_ok (hu.close hv.builds) h
  · obtain ⟨id, v, hv, h⟩ := bind_ok h
    cases h
    exact ⟨⟨.whole (hu.seq (wordIdentifier_ok hv).builds)
      rfl ⟨rfl, trivial, trivial⟩, rfl⟩, trivial⟩

end Continuations

theorem continueWith_ok {base e : Expr} {allowIn : Bool} {level : Precedence} {way : Continuation}
    {compound : Option Operator} {v : ParserState} (hbase : ExprRead lossy s base u)
    (hway : continuation? allowIn level u = some way) (hv : Consumed lossy u v)
    (h : r.continueWith allowIn (Mark.ofSpan s.token.span) base compound way v = .ok e t) :
    ExprRead lossy s e t := by
  have hread := hbase.builds.close hv.builds
  cases way with
  | binary rule =>
    obtain ⟨right, w, hw, h⟩ := bind_ok h
    cases h
    exact ⟨⟨.whole (hread.seq (R.expr_ok hw).builds) rfl ⟨rfl, trivial, trivial⟩, rfl⟩, trivial⟩
  | within =>
    obtain ⟨right, w, hw, h⟩ := bind_ok h
    cases h
    exact ⟨⟨.whole (hread.seq (R.expr_ok hw).builds) rfl ⟨rfl, trivial, trivial⟩, rfl⟩, trivial⟩
  | behind op =>
    cases h
    have hplain : (op != .await && op != .yield) = true := by simpa using behind_plain hway
    exact ⟨⟨.whole hread rfl ⟨hplain, trivial, trivial⟩, rfl⟩, trivial⟩
  | cast => exact R.castContinuation_ok hread h
  | typeTest op =>
    obtain ⟨right, w, hw, h⟩ := bind_ok h
    cases h
    exact ⟨⟨.whole (hread.seq (R.typeExpr hw).builds) rfl ⟨rfl, trivial, trivial⟩, rfl⟩, trivial⟩
  | assign =>
    obtain ⟨left, w, hw, hgo⟩ := bind_ok h
    obtain ⟨rfl, hleft, hspan⟩ := assignmentTarget_ok hw
    obtain ⟨right, x, hx, hdone⟩ := bind_ok hgo
    cases hdone
    have hright := R.assignmentExpr_ok hx
    exact ⟨⟨.whole ((hread.rework hleft).seq hright.builds)
      rfl ⟨rfl, trivial, trivial⟩, rfl⟩, hbase.assigned hright hspan⟩
  | compoundAssign =>
    obtain ⟨right, w, hw, h⟩ := bind_ok h
    cases h
    have hright := R.assignmentExpr_ok hw
    exact ⟨⟨.whole (hread.seq hright.builds)
      rfl ⟨rfl, trivial, trivial⟩, rfl⟩, hbase.assigned hright rfl⟩
  | conditional => exact R.conditionalContinuation_ok hread h
  | list => exact R.listContinuation_ok hread h
  | dot => exact R.dotContinuation_ok hread h
  | index => exact R.indexContinuation_ok hread h
  | call => exact R.callContinuation_ok hread h
  | optionalChain => exact R.optionalContinuation_ok hread h

theorem continuations_ok {fuel : Nat} {base e : Expr} {allowIn : Bool} {level : Precedence}
    (hbase : ExprRead lossy s base u) (h : r.continuations allowIn level fuel base u = .ok e t) :
    ExprRead lossy s e t := by
  induction fuel generalizing base u with
  | zero => exact (exhausted_ok h).elim
  | succ fuel ih =>
    unfold continuations at h
    rw [get_bind] at h
    cases hway : continuation? allowIn level u with
    | none =>
      rw [hway] at h
      cases h
      exact hbase
    | some way =>
      rw [hway] at h
      obtain ⟨v, hv, h⟩ := bind_next lossy (continuation?_proper hway) h
      obtain ⟨longer, w, hw, h⟩ := bind_ok h
      rw [hbase.mark] at hw
      exact ih (R.continueWith_ok hbase hway hv hw) h

theorem continued_ok {base e : Expr} {allowIn : Bool} {level : Precedence}
    (hbase : ExprRead lossy s base u) (h : r.continued base allowIn level u = .ok e t) :
    ExprRead lossy s e t := R.continuations_ok hbase h

theorem operand?_ok {mode : ExprMode} {found : Option Expr} (h : r.operand? mode s = .ok found t) :
    OptRead lossy s found t := by
  obtain ⟨first, u, hu, hgo⟩ := bind_ok h
  have hfirst := R.optPrimaryRule_ok hu
  cases first with
  | some e =>
    cases hgo
    exact hfirst
  | none =>
    obtain rfl : u = s := hfirst
    dsimp only at hgo
    rw [token_bind] at hgo
    cases hrule : (OperatorRule.front? u.token).filter (mode.level ≤ ·.level) with
    | some rule =>
      rw [hrule] at hgo
      obtain ⟨e, v, hv, hdone⟩ := bind_ok hgo
      cases hdone
      exact R.unaryExpr_ok (Option.filter_eq_some_iff.mp hrule).1 hv
    | none =>
      rw [hrule] at hgo
      dsimp only at hgo
      split at hgo
      · obtain ⟨e, v, hv, hdone⟩ := bind_ok hgo
        cases hdone
        exact R.functionExpr_ok hv
      · cases hgo
        rfl

theorem optExprRule_ok {mode : ExprMode} {found : Option Expr}
    (h : r.optExprRule mode s = .ok found t) : OptRead lossy s found t := by
  obtain ⟨first, u, hu, h⟩ := bind_ok h
  have hfirst := R.operand?_ok hu
  cases first with
  | some base =>
    obtain ⟨e, v, hv, h⟩ := bind_ok h
    cases h
    exact R.continued_ok hfirst hv
  | none =>
    cases h
    exact hfirst

theorem exprRule_ok {mode : ExprMode} {e : Expr} (h : r.exprRule mode s = .ok e t) :
    ExprRead lossy s e t := by
  obtain ⟨found, u, hu, h⟩ := bind_ok h
  have hfound := R.optExprRule_ok hu
  cases found with
  | some e =>
    cases h
    exact hfound
  | none => exact (unexpected_ok h).elim

end Rules.Builder

end ActionSyntax
