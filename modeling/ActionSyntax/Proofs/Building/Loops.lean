import ActionSyntax.Proofs.Building.Expressions
import ActionSyntax.Proofs.Reads.Statements

/-!
What is built of loops and conditional statements. What surrounds a statement goes along with the
context in which it is read.
-/

namespace ActionSyntax

set_option autoImplicit false

open Parse Setting Setting.Sound Rules

variable {lossy : Prop} {k : Bool} {s t u : ParserState}

/-- What a loop binds has been read: a declaration or an expression. -/
def HeadRead (lossy : Prop) (s : ParserState) (head : ForBinding) (t : ParserState) : Prop :=
  match head with
  | .variable d => Whole lossy s (.declaration d) t
  | .expression e => ExprRead lossy s e t

theorem HeadRead.builds {head : ForBinding} (h : HeadRead lossy s head t) :
    Builds lossy true s [head.piece] t := by
  match head, h with
  | .variable d, h => exact Whole.builds h
  | .expression e, h => exact (ExprRead.toWhole h).builds

namespace Rules.Builder

variable {r : Rules} (R : r.Builder lossy)
include R

theorem headExpr_ok {e : Expr} (h : r.headExpr s = .ok e t) : Builds lossy true s [.expr e] t := by
  obtain ⟨u, hu, -, h⟩ := bind_expect lossy (proper_kind (by decide)) h
  obtain ⟨found, v, hv, h⟩ := bind_ok h
  obtain ⟨w, hw, -, h⟩ := bind_expect lossy (proper_kind (by decide)) h
  cases h
  exact hu.builds.skip ((R.expr_ok hv).builds.close hw.builds)

/-- An expression that stands in front of a token unless that token stands there already. -/
theorem exprUnless_ok {p : Prop} {found : Option Expr}
    (h : p ∧ (pure none : Parse (Option Expr)) s = .ok found t ∨
      ¬ p ∧ (some <$> r.expr {}) s = .ok found t) :
    Builds lossy false s (found.toList.map .expr) t := by
  rcases h with ⟨-, h⟩ | ⟨-, h⟩
  · cases h
    exact .refl _
  · obtain ⟨e, he, rfl⟩ := map_ok h
    exact (R.expr_ok he).builds.weaken

theorem eachBinding_ok {head : ForBinding} (h : r.eachBinding s = .ok head t) :
    HeadRead lossy s head t := by
  obtain ⟨found, u, hu, hgo⟩ := bind_ok h
  have hfound := R.variableDeclaration?_ok hu
  cases found with
  | some d =>
    cases hgo
    exact hfound
  | none =>
    obtain rfl : u = s := hfound
    obtain ⟨e, v, hv, hdone⟩ := bind_ok hgo
    cases hdone
    exact R.expr_ok hv

theorem forHead_ok {found : Option ForBinding} (h : r.forHead s = .ok found t) :
    match found with
    | some head => HeadRead lossy s head t
    | none => t = s := by
  obtain ⟨declared, u, hu, hgo⟩ := bind_ok h
  have hdeclared := R.variableDeclaration?_ok hu
  cases declared with
  | some d =>
    cases hgo
    exact hdeclared
  | none =>
    obtain rfl : u = s := hdeclared
    obtain ⟨read, v, hv, hdone⟩ := bind_ok hgo
    have hread := R.optExpr hv
    cases read with
    | some e =>
      cases hdone
      exact hread
    | none =>
      cases hdone
      exact hread

theorem forInit_ok {head init : ForBinding} (hhead : HeadRead lossy s head u)
    (h : r.forInit head u = .ok init t) : Builds lossy true s [init.piece] t := by
  match head, hhead with
  | .variable d, hhead =>
    cases h
    exact HeadRead.builds hhead
  | .expression e, hhead =>
    obtain ⟨longer, v, hv, h⟩ := bind_ok h
    cases h
    exact (R.continued_ok hhead hv).builds

theorem caseTest_ok {test : Option Expr} (h : r.caseTest s = .ok test t) :
    Builds lossy true s (test.toList.map .expr) t := by
  rcases bind_if lossy (proper_keyword _) h with ⟨u, hu, -, h⟩ | h
  · obtain ⟨e, he, rfl⟩ := map_ok h
    exact hu.builds.skip (R.expr_ok he).builds
  · obtain ⟨u, hu, -, h⟩ := bind_expect lossy (proper_keyword _) h
    cases h
    exact hu.builds

theorem typeCaseHead?_ok {found : Option (Option Pattern)} (h : r.typeCaseHead? s = .ok found t) :
    match found with
    | some pattern => Builds lossy true s (pattern.toList.map .pattern) t
    | none => t = s := by
  rcases bind_if lossy (proper_keyword _) h with ⟨u, hu, -, h⟩ | h
  · obtain ⟨v, hv, -, h⟩ := bind_expect lossy (proper_kind (by decide)) h
    obtain ⟨pattern, w, hw, h⟩ := bind_ok h
    obtain ⟨x, hx, -, h⟩ := bind_expect lossy (proper_kind (by decide)) h
    cases h
    exact hu.builds.skip (hv.builds.skip ((R.pattern_ok hw).builds.close hx.builds))
  rcases bind_if lossy (proper_keyword _) h with ⟨u, hu, -, h⟩ | h
  · cases h
    exact hu.builds
  · cases h
    rfl

variable {around : Situation} {c : Context} (agrees : around.Agrees c) {statement : Statement}
  {ended : Bool}
include agrees

theorem ifStatement_ok (more : s.token.kind ≠ .endOfProgram)
    (h : r.ifStatement c s = .ok (statement, ended) t) :
    BuildsIn lossy k true s [.statement around statement] t := by
  unfold ifStatement at h
  rw [mark_bind] at h
  obtain ⟨u, hu, h⟩ := bind_next lossy more h
  obtain ⟨test, v, hv, h⟩ := bind_ok h
  obtain ⟨⟨consequent, whole⟩, w, hw, h⟩ := bind_ok h
  have hread := hu.builds.skip ((R.headExpr_ok hv).seq (R.statement agrees.nested hw))
  rcases bind_allowed lossy (proper_keyword _) h with ⟨x, -, hx, h⟩ | h
  · obtain ⟨⟨alternative, whole⟩, y, hy, h⟩ := bind_ok h
    cases h
    have hall := hread.seq (hx.builds.skip (R.statement agrees.nested hy))
    exact .whole hall rfl ⟨rfl, trivial, trivial⟩
  · cases h
    exact .whole hread rfl ⟨rfl, trivial, trivial⟩

theorem doStatement_ok (more : s.token.kind ≠ .endOfProgram)
    (h : r.doStatement c s = .ok (statement, ended) t) :
    BuildsIn lossy k true s [.statement around statement] t := by
  unfold doStatement at h
  rw [mark_bind] at h
  obtain ⟨u, hu, h⟩ := bind_next lossy more h
  obtain ⟨⟨body, whole⟩, v, hv, h⟩ := bind_ok h
  cases whole with
  | false =>
    obtain ⟨_, w, hw, -⟩ := bind_ok h
    exact (unexpected_ok hw).elim
  | true =>
    obtain ⟨w, hw, -, h⟩ := bind_expect lossy (proper_keyword _) h
    obtain ⟨test, x, hx, h⟩ := bind_ok h
    cases h
    exact .whole (hu.builds.skip ((R.statement agrees.loopBody hv).seq
      (hw.builds.skip (R.headExpr_ok hx)))) rfl ⟨rfl, trivial, trivial⟩

theorem whileStatement_ok (more : s.token.kind ≠ .endOfProgram)
    (h : r.whileStatement c s = .ok (statement, ended) t) :
    BuildsIn lossy k true s [.statement around statement] t := by
  unfold whileStatement at h
  rw [mark_bind] at h
  obtain ⟨u, hu, h⟩ := bind_next lossy more h
  obtain ⟨test, v, hv, h⟩ := bind_ok h
  obtain ⟨⟨body, whole⟩, w, hw, h⟩ := bind_ok h
  cases h
  exact .whole (hu.builds.skip ((R.headExpr_ok hv).seq (R.statement agrees.loopBody hw)))
    rfl ⟨rfl, trivial, trivial⟩

section For

theorem forInRest_ok {iteratesKeys : Bool} {left : ForBinding} (hu : Builds lossy true s [left.piece] u)
    (h : (do
        let right ← r.expr {}
        expect .rightParen
        let (body, ended) ← r.statement c.loopBody
        return (Statement.forIn (← finish (Mark.ofSpan s.token.span)) iteratesKeys left right body,
          ended) : Parse Ended) u = .ok (statement, ended) t) :
    BuildsIn lossy k true s [.statement around statement] t := by
  obtain ⟨right, w, hw, h⟩ := bind_ok h
  obtain ⟨x, hx, -, h⟩ := bind_expect lossy (proper_kind (by decide)) h
  obtain ⟨⟨body, whole⟩, y, hy, h⟩ := bind_ok h
  cases h
  have hrest := (R.expr_ok hw).builds.seq (hx.builds.skip (R.statement agrees.loopBody hy))
  exact .whole (hu.seq hrest) rfl ⟨rfl, trivial, trivial⟩

theorem forInStatement_ok {iteratesKeys : Bool} {left : ForBinding}
    (hu : Builds lossy true s [left.piece] u)
    (h : r.forInStatement c (Mark.ofSpan s.token.span) iteratesKeys left u =
      .ok (statement, ended) t) : BuildsIn lossy k true s [.statement around statement] t := by
  unfold forInStatement at h
  split at h
  · obtain ⟨v, hv, h⟩ := bind_report lossy rfl h (by decide)
    exact R.forInRest_ok agrees (hu.close hv.builds) h
  · exact R.forInRest_ok agrees hu h

theorem forRest_ok {init : Option ForBinding}
    (hu : Builds lossy true s (init.toList.map ForBinding.piece) u)
    (h : r.forRest c (Mark.ofSpan s.token.span) init u = .ok (statement, ended) t) :
    BuildsIn lossy k true s [.statement around statement] t := by
  obtain ⟨v, hv, -, h⟩ := bind_expect lossy (proper_kind (by decide)) h
  rw [at?_bind] at h
  obtain ⟨test, w, hw, h⟩ := bind_either h
  obtain ⟨x, hx, -, h⟩ := bind_expect lossy (proper_kind (by decide)) h
  rw [at?_bind] at h
  obtain ⟨update, y, hy, h⟩ := bind_either h
  obtain ⟨z, hz, -, h⟩ := bind_expect lossy (proper_kind (by decide)) h
  obtain ⟨⟨body, whole⟩, z', hz', h⟩ := bind_ok h
  cases h
  have hloop := (R.exprUnless_ok hy).seq (hz.builds.skip (R.statement agrees.loopBody hz'))
  have hall := hu.seq (hv.builds.skip ((R.exprUnless_ok hw).seq (hx.builds.skip hloop)))
  refine .whole ?_ rfl ⟨rfl, trivial, trivial⟩
  simpa [Piece.children, Statement.children] using hall

theorem forStatement_ok (more : s.token.kind ≠ .endOfProgram)
    (h : r.forStatement c s = .ok (statement, ended) t) :
    BuildsIn lossy k true s [.statement around statement] t := by
  unfold forStatement at h
  rw [mark_bind] at h
  obtain ⟨u, hu, h⟩ := bind_next lossy more h
  rcases bind_if lossy (proper_contextKeyword _) h with ⟨v, hv, -, h⟩ | h
  · obtain ⟨w, hw, -, h⟩ := bind_expect lossy (proper_kind (by decide)) h
    obtain ⟨left, x, hx, h⟩ := bind_ok h
    obtain ⟨y, hy, -, h⟩ := bind_expect lossy (proper_keyword _) h
    have hleft := (R.eachBinding_ok hx).builds.close hy.builds
    exact R.forInStatement_ok agrees (hu.builds.skip (hv.builds.skip (hw.builds.skip hleft))) h
  obtain ⟨v, hv, -, h⟩ := bind_expect lossy (proper_kind (by decide)) h
  obtain ⟨found, w, hw, h⟩ := bind_ok h
  have hfound := R.forHead_ok hw
  have hstart := hu.builds.skip hv.builds
  cases found with
  | none =>
    rw [hfound] at h
    have hnone : Builds lossy true s ((none : Option ForBinding).toList.map ForBinding.piece) v := hstart
    exact R.forRest_ok agrees hnone h
  | some head =>
    have hhead := hstart.skip (HeadRead.builds hfound)
    rcases bind_if lossy (proper_keyword _) h with ⟨x, hx, -, h⟩ | h
    · exact R.forInStatement_ok agrees (hhead.close hx.builds) h
    · obtain ⟨init, x, hx, h⟩ := bind_ok h
      have hsome : Builds lossy true s ((some init).toList.map ForBinding.piece) x :=
        hstart.skip (R.forInit_ok hfound hx)
      exact R.forRest_ok agrees hsome h

end For

section Switch

theorem caseStatements_ok :
    ∀ {fuel : Nat} {statements : List Statement} {ended : Bool} {s t : ParserState},
      r.caseStatements c fuel s = .ok (statements, ended) t →
      BuildsIn lossy c.isConstructor false s (statements.map (.statement around)) t
  | 0, _, _, _, _, h => (exhausted_ok h).elim
  | fuel + 1, statements, ended, s, t, h => by
    unfold caseStatements at h
    rw [token_bind] at h
    split at h
    · cases h
      exact .refl _
    obtain ⟨⟨first, whole⟩, u, hu, h⟩ := bind_ok h
    have hfirst := R.statement agrees hu
    cases whole with
    | true =>
      obtain ⟨⟨rest, allEnded⟩, v, hv, h⟩ := bind_ok h
      cases h
      exact (hfirst.seq (caseStatements_ok hv)).weaken
    | false =>
      cases h
      exact hfirst.weaken

theorem switchCases_ok (hplain : c.isConstructor = false) :
    ∀ {fuel : Nat} {cases : List SwitchCase} {s t : ParserState},
      r.switchCases c fuel s = .ok cases t →
      Builds lossy false s (cases.map (.switchCase around)) t
  | 0, _, _, _, h => (exhausted_ok h).elim
  | fuel + 1, all, s, t, h => by
    unfold switchCases at h
    rw [at?_bind] at h
    split at h
    · cases h
      exact .refl _
    rw [mark_bind] at h
    obtain ⟨test, u, hu, h⟩ := bind_ok h
    obtain ⟨v, hv, -, h⟩ := bind_expect lossy (proper_kind (by decide)) h
    obtain ⟨⟨consequent, whole⟩, w, hw, h⟩ := bind_ok h
    dsimp only at h
    rw [finish_bind] at h
    have hstatements := R.caseStatements_ok agrees hw
    rw [hplain] at hstatements
    have hfirst : Builds lossy true s [.switchCase around
        { span := (Mark.ofSpan s.token.span).«to» w.previous.span, test, consequent }] w :=
      .whole ((R.caseTest_ok hu).seq (hv.builds.skip hstatements))
        rfl ⟨rfl, trivial, trivial⟩
    cases whole with
    | true =>
      obtain ⟨rest, x, hx, h⟩ := bind_ok h
      cases h
      exact (hfirst.seq (switchCases_ok hplain hx)).weaken
    | false =>
      cases h
      exact hfirst.weaken

theorem typeCase?_ok {found : Option TypeCase} (h : r.typeCase? c s = .ok found t) :
    Builds lossy false s (found.toList.map (.typeCase around)) t := by
  unfold typeCase? at h
  rw [mark_bind] at h
  obtain ⟨head, u, hu, hgo⟩ := bind_ok h
  have hhead := R.typeCaseHead?_ok hu
  cases head with
  | none =>
    cases hgo
    rw [hhead]
    exact .refl _
  | some pattern =>
    obtain ⟨block, v, hv, hdone⟩ := bind_ok hgo
    cases hdone
    exact (BuildsIn.whole (p := .typeCase around _)
      (hhead.seq (R.block agrees.nested hv).builds) rfl ⟨rfl, trivial, trivial⟩).weaken

theorem switchStatement_ok (more : s.token.kind ≠ .endOfProgram)
    (h : r.switchStatement c s = .ok (statement, ended) t) :
    BuildsIn lossy k true s [.statement around statement] t := by
  unfold switchStatement at h
  rw [mark_bind] at h
  obtain ⟨u, hu, h⟩ := bind_next lossy more h
  rcases bind_if lossy (proper_contextKeyword _) h with ⟨v, hv, -, h⟩ | h
  · obtain ⟨discriminant, w, hw, h⟩ := bind_ok h
    obtain ⟨x, hx, -, h⟩ := bind_expect lossy (proper_kind (by decide)) h
    obtain ⟨cases, y, hy, h⟩ := bind_ok h
    obtain ⟨z, hz, -, h⟩ := bind_expect lossy (proper_kind (by decide)) h
    cases h
    have hcases := (collectWhile_each (fun h => R.typeCase?_ok agrees h) hy).close hz.builds
    exact .whole (hu.builds.skip (hv.builds.skip
      ((R.headExpr_ok hw).seq (hx.builds.skip hcases)))) rfl ⟨rfl, trivial, trivial⟩
  obtain ⟨discriminant, w, hw, h⟩ := bind_ok h
  obtain ⟨x, hx, -, h⟩ := bind_expect lossy (proper_kind (by decide)) h
  obtain ⟨cases, y, hy, h⟩ := bind_ok h
  obtain ⟨z, hz, -, h⟩ := bind_expect lossy (proper_kind (by decide)) h
  cases h
  have hcases := (R.switchCases_ok agrees.switchBody rfl hy).close hz.builds
  exact .whole (hu.builds.skip ((R.headExpr_ok hw).seq (hx.builds.skip hcases)))
    rfl ⟨rfl, trivial, trivial⟩

end Switch

end Rules.Builder

end ActionSyntax
