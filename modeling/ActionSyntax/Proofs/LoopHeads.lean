import ActionSyntax.Proofs.Shadows.Stages

/-!
The first expression in the head of a loop. It is read in two steps, since `in` may follow: first as
tightly as operands bind, and then on from there. What can be read at once and not in two steps begins
with an operator, with a function, or with parentheses that hold the parameters of a function.
-/

namespace ActionSyntax

set_option autoImplicit false

open Parse Setting

section Openings

mutual

/-- The operand at which an expression begins may stand where only a tight operand may. It is told
whether a name stands first, as it does in front of an arrow that needs no parentheses. -/
def Expr.opensTight (named : Bool) : Expr → Bool
  | .unary _ op operand => op.unaryBinding == .suffix && operand.opensTight named
  | .binary _ _ left _ => left.opensTight named
  | .typeBinary _ _ left _ => left.opensTight named
  | .member _ base _ _ => base.opensTight named
  | .index _ base _ _ => base.opensTight named
  | .call _ base _ _ => base.opensTight named
  | .instantiation _ base _ => base.opensTight named
  | .conditional _ test _ _ => test.opensTight named
  | .assignment _ left _ _ => left.opensTight named
  | .list _ expressions => Expr.firstOpensTight named expressions
  | .function .. => named
  | _ => true

def AssignmentTarget.opensTight (named : Bool) : AssignmentTarget → Bool
  | .expression e => e.opensTight named
  | .pattern _ => true

def Expr.firstOpensTight (named : Bool) : List Expr → Bool
  | [] => true
  | first :: _ => first.opensTight named

end

theorem Expr.opensTight_of_operand {e : Expr} (h : e.isOperand = true) (named : Bool) :
    e.opensTight named = true := by
  cases e <;> first | rfl | cases h

end Openings

namespace Rules

variable {r : Rules} {s t u : ParserState} {allowIn : Bool} {level : Precedence}

/-- However an expression goes on, it begins as it did. -/
theorem Continuation.Extends.opensTight {way : Continuation} {base e : Expr} (h : way.Extends base e)
    (hway : way.Within allowIn level) (named : Bool) : e.opensTight named = base.opensTight named := by
  cases h with
  | behind =>
    have hop : Operator.unaryBinding _ = .suffix := hway
    simp [Expr.opensTight, hop]
  | apart hoperand _ => exact (Expr.opensTight_of_operand hoperand named).symm
  | _ => rfl

theorem continuations_opensTight {fuel : Nat} {base e : Expr} (named : Bool)
    (h : r.continuations allowIn level fuel base s = .ok e t) :
    e.opensTight named = base.opensTight named :=
  continuations_keep (p := fun e => e.opensTight named = base.opensTight named) rfl
    (fun hway hextends hbase => (hextends.opensTight hway named).trans hbase) h

section Operands

/-- An operator in front of an operand is looser than those behind one. -/
theorem OperatorRule.front?_loose {t : Token} {rule : OperatorRule}
    (h : OperatorRule.front? t = some rule) :
    rule.level < .suffix ∧ rule.operator.unaryBinding ≠ .suffix ∧
      t.kind ∈ [.operator, .keyword, .exclamationMark] := by
  unfold OperatorRule.front? at h
  repeat' split at h
  all_goals cases h
  all_goals simp_all
  all_goals decide

/-- An operand is a primary, or it begins with an operator or with the keyword of functions. -/
theorem operand?_inv {mode : ExprMode} {e : Expr} (h : r.operand? mode s = .ok (some e) t) :
    r.optPrimaryRule mode.allowTyped mode.level s = .ok (some e) t ∨
      (r.optPrimaryRule mode.allowTyped mode.level s = .ok none s ∧
        s.token.kind ∈ [.operator, .keyword, .exclamationMark] ∧ e.opensTight false = false) := by
  obtain ⟨found, u, hfound, hrest⟩ := bind_ok h
  cases found with
  | some e =>
    cases hrest
    exact Or.inl hfound
  | none =>
    obtain rfl := optPrimaryRule_none hfound
    refine Or.inr ⟨hfound, ?_⟩
    dsimp only at hrest
    rw [token_bind] at hrest
    cases hrule : (OperatorRule.front? u.token).filter (mode.level ≤ ·.level) with
    | some rule =>
      rw [hrule] at hrest
      obtain ⟨e, v, hv, hsome⟩ := bind_ok hrest
      cases hsome
      obtain ⟨-, hloose, hkind⟩ := OperatorRule.front?_loose (Option.filter_eq_some_iff.mp hrule).1
      obtain ⟨span, operand, rfl⟩ := unaryExpr_ok hv
      exact ⟨hkind, by simp [Expr.opensTight, hloose]⟩
    | none =>
      rw [hrule] at hrest
      dsimp only at hrest
      split at hrest
      · rename_i hword
        obtain ⟨e, v, hv, hsome⟩ := bind_ok hrest
        cases hsome
        simp only [Bool.and_eq_true, Token.isKeyword, beq_iff_eq] at hword
        obtain ⟨span, id, common, rfl⟩ := functionExpr_ok hv
        exact ⟨by simp [hword.2.1], rfl⟩
      · cases hrest

theorem optPrimaryRule_opened {allowTyped : Bool} {e : Expr} (hkind : s.token.kind = .leftParen)
    (h : r.optPrimaryRule allowTyped level s = .ok (some e) u) :
    ∃ s', Parse.next s = .ok () s' ∧
      r.parensPrimary (Mark.ofSpan s.token.span) level s' = .ok e u := by
  have hquiet : s.token.toLexeme.Quiet := by
    refine ⟨?_, ?_, ?_⟩ <;> simp [hkind]
  unfold optPrimaryRule consumeIdentifier at h
  rw [mark_bind, bind_of_ok (consume_no (by simp [hkind]))] at h
  simp only [Bool.false_eq_true, if_false, bind_of_ok (simplePrimary?_quiet hquiet _)] at h
  obtain ⟨opened, s', hopened, hrest⟩ := bind_ok h
  rcases consume_inv hopened with ⟨rfl, -, hnext⟩ | ⟨-, hne, -⟩
  · obtain ⟨e, _, hparens, hsome⟩ := bind_ok hrest
    cases hsome
    exact ⟨s', hnext, hparens⟩
  · exact absurd hkind hne

theorem arrowFunction_loose {m : Mark} {params : Params} {result : Option TypeExpr} {e : Expr}
    (h : r.arrowFunction m params result s = .ok e t) : e.opensTight false = false := by
  obtain ⟨span, common, rfl, -⟩ := arrowFunction_ok h
  rfl

/-- What stands in parentheses is an expression, unless it is the parameters of a function. -/
theorem parensOrArrow_inv {m : Mark} {e : Expr} (h : r.parensOrArrow m s = .ok e u) :
    (s.token.kind = .rightParen ∧ e.opensTight false = false) ∨
      ∃ items atRest s', r.parensItems r.rounds [] s = .ok (items, atRest) s' ∧
        ((atRest = true ∧ e.opensTight false = false ∧ r.restArrowFunction m items s' = .ok e u) ∨
          (atRest = false ∧ s'.token.kind = .rightParen ∧ ∃ s'', Parse.next s' = .ok () s'' ∧
            ((s''.token.kind ∈ [.colon, .arrow] ∧ e.opensTight false = false) ∨
              ∃ content span, parensContent items s'' = .ok content u ∧ e = .parens span content))) := by
  obtain ⟨closed, s₁, hclosed, hrest⟩ := bind_ok h
  rcases consume_inv hclosed with ⟨rfl, hkind, -⟩ | ⟨rfl, -, rfl⟩
  · obtain ⟨_, s₂, -, hfunction⟩ := bind_ok hrest
    exact Or.inl ⟨hkind, arrowFunction_loose hfunction⟩
  obtain ⟨⟨items, atRest⟩, s', hitems, hbehind⟩ := bind_ok hrest
  refine Or.inr ⟨items, atRest, s', hitems, ?_⟩
  cases atRest with
  | true =>
    refine Or.inl ⟨rfl, ?_, hbehind⟩
    obtain ⟨params, v, -, hbehind⟩ := bind_ok hbehind
    obtain ⟨rest, w, -, hbehind⟩ := bind_ok hbehind
    obtain ⟨_, x, -, hbehind⟩ := bind_ok hbehind
    obtain ⟨result, y, -, hbehind⟩ := bind_ok hbehind
    obtain ⟨_, z, -, hbehind⟩ := bind_ok hbehind
    exact arrowFunction_loose hbehind
  | false =>
    obtain ⟨_, s'', hexpect, hafter⟩ := bind_ok hbehind
    obtain ⟨hkind, hnext⟩ := expect_inv hexpect
    refine Or.inr ⟨rfl, hkind, s'', hnext, ?_⟩
    obtain ⟨typed, v, htyped, huntyped⟩ := bind_ok hafter
    rcases consume_inv htyped with ⟨rfl, hcolon, -⟩ | ⟨rfl, -, rfl⟩
    · obtain ⟨params, w, -, hfunction⟩ := bind_ok huntyped
      obtain ⟨result, x, -, hfunction⟩ := bind_ok hfunction
      obtain ⟨_, y, -, hfunction⟩ := bind_ok hfunction
      exact Or.inl ⟨by simp [hcolon], arrowFunction_loose hfunction⟩
    obtain ⟨arrow, w, harrow, hplain⟩ := bind_ok huntyped
    rcases consume_inv harrow with ⟨rfl, hkind', -⟩ | ⟨rfl, -, rfl⟩
    · obtain ⟨params, x, -, hfunction⟩ := bind_ok hplain
      exact Or.inl ⟨by simp [hkind'], arrowFunction_loose hfunction⟩
    obtain ⟨content, x, hcontent, hfinish⟩ := bind_ok hplain
    cases hfinish
    exact Or.inr ⟨content, _, hcontent, rfl⟩

end Operands

section Steps

variable {P : Pairing} {q r' q' q'' : Rules} (hr : r.optExpr = q.optExprRule)
  (hr' : r'.optExpr = q'.optExprRule) (hq' : q'.optExpr = q''.optExprRule) (h : RulesShadow P q q')
  (h' : RulesShadow P r q') (hcomma : P.Tells .tight fun t => t.kind == .comma)
  (hrounds : q.rounds < q'.rounds)
include hr hr' hq' h h' hcomma hrounds

/-- Parentheses that hold an expression are read alike at any level. Where they hold parameters, those are
no expression, or a colon or an arrow is left behind the parentheses. -/
theorem parens_stages {m : Mark} (m' : Mark) {base : Expr} (hst : P.near s t)
    (hread : r.parensOrArrow m s = .ok base u) (hgone : ¬ P.gone u) :
    (base.opensTight false = true ∧ ∃ base' v, r'.parensPrimary m' .suffix t = .ok base' v ∧
        P.near u v ∧ Matches base base') ∨
      (base.opensTight false = false ∧ ∀ base' v, r'.parensPrimary m' .suffix t = .ok base' v →
        v.token.kind ∈ [.colon, .arrow]) := by
  have htight : r'.parensPrimary m' .suffix = (do
      let e ← r'.expr {}
      expect .rightParen
      return .parens (← finish m') e) := if_pos (by decide)
  rw [htight]
  obtain ⟨hkind, hloose⟩ | ⟨items, atRest, s', hitems, hbehind⟩ := parensOrArrow_inv hread
  · refine Or.inr ⟨hloose, fun base' v hparens => ?_⟩
    obtain ⟨e, w, hexpr, -⟩ := bind_ok hparens
    have hkind' := P.same_kind hst (by simp [hkind])
    exact absurd hexpr (expr_refuses hr' (by simp [← hkind', hkind]))
  rcases hbehind with ⟨rfl, hloose, hrest⟩ | ⟨rfl, hclosed, s'', hnext, hcontent⟩
  · refine Or.inr ⟨hloose, fun base' v hparens => ?_⟩
    have hstays : ¬ P.gone s' := fun hs' =>
      (h'.restArrowFunction_starves m items).empty (P.gone_ended hs') hrest
    obtain ⟨hfalse, -⟩ | ⟨-, hnone⟩ :=
      expr_of_parensItems hr hq' h' hcomma hr' h hrounds hst hitems hstays
    · cases hfalse
    · obtain ⟨e, w, hexpr, -⟩ := bind_ok hparens
      exact absurd hexpr (hnone e w)
  have hproper : s'.token.kind ≠ .endOfProgram := by simp [hclosed]
  have hstays : ¬ P.gone s' := fun hs' => hproper (P.gone_ended hs').kind
  obtain ⟨-, content, e, w, hpure, hexpr, hnear, hmatch⟩ | ⟨htrue, -⟩ :=
    expr_of_parensItems hr hq' h' hcomma hr' h hrounds hst hitems hstays
  case inr => cases htrue
  have hstays'' : ¬ P.gone s'' := by
    rcases hcontent with ⟨hkind, -⟩ | ⟨_, _, hread', -⟩
    · intro hs''
      have hend := (P.gone_ended hs'').kind
      simp [hend] at hkind
    · rw [hpure] at hread'
      cases hread'
      exact hgone
  obtain ⟨w', hnext', hnear'⟩ := P.taken hnear hproper hnext hstays''
  have hparens : (do
      let e ← r'.expr {}
      expect .rightParen
      return .parens (← finish m') e : Parse Expr) t = .ok (.parens ( m'.«to» w'.previous.span) e) w' := by
    rw [bind_of_ok hexpr, bind_of_ok (expect_yes ((P.same_kind hnear hproper).symm.trans hclosed) hnext'),
      finish_bind]
    rfl
  rw [hparens]
  rcases hcontent with ⟨hkind, hloose⟩ | ⟨_, _, hread', rfl⟩
  · refine Or.inr ⟨hloose, fun base' v hv => ?_⟩
    cases hv
    rwa [← P.same_kind hnear' fun hend => by simp [hend] at hkind]
  · rw [hpure] at hread'
    cases hread'
    exact Or.inl ⟨rfl, _, w', rfl, hnear', by simpa using hmatch⟩

/-- The operand at which an expression begins is read where only a tight operand may stand just when it
opens tightly. Otherwise there is none, or a mark stands behind it that no expression goes on with. -/
theorem operand?_stages (hboth : RulesShadow P r r') {base : Expr} (hst : P.near s t)
    (hread : r.operand? { allowIn := false } s = .ok (some base) u) (hgone : ¬ P.gone u) :
    (base.opensTight (s.token.kind == .identifier) = true ∧ ∃ base' v,
        r'.operand? { allowIn := false, level := .suffix } t = .ok (some base') v ∧ P.near u v ∧
        Matches base base') ∨
      (base.opensTight (s.token.kind == .identifier) = false ∧ t.token.kind ≠ .semicolon ∧
        ∀ found v, r'.operand? { allowIn := false, level := .suffix } t = .ok found v →
          (found = none ∧ v = t) ∨ (∃ e, found = some e ∧ v.token.kind ∈ [.colon, .arrow])) := by
  have hprimaries : Shadows P .tight Matches (r.optPrimaryRule true .suffix) (r'.optPrimaryRule true .suffix) :=
    hboth.optPrimaryRule_shadows true .suffix
  rcases operand?_inv hread with hprimary | ⟨hnone, hkind, hloose⟩
  · by_cases hparen : s.token.kind = .leftParen
    · have hproper : s.token.kind ≠ .endOfProgram := by simp [hparen]
      have hparen' : t.token.kind = .leftParen := (P.same_kind hst hproper).symm.trans hparen
      obtain ⟨s', hnext, hparens⟩ := optPrimaryRule_opened hparen hprimary
      have hstays : ¬ P.gone s' := P.kept
        (show Shadows P .tight Matches _ _ from hboth.parensOrArrow_shadows _ (Mark.ofSpan s.token.span))
        hparens hgone
      obtain ⟨t', hnext', hst'⟩ := P.taken hst hproper hnext hstays
      have hopening := optPrimaryRule_opening (r := r') hparen' hnext' true .suffix
      rw [hparen, show (TokenKind.leftParen == .identifier) = false from rfl]
      rcases parens_stages hr hr' hq' h h' hcomma hrounds (Mark.ofSpan t.token.span) hst' hparens
        hgone with ⟨htight, base', v, hread', hnear, hmatch⟩ | ⟨hloose, hrefuses⟩
      · refine Or.inl ⟨htight, base', v, ?_, hnear, hmatch⟩
        unfold operand?
        rw [bind_of_ok (hopening.trans (bind_of_ok hread' _))]
        rfl
      · refine Or.inr ⟨hloose, by simp [hparen'], fun found v hfound => Or.inr ?_⟩
        obtain ⟨first, w, hfirst, hrest⟩ := bind_ok hfound
        rw [hopening] at hfirst
        obtain ⟨base', x, hread', hsome⟩ := bind_ok hfirst
        cases hsome
        cases hrest
        exact ⟨base', rfl, hrefuses base' _ hread'⟩
    · have hlevel : r.optPrimaryRule true .list s = r.optPrimaryRule true .suffix s :=
        optPrimaryRule_level hparen _ _
      have hprimary' : r.optPrimaryRule true .suffix s = .ok (some base) u := hlevel.symm.trans hprimary
      obtain ⟨found, v, hread', hnear, hfound⟩ := P.read hprimaries hst hprimary' hgone
      obtain ⟨base', rfl, hmatch⟩ : ∃ base', found = some base' ∧ Matches base base' := by
        cases found with
        | none => simp at hfound
        | some base' => exact ⟨base', rfl, by simpa using hfound⟩
      refine Or.inl ⟨?_, base', v, ?_, hnear, hmatch⟩
      · rcases optPrimaryRule_ok hprimary with hoperand | harrow | ⟨hkind, -⟩
        · exact Expr.opensTight_of_operand hoperand _
        · obtain ⟨span, common, rfl, -⟩ := harrow.arrow
          rw [harrow.named]
          rfl
        · exact absurd hkind hparen
      · unfold operand?
        rw [bind_of_ok hread']
        rfl
  · -- An operator in front, or the keyword of functions, is too loose.
    have hproper : s.token.kind ≠ .endOfProgram := by
      intro hend
      simp [hend] at hkind
    have hparen : s.token.kind ≠ .leftParen := by
      intro hparen
      simp [hparen] at hkind
    have hname : (s.token.kind == .identifier) = false := by
      rw [beq_eq_false_iff_ne]
      intro hname
      simp [hname] at hkind
    have hkind' := P.same_kind hst hproper
    have hlevel : r.optPrimaryRule true .list s = r.optPrimaryRule true .suffix s :=
      optPrimaryRule_level hparen _ _
    have hnone' : r.optPrimaryRule true .suffix s = .ok none s := hlevel.symm.trans hnone
    obtain ⟨first, v, hfirst, -, hmatch⟩ := P.read hprimaries hst hnone'
      fun hs => hproper (P.gone_ended hs).kind
    obtain rfl : first = none := by
      cases first with
      | none => rfl
      | some e => simp at hmatch
    obtain rfl := optPrimaryRule_none hfirst
    rw [hname]
    refine Or.inr ⟨hloose, ?_, fun found w hfound => Or.inl ?_⟩
    · rw [← hkind']
      intro hsemicolon
      simp [hsemicolon] at hkind
    · obtain ⟨found', x, hfound', hrest⟩ := bind_ok hfound
      rw [hfirst] at hfound'
      cases hfound'
      have hfront : (OperatorRule.front? v.token).filter
          (fun rule => decide (Precedence.suffix ≤ rule.level)) = none := by
        rw [Option.filter_eq_none_iff]
        intro rule hrule
        simp only [decide_eq_true_eq]
        exact Nat.not_le_of_lt (OperatorRule.front?_loose hrule).1
      dsimp only at hrest
      rw [token_bind, hfront] at hrest
      cases hrest
      exact ⟨rfl, rfl⟩

end Steps

section Heads

/-- No operand begins with the keyword of a declaration. -/
theorem operand?_declaring {mode : ExprMode} {word : String} (hword : word ∈ ["const", "var"])
    (hkeyword : s.token.isKeyword word = true) : r.operand? mode s = .ok none s := by
  obtain ⟨hkind, htext⟩ : s.token.kind = .keyword ∧ s.token.text = word := by
    simpa [Token.isKeyword] using hkeyword
  have hwords : word = "const" ∨ word = "var" := by simpa using hword
  have hquiet : s.token.toLexeme.Quiet := by
    refine ⟨?_, fun _ => ?_, ?_⟩
    · simp [hkind]
    · rw [show s.token.toLexeme.text = word from htext]
      rcases hwords with rfl | rfl <;> decide
    · simp [hkind]
  have hfront : OperatorRule.front? s.token = none := by
    unfold OperatorRule.front?
    rcases hwords with rfl | rfl <;> simp [hkind, htext]
  have hfunction : s.token.isKeyword "function" = false := by
    rcases hwords with rfl | rfl <;> simp [Token.isKeyword, htext]
  unfold operand?
  rw [bind_of_ok (optPrimaryRule_quiet hquiet (by simp [hkind]) _ _)]
  simp only [token_bind, hfront, hfunction, Option.filter_none, Bool.and_false]
  rfl

/-- Where an operand begins, no variables are declared. -/
theorem variableDeclaration?_none (h : ∀ word ∈ ["const", "var"], s.token.isKeyword word = false) :
    r.variableDeclaration? s = .ok none s := by
  unfold variableDeclaration?
  rw [atKeyword?_bind, h "const" (by simp), atKeyword?_bind, h "var" (by simp)]
  rfl

theorem continuation?_in (hword : s.token.isKeyword "in" = true) :
    continuation? false level s = none := by
  obtain ⟨hkind, htext⟩ : s.token.kind = .keyword ∧ s.token.text = "in" := by
    simpa [Token.isKeyword] using hword
  unfold continuation? OperatorRule.between? OperatorRule.behind?
  simp [hkind, htext, Token.isKeyword, Token.isContextKeyword]

variable {P : Pairing} {q r' q' q'' r'' : Rules} (hr : r.optExpr = q.optExprRule)
  (hr' : r'.optExpr = q'.optExprRule) (hr'' : r''.optExpr = r'.optExprRule)
  (hq' : q'.optExpr = q''.optExprRule) (h : RulesShadow P q q') (h' : RulesShadow P r q')
  (hboth : RulesShadow P r r') (hwhole : RulesShadow P r r'')
  (hcomma : P.Tells .tight fun t => t.kind == .comma) (hrounds : q.rounds < q'.rounds)
include hr hr' hr'' hq' h h' hboth hwhole hcomma hrounds

/-- An expression that takes up a text is read in two steps if it opens tightly. Otherwise the head of a
loop is left in front of it, or in front of a mark behind parentheses. -/
theorem forHead_stages {e : Expr} (hst : P.near s t)
    (hread : r.exprRule { allowIn := false } s = .ok e u) (hend : u.token.kind = .endOfProgram)
    (hgone : ¬ P.gone u) :
    (e.opensTight (s.token.kind == .identifier) = true ∧ ∃ first t' e' v,
        r''.forHead t = .ok (some (.expression first)) t' ∧ t'.token.isKeyword "in" = false ∧
        r''.continued first false .list t' = .ok e' v ∧ P.near u v ∧ Matches e e') ∨
      (e.opensTight (s.token.kind == .identifier) = false ∧ t.token.kind ≠ .semicolon ∧
        ∀ found v, r''.forHead t = .ok found v → (found = none ∧ v = t) ∨
          (∃ first, found = some (.expression first) ∧ v.token.kind ∈ [.colon, .arrow])) := by
  obtain ⟨found, w, hfound, hpure⟩ := bind_ok hread
  obtain ⟨operand, x, hoperand, hrest⟩ := bind_ok hfound
  cases operand with
  | none =>
    cases hrest
    cases hpure
  | some base =>
    obtain ⟨e', y, hcontinued, hsome⟩ := bind_ok hrest
    cases hsome
    cases hpure
    have hgone' : ¬ P.gone x := P.kept
      (hboth.continued_shadows false (Or.inr hcomma) (Matches.refl base)) hcontinued hgone
    have hdeclares : ∀ word ∈ ["const", "var"], t.token.isKeyword word = false := by
      intro word hword
      rw [← (P.sees hst).token.like.isKeyword, Bool.eq_false_iff]
      intro hkeyword
      rw [operand?_declaring hword hkeyword] at hoperand
      cases hoperand
    have hhead : r''.forHead t =
        (r'.optExprRule { allowIn := false, level := .suffix } >>= fun found =>
          pure (found.map .expression)) t := by
      have hopt := congrFun hr'' { allowIn := false, level := .suffix }
      unfold forHead
      refine (bind_of_ok (variableDeclaration?_none hdeclares) _).trans ?_
      rw [← hopt]
      refine congrFun (bind_congr fun found => ?_) t
      cases found <;> rfl
    rw [continuations_opensTight _ hcontinued, hhead]
    rcases operand?_stages hr hr' hq' h h' hcomma hrounds hboth hst hoperand hgone' with
      ⟨htight, base', y, hread', hnear, hmatch⟩ | ⟨hloose, hsemicolon, hrefuses⟩
    · obtain ⟨left, e₁, s₁, e₁', t₁, hfirst, hlast, hleft, hnear₁, hmatch₁⟩ := continuations_begin hboth
        hcomma (show Precedence.list ≤ .suffix by decide) hboth.rounds_le hnear hmatch hcontinued hgone
      have hin : t₁.token.isKeyword "in" = false := by
        rw [← (P.sees hnear₁).token.like.isKeyword, Bool.eq_false_iff]
        intro hword
        rw [RulesShadow.continuations_none (continuation?_in hword)] at hlast
        cases hlast
        simp [Token.isKeyword, hend] at hword
      obtain ⟨e', v, hlast', huv, he⟩ := P.read (hwhole.continuations_shadows false (Or.inr hcomma)
        (Nat.le_trans hleft hwhole.rounds_le) hmatch₁) hnear₁ hlast hgone
      refine Or.inl ⟨htight, e₁', t₁, e', v, ?_, hin, hlast', huv, he⟩
      unfold optExprRule
      rw [bind_assoc, bind_of_ok hread']
      dsimp only
      rw [bind_assoc, bind_of_ok (show r'.continued base' false .suffix y = .ok e₁' t₁ from hfirst)]
      rfl
    · refine Or.inr ⟨hloose, hsemicolon, fun found v hfound => ?_⟩
      obtain ⟨whole, w, hwhole, hmark⟩ := bind_ok hfound
      obtain ⟨first, z, hfirst, hmore⟩ := bind_ok hwhole
      rcases hrefuses first z hfirst with ⟨rfl, rfl⟩ | ⟨base', rfl, hkind⟩
      · cases hmore
        cases hmark
        exact Or.inl ⟨rfl, rfl⟩
      · obtain ⟨e', z', hcontinued', hsome⟩ := bind_ok hmore
        rw [show r'.continued base' false .suffix z = .ok base' z from
          RulesShadow.continuations_none (continuation?_behind hkind)] at hcontinued'
        cases hcontinued'
        cases hsome
        cases hmark
        exact Or.inr ⟨base', rfl, hkind⟩

end Heads

section Loops

variable {q : Rules} {whole read : List Char} {context : Context}

theorem semicolon_spells (rest : List Char) : Scan.Spells [' ', ';'] rest { kind := .semicolon } :=
  ⟨AllNarrow.plain (by decide), fun _ _ _ _ => ⟨_, _, rfl, rfl, rfl⟩⟩

theorem rightParen_spells (rest : List Char) : Scan.Spells [' ', ')'] rest { kind := .rightParen } :=
  ⟨AllNarrow.plain (by decide), fun _ _ _ _ => ⟨_, _, rfl, rfl, rfl⟩⟩

theorem rightBrace_closes : Scan.Spells ['}'] [] { kind := .rightBrace } :=
  ⟨AllNarrow.plain (by decide), fun _ _ _ _ => ⟨_, _, rfl, rfl, rfl⟩⟩

/-- A loop behind the opening parenthesis of its head. -/
def forFrom (r : Rules) (context : Context) (m : Mark) : Parse Ended := do
  match ← r.forHead with
  | none => r.forRest context m none
  | some head =>
    if ← consumeKeyword "in" then r.forInStatement context m true head
    else
      let init ← r.forInit head
      r.forRest context m (some init)

theorem statementRule_for (context : Context) (hword : s.token.toLexeme = { kind := .keyword, text := "for" })
    (hnext : Parse.next s = .ok () t) (hopen : t.token.kind = .leftParen)
    (hnext' : Parse.next t = .ok () u) :
    r.statementRule context s = r.forFrom context (Mark.ofSpan s.token.span) u := by
  have hkind : s.token.kind = .keyword := congrArg Lexeme.kind hword
  have htext : s.token.text = "for" := congrArg Lexeme.text hword
  have hfor : r.forStatement context s = r.forFrom context (Mark.ofSpan s.token.span) u := by
    have heach : consumeContextKeyword "each" t = .ok false t :=
      consumeIf_no (by simp [Token.isContextKeyword, hopen])
    unfold forStatement
    rw [mark_bind, bind_of_ok hnext, bind_of_ok heach, if_neg Bool.false_ne_true,
      bind_of_ok (expect_yes hopen hnext')]
    rfl
  have hstatement : r.optStatement context s = (some <$> r.forStatement context) s := by
    unfold optStatement
    rw [mark_bind, token_bind, hkind]
    show r.keywordStatement context _ s.token s = _
    unfold keywordStatement
    rw [htext]
    rfl
  exact (statementRule_of_found hstatement).trans hfor

/-- Nothing but an empty block is left of the loop. -/
theorem forRest_empty (context : Context) (hstatement : r.statement = q.statementRule)
    (h : s.Stands whole read { kind := .semicolon })
    (hrest : whole = read ++ [' ', ';', ' ', ')', ' ', '{', '}']) (m : Mark) (init : Option ForBinding) :
    ∃ span block t, r.forRest context m init s =
        .ok (.forLoop span init none none (.block block), true) t ∧
      Matches { span := default, statements := [] } block ∧ t.token.kind = .endOfProgram ∧
      t.script.valid = s.script.valid := by
  obtain ⟨t₁, hnext₁, hstands₁, hkeeps₁, -⟩ := h.next (semicolon_spells [' ', ')', ' ', '{', '}'])
    (by rw [hrest, List.append_assoc]; rfl)
  obtain ⟨t₂, hnext₂, hstands₂, hkeeps₂, -⟩ := hstands₁.next (rightParen_spells [' ', '{', '}'])
    (by rw [hrest, List.append_assoc, List.append_assoc]; rfl)
  obtain ⟨t₃, hnext₃, hstands₃, hkeeps₃, -⟩ := hstands₂.next (leftBrace_spells ['}'])
    (by rw [hrest, List.append_assoc, List.append_assoc, List.append_assoc]; rfl)
  obtain ⟨block, u, hblock, hmatch, hend, hkeeps⟩ := blockRule_empty hstands₃ rightBrace_closes
    (by rw [hrest, List.append_assoc, List.append_assoc, List.append_assoc]; rfl) q
    context.loopBody.nested
  have hbody : r.statement context.loopBody t₃ = .ok (.block block, true) u := by
    have hfound : q.optStatement context.loopBody t₃ = .ok (some (.block block, true)) u := by
      unfold optStatement
      rw [mark_bind, token_bind, hstands₃.kind]
      exact bind_of_ok hblock _
    rw [hstatement]
    unfold statementRule
    rw [bind_of_ok hfound]
    rfl
  refine ⟨m.«to» u.previous.span, block, u, ?_, hmatch, hend,
    (((hkeeps₁.trans hkeeps₂).trans hkeeps₃).trans hkeeps).valid⟩
  have htest : (at? .semicolon : Parse Bool) t₁ = .ok true t₁ := by
    rw [← bind_pure (at? .semicolon), at?_bind, hstands₁.kind]
    rfl
  have hupdate : (at? .rightParen : Parse Bool) t₂ = .ok true t₂ := by
    rw [← bind_pure (at? .rightParen), at?_bind, hstands₂.kind]
    rfl
  unfold forRest
  simp only [bind_of_ok (expect_yes h.kind hnext₁), bind_of_ok htest, if_true, pure_bind,
    bind_of_ok (expect_yes hstands₁.kind hnext₂), bind_of_ok hupdate,
    bind_of_ok (expect_yes hstands₂.kind hnext₃), bind_of_ok hbody, finish_bind]
  rfl

/-- A loop that does nothing but evaluate its initial expression. -/
def idleLoop (e : Expr) : Statement :=
  .forLoop default (some (.expression e)) none none (.block { span := default, statements := [] })

theorem forLoop_idle {e e' : Expr} {span : Span} {block : Block} (he : Matches e e')
    (hblock : Matches { span := default, statements := [] } block) :
    Matches (idleLoop e) (.forLoop span (some (.expression e')) none none (.block block)) := by
  have he : e.bare = e'.bare := he
  have hblock : { span := default, statements := [] } = block.bare := hblock
  simp [idleLoop, he, ← hblock]

theorem forRest_refused {found : Ended} (m : Mark) (init : Option ForBinding)
    (hkind : s.token.kind ≠ .semicolon) : r.forRest context m init s ≠ .ok found t := by
  intro hread
  obtain ⟨_, _, hexpect, -⟩ := bind_ok hread
  exact hkind (expect_inv hexpect).1

section Read

variable {e : Expr} {x : Excerpt} {q' q'' r' r'' : Rules} (hr : r.optExpr = q.optExprRule)
  (hr' : r'.optExpr = q'.optExprRule) (hr'' : r''.optExpr = r'.optExprRule)
  (hq' : q'.optExpr = q''.optExprRule) (hstatement : r''.statement = r'.statementRule)
  (h : RulesShadow (x.pairing true true) q q') (h' : RulesShadow (x.pairing true true) r q')
  (hboth : RulesShadow (x.pairing true true) r r') (hwhole : RulesShadow (x.pairing true true) r r'')
  (hrounds : q.rounds < q'.rounds)
  (hafter : x.after = [';', ' ', ';', ' ', ')', ' ', '{', '}'])
include hr hr' hr'' hq' hstatement h h' hboth hwhole hrounds hafter

/-- A loop is read behind its opening parenthesis just when the expression there opens tightly. -/
theorem forFrom_stages (context : Context) (hst : x.Near true true s t)
    (hread : r.exprRule { allowIn := false } s = .ok e u) (hend : u.token.kind = .endOfProgram)
    (hgone : ¬ x.Gone u) (m : Mark) :
    (e.opensTight (s.token.kind == .identifier) = true ∧ ∃ statement v,
        r''.forFrom context m t = .ok (statement, true) v ∧ Matches (idleLoop e) statement ∧
        v.token.kind = .endOfProgram ∧ v.script.valid = u.script.valid) ∨
      (e.opensTight (s.token.kind == .identifier) = false ∧
        ∀ found v, r''.forFrom context m t ≠ .ok found v) := by
  rcases forHead_stages hr hr' hr'' hq' h h' hboth hwhole
      (Excerpt.tells_comma (by simp [hafter])) hrounds hst hread hend hgone with
    ⟨htight, first, t', e', v, hhead, hin, hcontinued, hnear, he⟩ | ⟨hloose, hsemicolon, hrefuses⟩
  · have hnear : x.Near true true u v := hnear
    obtain ⟨span, block, w, hrest, hblock, hover, hvalid⟩ := forRest_empty context hstatement
      (hnear.stands_behind hend hafter) (by simp [Passage.whole, hafter]) m (some (.expression e'))
    refine Or.inl ⟨htight, .forLoop span (some (.expression e')) none none (.block block), w, ?_,
      forLoop_idle he hblock, hover, ?_⟩
    · unfold forFrom
      rw [bind_of_ok hhead]
      dsimp only
      rw [bind_of_ok (consumeKeyword_no hin), if_neg Bool.false_ne_true]
      unfold forInit
      rw [bind_assoc, bind_of_ok hcontinued]
      exact hrest
    · rw [hvalid]
      exact hnear.valid.symm
  · refine Or.inr ⟨hloose, fun found v hfrom => ?_⟩
    obtain ⟨head, w, hhead, hbehind⟩ := bind_ok hfrom
    rcases hrefuses head w hhead with ⟨rfl, rfl⟩ | ⟨first, rfl, hkind⟩
    · exact forRest_refused m none hsemicolon hbehind
    · have hin : w.token.isKeyword "in" = false := by
        rw [Bool.eq_false_iff]
        intro hword
        simp only [Token.isKeyword, Bool.and_eq_true, beq_iff_eq] at hword
        simp [hword.1] at hkind
      dsimp only at hbehind
      rw [bind_of_ok (consumeKeyword_no hin), if_neg Bool.false_ne_true] at hbehind
      obtain ⟨init, y, hinit, hrest⟩ := bind_ok hbehind
      obtain ⟨e', z, hcontinued, hsome⟩ := bind_ok hinit
      rw [show r''.continued first false .list w = .ok first w from
        RulesShadow.continuations_none (continuation?_behind hkind)] at hcontinued
      cases hcontinued
      cases hsome
      refine forRest_refused m _ ?_ hrest
      intro hsemicolon
      simp [hsemicolon] at hkind

end Read

end Loops

end Rules

section Wholes

open Rules

namespace Parser

variable {host : Host} {path E : String} {e : Expr}

theorem for_lexeme (rest : List Char) :
    Scan.lexeme (Cursor.ofContent ("for".toList ++ ([' ', '('] ++ rest))) =
      .ok ({ kind := .keyword, text := "for" }, ⟨' ' :: '(' :: rest, 3, 1, [], []⟩) := rfl

/-- An expression may be the initial part of a loop just when it opens tightly. -/
theorem parseStatement_for
    (he : ((Parser.ofScript host (Script.ofSource path E)).parseExpressionWith false .list).1 = some e)
    (hclosed : ((Parser.ofScript host (Script.ofSource path E)).parseExpressionWith false .list).2.state.Closed
      E.toList)
    (hblank : ∀ ch ∈ E.toList.head?, CharClass.isBlank ch = false) :
    ∃ statement, Matches (idleLoop e) statement ∧
      (Parser.ofScript host (Script.ofSource path ("for (" ++ E ++ "; ; ) {}"))).parseStatement.1 =
        if e.opensTight ((Parser.ofScript host (Script.ofSource path E)).state.token.kind == .identifier)
        then some statement else none := by
  obtain ⟨sE, hE, hvalidE⟩ := spans_of_run he
  rw [parseExpressionWith, run_of_spans hE] at hclosed
  obtain ⟨first, hscan, hread, hend⟩ := hE.from_first
  have hfirst : (Parser.ofScript host (Script.ofSource path E)).state = first := by
    unfold Parser.ofScript
    rw [hscan]
  rw [hfirst]
  let x : Excerpt :=
    { before := "for".toList ++ [' ', '(']
      piece := E.toList
      after := ';' :: [' ', ';', ' ', ')', ' ', '{', '}']
      stopped := Or.inr ⟨';', _, rfl, by decide⟩
      closing := by simp
      minded := True }
  have hplain : AllNarrow ("for".toList ++ [' ', '(']) := by decide
  have hl : x.Layered := ⟨trivial, rfl, hblank, by rintro ⟨⟨⟩, -⟩⟩
  generalize hsource : "for (" ++ E ++ "; ; ) {}" = source
  have hx : source.toList = x.whole := by simp [← hsource, x, Passage.whole]
  have hshadow : ∀ {n n' : Nat}, n ≤ n' →
      RulesShadow (x.pairing true true) (host.level n) (host.level n') :=
    fun hle => level_shadow host.readFile host.includeDepth hl hle
  have hgone : ¬ x.Gone sE := ParserState.Closed.not_gone (x := x.toPassage) hclosed
  have hstays : ¬ x.Gone first := (x.pairing true true).kept
    ((hshadow (Nat.le_refl _)).exprRule_shadows (Or.inr (Or.inl rfl))) hread hgone
  obtain ⟨hstands, hkeeps, t₁, t, hnext₁, hopen, hnext, hnear⟩ := Fragment.Near.ofScript_worded host
    hx rfl hplain rfl (for_lexeme (E.toList ++ x.after)) rfl rfl rfl hscan hstays
  have hlong : E.toList.length + 12 ≤ source.toList.length := by
    simp [← hsource]
  have hrounds : (host.level (E.toList.length + 2)).rounds <
      (host.level (source.toList.length + 1)).rounds := by
    show E.toList.length + 2 + 2 < source.toList.length + 1 + 2
    omega
  have hstages := forFrom_stages (host.level_optExpr (E.toList.length + 2))
    (host.level_optExpr (source.toList.length + 1)) (host.level_optExpr (source.toList.length + 2))
    (host.level_optExpr source.toList.length) (host.level_statement (source.toList.length + 2))
    (hshadow (by omega)) (hshadow (by omega)) (hshadow (by omega)) (hshadow (by omega)) hrounds rfl {}
    hnear hread hend hgone
    (Mark.ofSpan (Parser.ofScript host (Script.ofSource path source)).state.token.span)
  have hfor := statementRule_for (r := host.level (source.toList.length + 3)) {}
    hstands.token hnext₁ hopen hnext
  rcases hstages with ⟨htight, statement, v, hloop, hmatch, hover, hvalid⟩ | ⟨hloose, hrefused⟩
  · refine ⟨statement, hmatch, ?_⟩
    have hread' : ((host.level (source.toList.length + 3)).statementRule {} >>=
        fun found => pure found.1 : Parse Statement)
          (Parser.ofScript host (Script.ofSource path source)).state = .ok statement v := by
      rw [bind_of_ok (hfor.trans hloop)]
      rfl
    have hspans : (Parser.ofScript host (Script.ofSource path source)).Spans
        (fun r => r.statementRule {} >>= fun found => pure found.1) statement v :=
      spans_of_read hstands.content hkeeps.valid hread' hover
    rw [htight, if_pos rfl, parseStatement, run_of_spans hspans]
    exact if_pos (hvalid.trans hvalidE)
  · refine ⟨idleLoop e, rfl, ?_⟩
    rw [hloose, if_neg Bool.false_ne_true, Option.eq_none_iff_forall_ne_some]
    intro statement hstatement
    obtain ⟨v, hspans, -⟩ := spans_of_run hstatement
    obtain ⟨found, w, hfound, -⟩ := bind_ok (hspans.read_level hstands.content)
    exact hrefused found w (hfor.symm.trans hfound)

/-- A list that begins with an assignment. -/
theorem parseStatement_for_list : ∃ e statement,
    ((Parser.ofScript (Host.ofFiles []) (Script.ofSource "/a.es" "a = b ? c : [d], (e)")).parseExpressionWith
      false .list).1 = some e ∧
    (Parser.ofScript (Host.ofFiles []) (Script.ofSource "/a.es"
      ("for (" ++ "a = b ? c : [d], (e)" ++ "; ; ) {}"))).parseStatement.1 = some statement ∧
    Matches (idleLoop e) statement := by
  have hopens : ((Parser.ofScript (Host.ofFiles [])
      (Script.ofSource "/a.es" "a = b ? c : [d], (e)")).parseExpressionWith false .list).1.map
      (·.opensTight true) = some true := by decide +kernel
  have hnamed : ((Parser.ofScript (Host.ofFiles [])
      (Script.ofSource "/a.es" "a = b ? c : [d], (e)")).state.token.kind == .identifier) = true := by
    decide +kernel
  have hcomments : ((Parser.ofScript (Host.ofFiles [])
      (Script.ofSource "/a.es" "a = b ? c : [d], (e)")).parseExpressionWith
        false .list).2.script.comments = #[] := by decide +kernel
  obtain ⟨e, he, htight⟩ := Option.map_eq_some_iff.mp hopens
  obtain ⟨statement, hmatch, hrun⟩ :=
    parseStatement_for he (ParserState.closed_of_comments hcomments _) (by rintro _ ⟨⟩; rfl)
  rw [hnamed, if_pos htight] at hrun
  exact ⟨e, statement, he, hrun, hmatch⟩

/-- A negation is an expression, but no initial part of a loop. -/
theorem parseStatement_for_negation :
    ((Parser.ofScript (Host.ofFiles []) (Script.ofSource "/a.es" "-x")).parseExpressionWith
      false .list).1.isSome = true ∧
    (Parser.ofScript (Host.ofFiles []) (Script.ofSource "/a.es"
      ("for (" ++ "-x" ++ "; ; ) {}"))).parseStatement.1.isSome = false := by
  decide +kernel

end Parser

end Wholes

end ActionSyntax
