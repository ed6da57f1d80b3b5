import ActionSyntax.Proofs.Binding
import ActionSyntax.Proofs.Shadows.Framing
import ActionSyntax.Proofs.Shadows.Levels

/-!
Expressions that are asked for at one level in the first text and at another one in the second. What
continues an expression at a tight level does so at a loose level too, so a reading at the loose level
passes the place where one at the tight level stops.
-/

namespace ActionSyntax

set_option autoImplicit false

open Parse Setting

namespace Rules

section Stages

variable {r r' : Rules} {s t u : ParserState} {allowIn : Bool} {level tight : Precedence}

/-- An operator between two operands stands for nothing else. -/
theorem continuation?_of_between {rule : OperatorRule} {way : Continuation}
    (hbetween : OperatorRule.between? s.token = some rule)
    (hway : continuation? allowIn tight s = some way) : way = .binary rule ∧ tight ≤ rule.level := by
  by_cases hlevel : tight ≤ rule.level
  · unfold continuation? at hway
    dsimp only at hway
    rw [hbetween, Option.filter_some, if_pos (by simpa using hlevel)] at hway
    exact ⟨(Option.some.inj hway).symm, hlevel⟩
  exfalso
  have hkind : s.token.kind = .operator := by
    unfold OperatorRule.between? at hbetween
    split at hbetween
    · assumption
    · cases hbetween
  have hbehind : OperatorRule.behind? s.token = none := by
    unfold OperatorRule.between? at hbetween
    unfold OperatorRule.behind?
    rw [hkind] at hbetween ⊢
    cases hop : s.token.operator with
    | none => rfl
    | some op =>
      rw [hop] at hbetween
      cases op <;> first | rfl | cases hbetween
  unfold continuation? at hway
  dsimp only at hway
  rw [hbetween, Option.filter_some, if_neg (by simpa using hlevel)] at hway
  simp [hbehind, hkind, Token.isKeyword, Token.isContextKeyword] at hway

/-- Whatever continues an expression of a tight level continues one of a loose level in the same way. -/
theorem continuation?_mono (h : level ≤ tight) {way : Continuation}
    (hway : continuation? allowIn tight s = some way) : continuation? allowIn level s = some way := by
  cases hbetween : OperatorRule.between? s.token with
  | some rule =>
    obtain ⟨rfl, hlevel⟩ := continuation?_of_between hbetween hway
    unfold continuation?
    dsimp only
    have hle : level ≤ rule.level := Nat.le_trans h hlevel
    rw [hbetween, Option.filter_some, if_pos (by simpa using hle)]
  | none =>
    have hmono : ∀ bound : Precedence, tight ≤ bound → level ≤ bound := fun _ => Nat.le_trans h
    unfold continuation? at hway ⊢
    dsimp only at hway ⊢
    rw [hbetween, Option.filter_none] at hway ⊢
    dsimp only at hway ⊢
    cases hword : s.token.isKeyword "in" with
    | true =>
      obtain ⟨hkind, htext⟩ : s.token.kind = .keyword ∧ s.token.text = "in" := by
        simpa [Token.isKeyword] using hword
      have hbehind : OperatorRule.behind? s.token = none := by
        unfold OperatorRule.behind?
        rw [hkind]
      rw [hword] at hway
      simp only [hbehind, hkind, Token.isKeyword, Token.isContextKeyword, htext, Option.filter_none] at hway
      split at hway
      · rename_i hin
        cases hway
        refine if_pos ?_
        simp only [Bool.and_true, Bool.and_eq_true, decide_eq_true_eq] at hin ⊢
        exact ⟨hin.1, hmono _ hin.2⟩
      · simp at hway
    | false =>
      rw [hword] at hway
      simp only [Bool.and_false, Bool.false_and, Bool.false_eq_true, if_false] at hway ⊢
      cases hbehind : (OperatorRule.behind? s.token).filter fun _ => s.onSameLine with
      | some op =>
        rw [hbehind] at hway
        exact hway
      | none =>
        rw [hbehind] at hway
        dsimp only at hway ⊢
        repeat' split at hway
        all_goals cases hway
        all_goals simp_all

/-- Whatever goes on in one text goes on in the other. -/
theorem continuation?_near {P : Pairing} (hl : P.layered)
    (hcomma : P.Tells .tight fun t => t.kind == .comma) (hst : P.near s t) :
    continuation? allowIn level s = continuation? allowIn level t := by
  rcases P.same_or_ended hst with hkind | ⟨hend, hstop⟩
  · exact continuation?_same (P.sees hst) hl hkind
  · have hne : t.token.kind ≠ .comma := hcomma.elim nofun fun hall =>
      beq_eq_false_iff_ne.mp (hall _ hstop)
    rw [continuation?_over (s := t) (TokenKind.isOver_of_closes (P.closes hstop))
      fun hkind => absurd hkind hne]
    refine continuation?_over ?_ fun hkind => ?_
    · rw [hend.kind]
      rfl
    · rw [hend.kind] at hkind
      cases hkind

/-- Where an expression has been read to, nothing continues it. -/
theorem continuations_over {fuel : Nat} {base e : Expr}
    (h : r.continuations allowIn level fuel base s = .ok e t) :
    continuation? allowIn level t = none := by
  induction fuel generalizing base s with
  | zero => cases h
  | succ fuel ih =>
    cases hway : continuation? allowIn level s with
    | none =>
      rw [RulesShadow.continuations_none hway] at h
      cases h
      exact hway
    | some way =>
      rw [RulesShadow.continuations_some hway] at h
      obtain ⟨_, u, -, h⟩ := bind_ok h
      obtain ⟨longer, v, -, h⟩ := bind_ok h
      exact ih h

variable {P : Pairing} (h : RulesShadow P r r') (hcomma : P.Tells .tight fun t => t.kind == .comma)
include h hcomma

/-- The first step of an expression that goes on, in both texts. -/
theorem continuations_step {fuel : Nat} {base base' e : Expr} {way : Continuation}
    (hst : P.near s t) (hbase : Matches base base') (hway : continuation? allowIn level s = some way)
    (hread : r.continuations allowIn level (fuel + 1) base s = .ok e u) (hgone : ¬ P.gone u) :
    ∃ longer longer' s' t', r.continuations allowIn level fuel longer s' = .ok e u ∧
      P.near s' t' ∧ Matches longer longer' ∧
      ∀ other fuel', continuation? allowIn other t = some way →
        r'.continuations allowIn other (fuel' + 1) base' t =
          r'.continuations allowIn other fuel' longer' t' := by
  rw [RulesShadow.continuations_some hway] at hread
  obtain ⟨_, s₁, hnext, hrest⟩ := bind_ok hread
  obtain ⟨longer, s₂, hlonger, hread⟩ := bind_ok hrest
  have hproper := Setting.Sound.continuation?_proper hway
  have hstep : ∀ base', Matches base base' → Shadows P .tight Matches
      (r.continueWith allowIn (Mark.ofSpan base.span) base s.token.operator way)
      (r'.continueWith allowIn (Mark.ofSpan base'.span) base' s.token.operator way) := by
    intro base' hbase
    refine h.continueWith_shadows allowIn _ _ _ hbase (fun _ => hcomma) ?_
    rintro rule rfl
    exact Precedence.ne_list (continuation?_binary hway)
  have hgone₂ : ¬ P.gone s₂ := P.kept (h.continuations_shadows allowIn (Or.inr hcomma)
    (Nat.le_refl fuel) (Matches.refl longer)) hread hgone
  have hgone₁ : ¬ P.gone s₁ := P.kept (hstep base' hbase) hlonger hgone₂
  obtain ⟨t₁, hnext', hst₁⟩ := P.taken hst hproper hnext hgone₁
  obtain ⟨longer', t₂, hlonger', hst₂, hmatch⟩ := P.read (hstep base' hbase) hst₁ hlonger hgone₂
  refine ⟨longer, longer', s₂, t₂, hread, hst₂, hmatch, fun other fuel' hway' => ?_⟩
  rw [RulesShadow.continuations_some hway', bind_of_ok hnext',
    ← (P.sees hst).token.like.operator, bind_of_ok hlonger']

/-- What has been read at a tight level is passed at a loose one. -/
theorem continuations_pass (hlevel : level ≤ tight) : ∀ {fuel fuel' : Nat}, fuel ≤ fuel' →
    ∀ {base base' e : Expr} {s t : ParserState}, P.near s t → Matches base base' →
      r.continuations allowIn tight fuel base s = .ok e u → ¬ P.gone u →
      ∃ left e' v, r'.continuations allowIn level fuel' base' t =
          r'.continuations allowIn level (left + 1) e' v ∧
        fuel' ≤ left + fuel ∧ P.near u v ∧ Matches e e'
  | 0, _, _, _, _, _, _, _, _, _, hread, _ => by cases hread
  | fuel + 1, fuel' + 1, hle, base, base', e, s, t, hst, hbase, hread, hgone => by
    cases hway : continuation? allowIn tight s with
    | none =>
      rw [RulesShadow.continuations_none hway] at hread
      cases hread
      exact ⟨fuel', base', t, rfl, by omega, hst, hbase⟩
    | some way =>
      obtain ⟨longer, longer', s', t', hrest, hst', hmatch, hstep⟩ :=
        continuations_step h hcomma hst hbase hway hread hgone
      have hway' : continuation? allowIn level t = some way := by
        rw [← continuation?_near h.layered hcomma hst]
        exact continuation?_mono hlevel hway
      obtain ⟨left, e', v, heq, hfuel, hnear, he⟩ :=
        continuations_pass hlevel (Nat.le_of_succ_le_succ hle) hst' hmatch hrest hgone
      exact ⟨left, e', v, (hstep level fuel' hway').trans heq, by omega, hnear, he⟩

/-- What is read at a loose level begins with what is read at a tight one. -/
theorem continuations_begin (hlevel : level ≤ tight) : ∀ {fuel fuel' : Nat}, fuel ≤ fuel' →
    ∀ {base base' e : Expr} {s t : ParserState}, P.near s t → Matches base base' →
      r.continuations allowIn level fuel base s = .ok e u → ¬ P.gone u →
      ∃ left e₁ s₁ e₁' t₁, r'.continuations allowIn tight fuel' base' t = .ok e₁' t₁ ∧
        r.continuations allowIn level (left + 1) e₁ s₁ = .ok e u ∧ left < fuel ∧
        P.near s₁ t₁ ∧ Matches e₁ e₁'
  | 0, _, _, _, _, _, _, _, _, _, hread, _ => by cases hread
  | fuel + 1, fuel' + 1, hle, base, base', e, s, t, hst, hbase, hread, hgone => by
    cases hway : continuation? allowIn tight t with
    | none =>
      exact ⟨fuel, base, s, base', t, RulesShadow.continuations_none hway, hread,
        Nat.lt_succ_self fuel, hst, hbase⟩
    | some way =>
      have hway' : continuation? allowIn level s = some way := by
        rw [continuation?_near h.layered hcomma hst]
        exact continuation?_mono hlevel hway
      obtain ⟨longer, longer', s', t', hrest, hst', hmatch, hstep⟩ :=
        continuations_step h hcomma hst hbase hway' hread hgone
      obtain ⟨left, e₁, s₁, e₁', t₁, hread₁, hrest₁, hleft, hnear, he⟩ :=
        continuations_begin hlevel (Nat.le_of_succ_le_succ hle) hst' hmatch hrest hgone
      exact ⟨left, e₁, s₁, e₁', t₁, (hstep tight fuel' hway).trans hread₁, hrest₁,
        Nat.lt_succ_of_lt hleft, hnear, he⟩

end Stages

section Operands

variable {r : Rules} {s t : ParserState} {allowIn allowTyped : Bool} {level : Precedence}

/-- Only a parenthesis is read in another way where a tight operand is asked for. -/
theorem optPrimaryRule_level (hkind : s.token.kind ≠ .leftParen) (level other : Precedence) :
    r.optPrimaryRule allowTyped level s = r.optPrimaryRule allowTyped other s := by
  unfold optPrimaryRule consumeIdentifier
  rw [mark_bind, mark_bind]
  by_cases hname : s.token.kind = .identifier
  · show EStateM.bind _ _ s = EStateM.bind _ _ s
    unfold EStateM.bind
    cases hconsume : consume .identifier s with
    | error stop u => rfl
    | ok found u =>
      rcases consume_inv hconsume with ⟨rfl, -, -⟩ | ⟨-, hne, -⟩
      · rfl
      · exact absurd hname hne
  rw [bind_of_ok (consume_no hname), bind_of_ok (consume_no hname)]
  show EStateM.bind (r.simplePrimary? _) _ s = EStateM.bind (r.simplePrimary? _) _ s
  unfold EStateM.bind
  cases hsimple : r.simplePrimary? (Mark.ofSpan s.token.span) s with
  | error stop u => rfl
  | ok found u =>
    cases found with
    | some e => rfl
    | none =>
      obtain rfl := simplePrimary?_none hsimple
      dsimp only
      rw [bind_of_ok (consume_no hkind), bind_of_ok (consume_no hkind)]
      rfl

/-- No operand depends on whether a list may follow it. -/
theorem operand?_list (s : ParserState) : r.operand? { allowIn, level := .list, allowTyped } s =
    r.operand? { allowIn, level := .assignment, allowTyped } s := by
  have hprimary : r.optPrimaryRule allowTyped .list = r.optPrimaryRule allowTyped .assignment := by
    have hparens : ∀ m, r.parensPrimary m .list = r.parensPrimary m .assignment := fun m => rfl
    unfold optPrimaryRule
    simp only [hparens]
  have hfront : ∀ t, (OperatorRule.front? t).filter (fun rule => decide (Precedence.list ≤ rule.level)) =
      (OperatorRule.front? t).filter fun rule => decide (Precedence.assignment ≤ rule.level) := by
    intro t
    cases hrule : OperatorRule.front? t with
    | none => rfl
    | some rule =>
      have hlevel : Precedence.list ≤ rule.level ∧ Precedence.assignment ≤ rule.level := by
        rw [OperatorRule.front?_level hrule]
        cases rule.operator <;> decide
      simp [Option.filter_some, hlevel]
  unfold operand?
  simp only [hprimary, hfront]
  rfl

/-- What begins no operand at any level. -/
theorem operand?_none (hkind : s.token.kind ∈ [.ellipsis, .rightParen, .comma, .rightBracket])
    (mode : ExprMode) : r.operand? mode s = .ok none s := by
  have hcases : s.token.kind = .ellipsis ∨ s.token.kind = .rightParen ∨ s.token.kind = .comma ∨
      s.token.kind = .rightBracket := by simpa using hkind
  have hquiet : s.token.toLexeme.Quiet := by
    rcases hcases with h | h | h | h <;> refine ⟨?_, ?_, ?_⟩ <;> simp [h]
  have hparen : s.token.kind ≠ .leftParen := by
    rcases hcases with h | h | h | h <;> simp [h]
  have hfront : OperatorRule.front? s.token = none := by
    unfold OperatorRule.front?
    rcases hcases with h | h | h | h <;> rw [h]
  have hword : s.token.isKeyword "function" = false := by
    rcases hcases with h | h | h | h <;> simp [Token.isKeyword, h]
  unfold operand?
  rw [bind_of_ok (optPrimaryRule_quiet hquiet hparen _ _)]
  simp only [token_bind, hfront, hword, Option.filter_none, Bool.and_false]
  rfl

theorem continuation?_comma (hkind : s.token.kind = .comma) :
    continuation? allowIn .list s = some .list := by
  unfold continuation? OperatorRule.between? OperatorRule.behind?
  simp [hkind, Token.isKeyword, Token.isContextKeyword]
  decide

/-- No expression goes on with what stands behind the parameters of a function. -/
theorem continuation?_behind (hkind : s.token.kind ∈ [.colon, .arrow]) :
    continuation? allowIn level s = none := by
  have hkinds : s.token.kind = .colon ∨ s.token.kind = .arrow := by simpa using hkind
  unfold continuation? OperatorRule.between? OperatorRule.behind?
  rcases hkinds with hkind | hkind <;> simp [hkind, Token.isKeyword, Token.isContextKeyword]

/-- Only a comma goes on with a list and not with an item of it. -/
theorem continuation?_item (hkind : s.token.kind ≠ .comma) :
    continuation? allowIn .list s = continuation? allowIn .assignment s := by
  have hbetween : (OperatorRule.between? s.token).filter
        (fun rule => decide (Precedence.list ≤ rule.level)) =
      (OperatorRule.between? s.token).filter fun rule =>
        decide (Precedence.assignment ≤ rule.level) := by
    cases hrule : OperatorRule.between? s.token with
    | none => rfl
    | some rule =>
      have hlevel : Precedence.list ≤ rule.level ∧ Precedence.assignment ≤ rule.level := by
        rcases OperatorRule.between?_level hrule with heq | ⟨-, heq⟩
        · rw [heq]
          cases rule.operator <;> decide
        · rw [heq]
          decide
      simp [Option.filter_some, hlevel]
  unfold continuation?
  dsimp only
  rw [hbetween]
  cases hk : s.token.kind <;> first | rfl | exact absurd hk hkind

end Operands

section Lists

variable {P : Pairing} {q q' r : Rules} {s t u : ParserState}

theorem expr_inv {mode : ExprMode} {e : Expr} (hr : r.optExpr mode = q.optExprRule mode)
    (hread : r.expr mode s = .ok e u) :
    ∃ base v, q.operand? mode s = .ok (some base) v ∧
      q.continuations mode.allowIn mode.level q.rounds base v = .ok e u := by
  obtain ⟨found, v, hfound, hpure⟩ := bind_ok hread
  rw [hr] at hfound
  obtain ⟨operand, w, hoperand, hrest⟩ := bind_ok hfound
  cases operand with
  | none =>
    cases hrest
    cases hpure
  | some base =>
    obtain ⟨e', x, hcontinued, hsome⟩ := bind_ok hrest
    cases hsome
    cases hpure
    exact ⟨base, w, hoperand, hcontinued⟩

theorem expr_of_continued {mode : ExprMode} {base e : Expr} (hr : r.optExpr mode = q.optExprRule mode)
    (hoperand : q.operand? mode s = .ok (some base) t)
    (hcontinued : q.continuations mode.allowIn mode.level q.rounds base t = .ok e u) :
    r.expr mode s = .ok e u := by
  refine expr_of_optExpr ?_
  rw [hr]
  unfold optExprRule
  rw [bind_of_ok hoperand]
  show (q.continuations mode.allowIn mode.level q.rounds base >>= fun e => Pure.pure (some e)) t = _
  rw [bind_of_ok hcontinued]
  rfl

/-- Behind an item, nothing goes on with it. -/
theorem assignmentExpr_over {e : Expr} {allowIn : Bool} (hr : r.optExpr = q.optExprRule)
    (hread : r.assignmentExpr allowIn s = .ok e u) :
    continuation? allowIn .assignment u = none := by
  obtain ⟨base, v, -, hcontinued⟩ := expr_inv (congrFun hr _) hread
  exact continuations_over hcontinued

theorem expr_refuses {mode : ExprMode} {e : Expr} (hr : r.optExpr = q.optExprRule)
    (hkind : s.token.kind ∈ [.ellipsis, .rightParen, .comma, .rightBracket]) : r.expr mode s ≠ .ok e u := by
  intro hread
  obtain ⟨base, v, hoperand, -⟩ := expr_inv (congrFun hr _) hread
  rw [operand?_none hkind] at hoperand
  cases hoperand

variable {q'' : Rules} (hr : r.optExpr = q.optExprRule) (hq' : q'.optExpr = q''.optExprRule)
  (h' : RulesShadow P r q') (hcomma : P.Tells .tight fun t => t.kind == .comma)
include hr hq' h' hcomma

/-- Items that stand behind the first one are read as items of a list, unless a rest parameter ends
them. -/
theorem separated_of_items : ∀ {fuel fuel' : Nat}, fuel ≤ fuel' →
    ∀ {items found : List Expr} {atRest : Bool} {s t : ParserState}, P.near s t →
      r.parensItems fuel items s = .ok (found, atRest) u → ¬ P.gone u →
      (atRest = false ∧ ∃ new new' v, found = items ++ new ∧ new ≠ [] ∧
        separated (q'.assignmentExpr) fuel' t = .ok new' v ∧ P.near u v ∧ Matches new new' ∧
        continuation? true .assignment u = none ∧ u.token.kind ≠ .comma) ∨
      (atRest = true ∧ ∀ new' v, separated (q'.assignmentExpr) fuel' t ≠ .ok new' v)
  | 0, _, _, _, _, _, _, _, _, hread, _ => by cases hread
  | fuel + 1, fuel' + 1, hle, items, found, atRest, s, t, hst, hread, hgone => by
    obtain ⟨ellipsis, s₁, hellipsis, hrest⟩ := bind_ok hread
    rcases consume_inv hellipsis with ⟨rfl, hkind, -⟩ | ⟨rfl, -, rfl⟩
    · cases hrest
      refine Or.inr ⟨rfl, fun new' v hseparated => ?_⟩
      obtain ⟨e, w, he, -⟩ := bind_ok hseparated
      have hkind' := P.same_kind hst (by simp [hkind])
      exact expr_refuses hq' (by simp [← hkind', hkind]) he
    obtain ⟨e, s₂, he, hmore⟩ := bind_ok hrest
    obtain ⟨more, s₃, hcommas, hlast⟩ := bind_ok hmore
    have hover := assignmentExpr_over hr he
    have hstep : Shadows P .tight Matches (r.assignmentExpr true) (q'.assignmentExpr true) :=
      h'.assignmentExpr_shadows true
    rcases consume_inv hcommas with ⟨rfl, hkind, hnext⟩ | ⟨rfl, hkind, rfl⟩
    · have hproper : s₂.token.kind ≠ .endOfProgram := by simp [hkind]
      have hgone₃ : ¬ P.gone s₃ := P.kept (h'.parensItems_shadows (Nat.le_refl fuel)
        (Matches.refl (items ++ [e]))) hlast hgone
      obtain ⟨e', t₂, he', hst₂, hmatch⟩ :=
        P.read hstep hst he fun hs₂ => hproper (P.gone_ended hs₂).kind
      obtain ⟨t₃, hnext', hst₃⟩ := P.taken hst₂ hproper hnext hgone₃
      have hcomma' : consume .comma t₂ = .ok true t₃ :=
        consume_yes ((P.same_kind hst₂ hproper).symm.trans hkind) hnext'
      have hseparated : separated (q'.assignmentExpr) (fuel' + 1) t =
          (separated (q'.assignmentExpr) fuel' >>= fun rest => Pure.pure (e' :: rest)) t₃ := by
        rw [separated, bind_of_ok he', bind_of_ok hcomma']
        rfl
      rw [hseparated]
      rcases separated_of_items (Nat.le_of_succ_le_succ hle) hst₃ hlast hgone with
        ⟨hfalse, new, new', v, rfl, -, hnew, huv, hmatches, hends⟩ | ⟨htrue, hfails⟩
      · refine Or.inl ⟨hfalse, e :: new, e' :: new', v, by simp, by simp, ?_, huv, by simp_all, hends⟩
        rw [bind_of_ok hnew]
        rfl
      · refine Or.inr ⟨htrue, fun new' v hall => ?_⟩
        obtain ⟨rest, w, hsome, -⟩ := bind_ok hall
        exact hfails rest w hsome
    · cases hlast
      obtain ⟨e', t₂, he', hst₂, hmatch⟩ := P.read hstep hst he hgone
      have hkind' : t₂.token.kind ≠ .comma := by
        rcases (P.sees hst₂).token.kind with heq | ⟨-, hstop⟩
        · exact heq ▸ hkind
        · exact hcomma.elim (by rintro ⟨⟩) fun hall => beq_eq_false_iff_ne.mp (hall _ hstop)
      refine Or.inl ⟨rfl, [e], [e'], t₂, rfl, by simp, ?_, hst₂, by simp_all, hover, hkind⟩
      rw [separated, bind_of_ok he', bind_of_ok (consume_no hkind')]
      rfl

/-- What stands in parentheses that might hold parameters is read as an expression as well, unless a rest
parameter ends it. -/
theorem expr_of_parensItems {r' : Rules} (hr' : r'.optExpr = q'.optExprRule) (h : RulesShadow P q q')
    (hrounds : q.rounds < q'.rounds) {items : List Expr} {atRest : Bool} (hst : P.near s t)
    (hread : r.parensItems r.rounds [] s = .ok (items, atRest) u) (hgone : ¬ P.gone u) :
    (atRest = false ∧ ∃ content e v, parensContent items = Pure.pure content ∧
      r'.expr {} t = .ok e v ∧ P.near u v ∧ Matches content e) ∨
    (atRest = true ∧ ∀ e v, r'.expr {} t ≠ .ok e v) := by
  have hread' : r.parensItems (r.depth + 1 + 1) [] s = .ok (items, atRest) u := hread
  obtain ⟨ellipsis, s₁, hellipsis, hrest⟩ := bind_ok hread'
  rcases consume_inv hellipsis with ⟨rfl, hkind, -⟩ | ⟨rfl, -, rfl⟩
  · cases hrest
    have hkind' := P.same_kind hst (by simp [hkind])
    exact Or.inr ⟨rfl, fun e v => expr_refuses hr' (by simp [← hkind', hkind])⟩
  obtain ⟨first, s₂, hfirst, hmore⟩ := bind_ok hrest
  obtain ⟨more, s₃, hcommas, hlast⟩ := bind_ok hmore
  have hgone₂ : ¬ P.gone s₂ := by
    rcases consume_inv hcommas with ⟨rfl, hkind, -⟩ | ⟨rfl, -, rfl⟩
    · intro hs₂
      have hend := (P.gone_ended hs₂).kind
      simp [hkind] at hend
    · cases hlast
      exact hgone
  obtain ⟨base, s₄, hbase, hcontinued⟩ := expr_inv (congrFun hr _) hfirst
  have hgone₄ : ¬ P.gone s₄ := P.kept (h.continued_shadows true
    (Or.inr hcomma) rfl) hcontinued hgone₂
  obtain ⟨found, t₄, hbase', hst₄, hfound⟩ := P.read (h.operand?_shadows _) hst hbase hgone₄
  obtain ⟨base', rfl, hmatch⟩ : ∃ base', found = some base' ∧ Matches base base' := by
    cases found with
    | none => simp at hfound
    | some base' => exact ⟨base', rfl, by simpa using hfound⟩
  have hoperand : q'.operand? {} t = .ok (some base') t₄ := (operand?_list t).trans hbase'
  have hloose : Precedence.list ≤ .assignment := by decide
  obtain ⟨left, e', t₂, heq, hfuel, hst₂, he⟩ := continuations_pass h hcomma hloose
    (Nat.le_of_lt hrounds) hst₄ hmatch hcontinued hgone₂
  obtain ⟨l, rfl⟩ : ∃ l, left = l + 1 := ⟨left - 1, by omega⟩
  rcases consume_inv hcommas with ⟨rfl, hkind, hnext⟩ | ⟨rfl, hkind, rfl⟩
  · -- The items behind the first one are read as the rest of the list.
    have hproper : s₂.token.kind ≠ .endOfProgram := by simp [hkind]
    have hgone₃ : ¬ P.gone s₃ := P.kept (h'.parensItems_shadows (Nat.le_refl _)
      (Matches.refl _)) hlast hgone
    obtain ⟨t₃, hnext', hst₃⟩ := P.taken hst₂ hproper hnext hgone₃
    have hway : continuation? true .list t₂ = some .list :=
      continuation?_comma ((P.same_kind hst₂ hproper).symm.trans hkind)
    have hlist : q'.continuations true .list (l + 1 + 1) e' t₂ =
        (separated (q'.assignmentExpr) q'.rounds >>= fun rest =>
          finish (Mark.ofSpan e'.span) >>= fun span =>
            q'.continuations true .list (l + 1) (.list span (e' :: rest))) t₃ := by
      rw [RulesShadow.continuations_some hway, bind_of_ok hnext']
      show (q'.listContinuation true _ e' >>= _) t₃ = _
      unfold listContinuation
      simp only [bind_assoc, pure_bind]
    have hdepth : r.depth + 1 ≤ q'.rounds := Nat.le_succ_of_le (Nat.succ_le_succ h'.depth)
    rcases separated_of_items hr hq' h' hcomma hdepth hst₃ hlast hgone with
      ⟨hfalse, new, new', v, hnew, hsome, hseparated, huv, hmatches, hover, hnot⟩ | ⟨htrue, hfails⟩
    · have hover' : continuation? true .list v = none := by
        rw [← continuation?_near h.layered hcomma huv, continuation?_item hnot, hover]
      obtain ⟨second, rest, rfl⟩ := List.exists_cons_of_ne_nil hsome
      subst hnew
      refine Or.inl ⟨hfalse, _, .list ((Mark.ofSpan e'.span).«to» v.previous.span) (e' :: new'), v, rfl,
        expr_of_continued (congrFun hr' _) hoperand ?_, huv, by simp_all⟩
      refine heq.trans (hlist.trans ?_)
      rw [bind_of_ok hseparated, finish_bind]
      exact RulesShadow.continuations_none hover'
    · refine Or.inr ⟨htrue, fun e v hexpr => ?_⟩
      obtain ⟨base'', t₅, hoperand', hcontinued'⟩ := expr_inv (congrFun hr' _) hexpr
      rw [hoperand] at hoperand'
      cases hoperand'
      rw [show q'.continuations _ _ q'.rounds base' t₄ = _ from heq, hlist] at hcontinued'
      obtain ⟨rest, w, hseparated, -⟩ := bind_ok hcontinued'
      exact hfails rest w hseparated
  · cases hlast
    have hover := assignmentExpr_over hr hfirst
    have hover' : continuation? true .list t₂ = none := by
      rw [← continuation?_near h.layered hcomma hst₂, continuation?_item hkind, hover]
    refine Or.inl ⟨rfl, first, e', t₂, rfl, ?_, hst₂, he⟩
    exact expr_of_continued (congrFun hr' _) hoperand
      (heq.trans (RulesShadow.continuations_none hover'))

end Lists

/-- Where some statement is found, that one is read. -/
theorem statementRule_of_found {r : Rules} {context : Context} {s : ParserState} {x : Parse Ended}
    (h : r.optStatement context s = (some <$> x) s) : r.statementRule context s = x s := by
  show EStateM.bind _ _ s = _
  simp only [EStateM.bind, h, map_eq_pure_bind, bind]
  cases x s <;> rfl

end Rules

end ActionSyntax
