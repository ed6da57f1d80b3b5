import ActionSyntax.Proofs.Chains.Nesting

/-!
A parser reads a chain of operators into the one tree in which they nest by their levels.
-/

namespace ActionSyntax

set_option autoImplicit false

namespace Operator

/-- The levels that the grammar gives an operator between two operands and the operand behind it. -/
def levels (op : Operator) : Precedence × Precedence :=
  (OperatorRule.binaryLevels? op).getD (.relational, .shift)

/-- An operator that may be held on the left is read before the one that holds it, and stops the
operand behind it. -/
theorem levels_left {op inner : Operator} (hop : op ∈ betweens) (hinner : inner ∈ betweens)
    (h : op.HoldsLeft inner) : op.levels.1 ≤ inner.levels.1 ∧ op.levels.1 < inner.levels.2 := by
  have hall : ∀ op ∈ betweens, ∀ inner ∈ betweens,
      (op.tier < inner.tier ∨ op.tier = inner.tier ∧ ¬ op.GroupsRight) →
        op.levels.1 ≤ inner.levels.1 ∧ op.levels.1 < inner.levels.2 := by decide +kernel
  exact hall op hop inner hinner h

/-- An operator that may be held on the right belongs to the operand behind the one that holds it. -/
theorem levels_right {op inner : Operator} (hop : op ∈ betweens) (hinner : inner ∈ betweens)
    (h : op.HoldsRight inner) : op.levels.2 ≤ inner.levels.1 := by
  have hall : ∀ op ∈ betweens, ∀ inner ∈ betweens,
      (op.tier < inner.tier ∨ op.tier = inner.tier ∧ op.GroupsRight) →
        op.levels.2 ≤ inner.levels.1 := by decide +kernel
  exact hall op hop inner hinner h

/-- The level of `||` is the only one that an operand may fall below: `??` has it as well, and takes
operands one level looser. -/
theorem levels_operand {op : Operator} (hop : op ∈ betweens) {p : Precedence}
    (hp : p ≠ .logicalOr) (h : p ≤ op.levels.1) : p ≤ op.levels.2 := by
  have hall : ∀ op ∈ betweens, ∀ p ∈ Precedence.all, p ≠ .logicalOr → p ≤ op.levels.1 →
      p ≤ op.levels.2 := by decide +kernel
  exact hall op hop p (by cases p <;> decide) hp h

theorem levels_bounds {op : Operator} (hop : op ∈ betweens) :
    .assignment ≤ op.levels.1 ∧ op.levels.1 < .unary ∧ op.levels.2 ≤ .unary ∧
      op.levels.2 ≠ .logicalOr := by
  have hall : ∀ op ∈ betweens, .assignment ≤ op.levels.1 ∧ op.levels.1 < .unary ∧
      op.levels.2 ≤ .unary ∧ op.levels.2 ≠ .logicalOr := by decide
  exact hall op hop

end Operator

/-- An expression of some level is over in front of this lexeme, unless a colon belongs to it. -/
inductive Stops (p : Precedence) : Lexeme → Prop where
  | ending : Stops p { kind := .endOfProgram }
  | closing : Stops p { kind := .rightParen }
  | colon : Stops p { kind := .colon }
  | between {op : Operator} (hop : op ∈ Operator.betweens) (hlt : op.levels.1 < p) :
      Stops p (ChainWord.betweenLexeme op)

namespace Stops

variable {p q : Precedence} {l : Lexeme}

theorem mono (h : p ≤ q) (hs : Stops p l) : Stops q l := by
  cases hs with
  | ending => exact .ending
  | closing => exact .closing
  | colon => exact .colon
  | between hop hlt => exact .between hop (Nat.lt_of_lt_of_le hlt h)

/-- Behind an operand stands an operator, a closing parenthesis, a colon or the end. -/
theorem kind (hs : Stops p l) :
    l.kind ∈ [.endOfProgram, .rightParen, .colon, .operator, .keyword] := by
  cases hs with
  | ending | closing | colon => decide
  | @between op _ _ => cases op <;> decide

theorem kind_ne (hs : Stops p l) {k : TokenKind}
    (hk : k ∉ [.endOfProgram, .rightParen, .colon, .operator, .keyword]) : l.kind ≠ k :=
  fun he => hk (he ▸ hs.kind)

end Stops

namespace ParserState.At

variable {script : Script} {s : ParserState} {ls : List Lexeme}

theorem kind (h : s.At script ls) : s.token.kind = (headLexeme ls).kind :=
  congrArg Lexeme.kind h.token

theorem text (h : s.At script ls) : s.token.text = (headLexeme ls).text :=
  congrArg Lexeme.text h.token

theorem operator (h : s.At script ls) : s.token.operator = (headLexeme ls).operator :=
  congrArg Lexeme.operator h.token

end ParserState.At

namespace Parse

variable {α β : Type} {s t : ParserState}

theorem bind_of_ok {x : Parse α} {a : α} (h : x s = .ok a t) (f : α → Parse β) :
    (x >>= f) s = f a t := by
  show EStateM.bind x f s = f a t
  unfold EStateM.bind
  rw [h]

theorem consumeIf_yes {condition : Token → Bool} (hc : condition s.token = true)
    (h : Parse.next s = .ok () t) : consumeIf condition s = .ok true t := by
  unfold consumeIf
  rw [token_bind, if_pos hc, bind_of_ok h]
  rfl

theorem consumeIf_no {condition : Token → Bool} (hc : condition s.token = false) :
    consumeIf condition s = .ok false s := by
  unfold consumeIf
  rw [token_bind, hc]
  rfl

theorem consume_yes {k : TokenKind} (hk : s.token.kind = k) (h : Parse.next s = .ok () t) :
    consume k s = .ok true t := consumeIf_yes (by simp [hk]) h

theorem consume_no {k : TokenKind} (hk : s.token.kind ≠ k) : consume k s = .ok false s :=
  consumeIf_no (by simpa using hk)

theorem consumeKeyword_no {word : String} (hk : s.token.isKeyword word = false) :
    consumeKeyword word s = .ok false s := consumeIf_no hk

theorem expectIf_yes {condition : Token → Bool} (hc : condition s.token = true)
    (h : Parse.next s = .ok () t) : expectIf condition s = .ok () t := by
  unfold expectIf
  rw [bind_of_ok (consumeIf_yes hc h)]
  rfl

theorem expect_yes {k : TokenKind} (hk : s.token.kind = k) (h : Parse.next s = .ok () t) :
    expect k s = .ok () t := expectIf_yes (by simp [hk]) h

end Parse

/-- A lexeme that begins no operand by itself, or only a parenthesised one. -/
structure Lexeme.Quiet (l : Lexeme) : Prop where
  kind : l.kind ∉ [.identifier, .string, .number, .leftBrace, .leftBracket]
  keyword : l.kind = .keyword → l.text ∉
    ["default", "this", "import", "null", "true", "false", "super", "new"]
  operator : l.kind ∈ [.operator, .compoundAssignment] → l.operator ∉ [some .divide, some .less]

namespace Rules

open Parse

section Primary

variable {script : Script} {s t : ParserState} {ls : List Lexeme} {r : Rules}

theorem optPrimaryRule_identifier (hkind : s.token.kind = .identifier)
    (hnext : Parse.next s = .ok () t) (allowTyped : Bool) (level : Precedence) :
    r.optPrimaryRule allowTyped level s =
      (r.identifierPrimary allowTyped >>= fun e => pure (some e)) t := by
  have hconsume : consume .identifier s = .ok true t := consume_yes hkind hnext
  unfold optPrimaryRule consumeIdentifier
  rw [mark_bind, bind_of_ok hconsume]
  rfl

/-- A name that nothing makes more of. -/
theorem optPrimaryRule_named {allowTyped : Bool} (hkind : s.token.kind = .identifier)
    (hnext : Parse.next s = .ok () t) (hprevious : t.previous = s.token)
    (hbehind : t.token.kind ≠ .string ∧ t.token.kind ≠ .arrow)
    (huntyped : t.token.kind = .colon → allowTyped = false) (level : Precedence) :
    r.optPrimaryRule allowTyped level s =
      .ok (some (.identifier { span := s.token.span.«to» s.token.span, name := s.token.text })) t := by
  have harrow : consume .arrow t = .ok false t := consume_no hbehind.2
  have hembed : (t.previous.isContextKeyword "embed" && t.token.kind == .string) = false := by
    rw [beq_eq_false_iff_ne.mpr hbehind.1, Bool.and_false]
  have hidentifier : r.identifierPrimary allowTyped t =
      .ok (.identifier { span := t.previous.span.«to» t.previous.span, name := t.previous.text }) t := by
    unfold identifierPrimary
    rw [previous_bind]
    cases allowTyped with
    | false =>
      simp only [Bool.false_eq_true, if_false, pure_bind_apply, at?_bind, hembed, finish_bind,
        bind_of_ok harrow]
      rfl
    | true =>
      have hcolon : consume .colon t = .ok false t := consume_no fun hk => nomatch huntyped hk
      simp only [Bool.false_eq_true, if_false, if_true, bind_of_ok hcolon, at?_bind, hembed,
        finish_bind, bind_of_ok harrow]
      rfl
  rw [optPrimaryRule_identifier hkind hnext, bind_of_ok hidentifier, hprevious]
  rfl

theorem optPrimaryRule_name {n : String} {allowTyped : Bool}
    (h : s.At script ({ kind := .identifier, text := n } :: ls))
    (hbehind : (headLexeme ls).kind ≠ .string ∧ (headLexeme ls).kind ≠ .arrow)
    (huntyped : (headLexeme ls).kind = .colon → allowTyped = false) (level : Precedence) :
    ∃ span t, r.optPrimaryRule allowTyped level s =
      .ok (some (.identifier { span, name := n })) t ∧ t.At script ls := by
  obtain ⟨t, hnext, ht, hprevious⟩ := h.next
  rw [← ht.kind] at hbehind huntyped
  have hread := optPrimaryRule_named (r := r) h.kind hnext hprevious hbehind huntyped level
  rw [show s.token.text = n from h.text] at hread
  exact ⟨_, t, hread, ht⟩

theorem simplePrimary?_number {v : Double}
    (h : s.At script ({ kind := .number, number := v } :: ls)) (m : Mark) :
    ∃ span t, r.simplePrimary? m s = .ok (some (.number span v)) t ∧ t.At script ls := by
  obtain ⟨t, hnext, ht, hprevious⟩ := h.next
  have hkind : s.token.kind = .number := h.kind
  have hkeyword : ∀ word, consumeKeyword word s = .ok false s := fun word =>
    consumeKeyword_no (by simp [Token.isKeyword, hkind])
  have hstring : consume .string s = .ok false s := consume_no (by simp [hkind])
  have hconsume : consume .number s = .ok true t := consume_yes hkind hnext
  have hnumber : t.previous.number = v := by
    rw [hprevious]
    exact congrArg Lexeme.number h.token
  refine ⟨m.«to» t.previous.span, t, ?_, ht⟩
  unfold simplePrimary?
  simp only [bind_of_ok (hkeyword _), Bool.false_eq_true, if_false, bind_of_ok hstring,
    bind_of_ok hconsume, if_true, finish_bind, previous_bind, hnumber]
  rfl

theorem optPrimaryRule_number {v : Double}
    (h : s.At script ({ kind := .number, number := v } :: ls)) (allowTyped : Bool)
    (level : Precedence) :
    ∃ span t, r.optPrimaryRule allowTyped level s = .ok (some (.number span v)) t ∧
      t.At script ls := by
  obtain ⟨span, t, hsimple, ht⟩ := simplePrimary?_number (r := r) h (Mark.ofSpan s.token.span)
  have hkind : s.token.kind = .number := h.kind
  have hname : consume .identifier s = .ok false s := consume_no (by simp [hkind])
  refine ⟨span, t, ?_, ht⟩
  unfold optPrimaryRule consumeIdentifier
  rw [mark_bind, bind_of_ok hname]
  simp only [Bool.false_eq_true, if_false, bind_of_ok hsimple]
  rfl

theorem simplePrimary?_quiet (hq : s.token.toLexeme.Quiet) (m : Mark) :
    r.simplePrimary? m s = .ok none s := by
  have hkeyword : ∀ word ∈ ["default", "this", "import", "null", "true", "false", "super", "new"],
      consumeKeyword word s = .ok false s := by
    intro word hword
    refine consumeKeyword_no (Bool.eq_false_iff.mpr fun hk => ?_)
    simp only [Token.isKeyword, Bool.and_eq_true, beq_iff_eq] at hk
    exact hq.keyword hk.1 (hk.2 ▸ hword)
  have hkind : ∀ k ∈ [TokenKind.identifier, .string, .number, .leftBrace, .leftBracket],
      consume k s = .ok false s := fun k hk => consume_no fun he => hq.kind (he ▸ hk)
  have hregular : beginsRegularExpression s.token = false := by
    have hoperator := hq.operator
    simp only [List.mem_cons, List.not_mem_nil, or_false] at hoperator
    simp only [beginsRegularExpression, Token.isOperator, Token.isCompoundAssignment,
      Bool.or_eq_false_iff, Bool.and_eq_false_iff, beq_eq_false_iff_ne]
    grind
  unfold simplePrimary?
  simp only [bind_of_ok (hkeyword "default" (by decide)), bind_of_ok (hkeyword "this" (by decide)),
    bind_of_ok (hkeyword "import" (by decide)), bind_of_ok (hkeyword "null" (by decide)),
    bind_of_ok (hkind .string (by decide)), bind_of_ok (hkind .number (by decide)),
    bind_of_ok (hkeyword "true" (by decide)), bind_of_ok (hkeyword "false" (by decide)),
    token_bind, hregular, bind_of_ok (hkeyword "super" (by decide)), Bool.false_eq_true, if_false]
  rfl

/-- In front of an operator that stands before its operand there is no primary. -/
theorem optPrimaryRule_quiet (hq : s.token.toLexeme.Quiet) (hparen : s.token.kind ≠ .leftParen)
    (allowTyped : Bool) (level : Precedence) :
    r.optPrimaryRule allowTyped level s = .ok none s := by
  have hkind : ∀ k ∈ [TokenKind.identifier, .string, .number, .leftBrace, .leftBracket],
      consume k s = .ok false s := fun k hk => consume_no fun he => hq.kind (he ▸ hk)
  have hnew : consumeKeyword "new" s = .ok false s := by
    refine consumeKeyword_no (Bool.eq_false_iff.mpr fun hk => ?_)
    simp only [Token.isKeyword, Bool.and_eq_true, beq_iff_eq] at hk
    exact hq.keyword hk.1 (by simp [hk.2])
  have hless : s.token.isOperator .less = false := by
    have hoperator := hq.operator
    simp only [List.mem_cons, List.not_mem_nil, or_false] at hoperator
    simp only [Token.isOperator, Bool.and_eq_false_iff, beq_eq_false_iff_ne]
    grind
  unfold optPrimaryRule consumeIdentifier
  rw [mark_bind, bind_of_ok (hkind .identifier (by decide))]
  simp only [Bool.false_eq_true, if_false, bind_of_ok (simplePrimary?_quiet hq _),
    bind_of_ok (consume_no hparen), bind_of_ok (hkind .leftBrace (by decide)),
    bind_of_ok (hkind .leftBracket (by decide)), bind_of_ok hnew, atOperator?_bind, hless]
  rfl

/-- An opening parenthesis begins an expression in parentheses, or a function. -/
theorem optPrimaryRule_opening (hkind : s.token.kind = .leftParen)
    (hnext : Parse.next s = .ok () t) (allowTyped : Bool) (level : Precedence) :
    r.optPrimaryRule allowTyped level s =
      (r.parensPrimary (Mark.ofSpan s.token.span) level >>= fun e => pure (some e)) t := by
  have hq : s.token.toLexeme.Quiet := by
    refine ⟨?_, ?_, ?_⟩ <;> simp [hkind]
  have hname : consume .identifier s = .ok false s := consume_no (by simp [hkind])
  have hconsume : consume .leftParen s = .ok true t := consume_yes hkind hnext
  unfold optPrimaryRule consumeIdentifier
  rw [mark_bind, bind_of_ok hname]
  simp only [Bool.false_eq_true, if_false, bind_of_ok (simplePrimary?_quiet hq _),
    bind_of_ok hconsume, if_true]

end Primary

section Operators

variable {script : Script} {s t u : ParserState} {ls : List Lexeme} {r : Rules} {e : Expr}

theorem expr_of_optExpr {mode : ExprMode} (h : r.optExpr mode s = .ok (some e) t) :
    r.expr mode s = .ok e t := by
  unfold expr
  rw [bind_of_ok h]
  rfl

/-- Where only a tight operand may stand, parentheses hold any expression. -/
theorem parensPrimary_tight {level : Precedence} (hlevel : Precedence.assignment < level)
    (he : r.expr {} s = .ok e t) (ht : t.At script ({ kind := .rightParen } :: ls)) (m : Mark) :
    ∃ span u, r.parensPrimary m level s = .ok (.parens span e) u ∧ u.At script ls := by
  obtain ⟨u, hnext, hu, -⟩ := ht.next
  refine ⟨m.«to» u.previous.span, u, ?_, hu⟩
  have hclosing : expect .rightParen t = .ok () u := expect_yes ht.kind hnext
  unfold parensPrimary
  rw [if_pos hlevel, bind_of_ok he, bind_of_ok hclosing, finish_bind]
  rfl

theorem parensItems_single (hrounds : r.rounds ≠ 0) (hellipsis : s.token.kind ≠ .ellipsis)
    (he : r.assignmentExpr true s = .ok e t) (hcomma : t.token.kind ≠ .comma) :
    r.parensItems r.rounds [] s = .ok ([e], false) t := by
  obtain ⟨n, hn⟩ := Nat.exists_eq_succ_of_ne_zero hrounds
  rw [hn]
  unfold parensItems
  rw [bind_of_ok (consume_no hellipsis)]
  simp only [Bool.false_eq_true, if_false, bind_of_ok he, bind_of_ok (consume_no hcomma)]
  rfl

/-- Elsewhere they may turn out to hold parameters, unless something else follows than a colon or an
arrow. -/
theorem parensPrimary_loose {level p : Precedence} (hlevel : ¬ Precedence.assignment < level)
    (hparen : s.token.kind ≠ .rightParen) (hitems : r.parensItems r.rounds [] s = .ok ([e], false) t)
    (ht : t.At script ({ kind := .rightParen } :: ls)) (hs : Stops p (headLexeme ls))
    (huntyped : (headLexeme ls).kind ≠ .colon) (m : Mark) :
    ∃ span u, r.parensPrimary m level s = .ok (.parens span e) u ∧ u.At script ls := by
  obtain ⟨u, hnext, hu, -⟩ := ht.next
  have hkind : t.token.kind = .rightParen := ht.kind
  have hcolon : consume .colon u = .ok false u := consume_no (by rw [hu.kind]; exact huntyped)
  have harrow : consume .arrow u = .ok false u :=
    consume_no (by rw [hu.kind]; exact hs.kind_ne (by decide))
  refine ⟨m.«to» u.previous.span, u, ?_, hu⟩
  unfold parensPrimary parensOrArrow
  rw [if_neg hlevel, bind_of_ok (consume_no hparen)]
  simp only [Bool.false_eq_true, if_false, bind_of_ok hitems, bind_of_ok (expect_yes hkind hnext),
    bind_of_ok hcolon, bind_of_ok harrow, parensContent, pure_bind_apply, finish_bind]
  rfl

/-- An operator between two operands that binds tightly enough goes on with the expression. -/
theorem continuation?_between {op : Operator} {p : Precedence}
    (h : s.At script (ChainWord.betweenLexeme op :: ls)) (hop : op ∈ Operator.betweens)
    (hp : p ≤ op.levels.1) :
    continuation? true p s =
      some (if op = .within then .within else .binary ⟨op, op.levels.1, op.levels.2⟩) := by
  have hkind := h.kind
  have htext := h.text
  have hoperator := h.operator
  by_cases hin : op = .within
  · subst hin
    have hbetween : OperatorRule.between? s.token = none := by
      unfold OperatorRule.between?
      rw [hkind, hoperator]
      rfl
    have hword : s.token.isKeyword "in" = true := by
      unfold Token.isKeyword
      rw [hkind, htext]
      rfl
    have hrelational : p ≤ .relational := hp
    unfold continuation?
    simp [hbetween, hword, hrelational]
  · have hlexeme := ChainWord.betweenLexeme_of_ne hin
    obtain ⟨levels, hlevels⟩ : ∃ levels, OperatorRule.binaryLevels? op = some levels :=
      Option.isSome_iff_exists.mp ((Operator.mem_betweens.mp hop).resolve_right hin)
    have hbetween : OperatorRule.between? s.token = some ⟨op, op.levels.1, op.levels.2⟩ := by
      unfold OperatorRule.between?
      rw [hkind, hoperator]
      simp [headLexeme, hlexeme, Operator.levels, hlevels]
    have hfilter : (OperatorRule.between? s.token).filter (p ≤ ·.level) =
        some ⟨op, op.levels.1, op.levels.2⟩ := by
      rw [hbetween]
      exact if_pos (by simpa using hp)
    unfold continuation?
    simp only [hfilter, hin, if_false]

/-- Nothing goes on with an expression that is over. -/
theorem continuation?_none {p : Precedence}
    (hbetween : (OperatorRule.between? s.token).filter (p ≤ ·.level) = none)
    (hin : (s.token.isKeyword "in" && decide (p ≤ Precedence.relational)) = false)
    (hbehind : OperatorRule.behind? s.token = none)
    (hwords : s.token.isKeyword "as" = false ∧ s.token.isKeyword "is" = false)
    (hkind : s.token.kind ∈ [.endOfProgram, .rightParen, .colon, .operator, .keyword]) :
    continuation? true p s = none := by
  simp only [List.mem_cons, List.not_mem_nil, or_false] at hkind
  have hinstance : s.token.isContextKeyword "instanceof" = false := by
    rcases hkind with hk | hk | hk | hk | hk <;> simp [Token.isContextKeyword, hk]
  unfold continuation?
  simp only [hbetween, Bool.true_and, hin, hbehind, Option.filter_none, hwords.1, hwords.2,
    hinstance, Bool.false_eq_true, if_false]
  rcases hkind with hk | hk | hk | hk | hk <;> rw [hk]

theorem continuation?_stops {p : Precedence} (h : s.At script ls) (hs : Stops p (headLexeme ls)) :
    continuation? true p s = none := by
  have hmem := hs.kind
  rw [← h.kind] at hmem
  have hkind := h.kind
  have htext := h.text
  have hoperator := h.operator
  generalize headLexeme ls = l at hs hkind htext hoperator
  cases hs with
  | ending | closing | colon =>
    refine continuation?_none ?_ ?_ ?_ ?_ hmem
    · simp [OperatorRule.between?, hkind]
    · simp [Token.isKeyword, hkind]
    · simp [OperatorRule.behind?, hkind]
    · simp [Token.isKeyword, hkind]
  | @between op hop hlt =>
    have hle : ¬ p ≤ op.levels.1 := Nat.not_le_of_lt hlt
    by_cases hin : op = .within
    · subst hin
      have hrelational : ¬ p ≤ Precedence.relational := hle
      refine continuation?_none ?_ ?_ ?_ ?_ hmem
      · unfold OperatorRule.between?
        rw [hkind, hoperator]
        rfl
      · simp [hrelational]
      · unfold OperatorRule.behind?
        rw [hkind, hoperator]
        rfl
      · unfold Token.isKeyword
        rw [hkind, htext]
        exact ⟨rfl, rfl⟩
    · simp only [ChainWord.betweenLexeme_of_ne hin] at hkind htext hoperator
      obtain ⟨levels, hlevels⟩ : ∃ levels, OperatorRule.binaryLevels? op = some levels :=
        Option.isSome_iff_exists.mp ((Operator.mem_betweens.mp hop).resolve_right hin)
      have hrule : OperatorRule.between? s.token = some ⟨op, op.levels.1, op.levels.2⟩ := by
        unfold OperatorRule.between?
        rw [hkind, hoperator]
        simp [Operator.levels, hlevels]
      have hplain : op ≠ .preIncrement ∧ op ≠ .preDecrement := by
        constructor
        · rintro rfl
          exact absurd hop (by decide)
        · rintro rfl
          exact absurd hop (by decide)
      refine continuation?_none ?_ ?_ ?_ ?_ hmem
      · simp [hrule, hle]
      · simp [Token.isKeyword, hkind]
      · simp [OperatorRule.behind?, hkind, hoperator, hplain.1, hplain.2]
      · simp [Token.isKeyword, hkind]

/-- An operator and what was read behind it. -/
theorem continueWith_between {op : Operator} {right : Expr} (m : Mark) (base : Expr)
    (compound : Option Operator)
    (he : r.expr { allowIn := true, level := op.levels.2 } s = .ok right t) :
    ∃ span, r.continueWith true m base compound
      (if op = .within then .within else .binary ⟨op, op.levels.1, op.levels.2⟩) s =
        .ok (.binary span op base right) t := by
  refine ⟨m.«to» t.previous.span, ?_⟩
  split
  · rename_i hin
    subst hin
    show (r.expr { allowIn := true, level := Operator.levels .within |>.2 } >>= fun right =>
      finish m >>= fun span => pure (Expr.binary span .within base right)) s = _
    rw [bind_of_ok he, finish_bind]
    rfl
  · show (r.expr { allowIn := true, level := op.levels.2 } >>= fun right =>
      finish m >>= fun span => pure (Expr.binary span op base right)) s = _
    rw [bind_of_ok he, finish_bind]
    rfl

theorem front?_of_lexeme {op : Operator} (hop : op ∈ Operator.fronts) {k : Token}
    (hk : k.toLexeme = ChainWord.frontLexeme op) :
    OperatorRule.front? k = some ⟨op, .unary, .unary⟩ := by
  rcases k with ⟨l, span⟩
  cases hk
  simp only [Operator.fronts, List.mem_cons, List.not_mem_nil, or_false] at hop
  rcases hop with rfl | rfl | rfl | rfl | rfl | rfl <;> rfl

theorem noteUse_front {op : Operator} (hop : op ∈ Operator.fronts) (span : Span) :
    noteUse op span s = .ok () s := by
  simp only [Operator.fronts, List.mem_cons, List.not_mem_nil, or_false] at hop
  rcases hop with rfl | rfl | rfl | rfl | rfl | rfl <;> rfl

/-- An operator in front of an operand. -/
theorem operand?_front {op : Operator} (hop : op ∈ Operator.fronts) {mode : ExprMode}
    (hmode : mode.level ≤ .unary) (h : s.At script (ChainWord.frontLexeme op :: ls)) :
    r.operand? mode s =
      (r.unaryExpr ⟨op, .unary, .unary⟩ mode.allowIn >>= fun e => pure (some e)) s := by
  have hq : ∀ op ∈ Operator.fronts, (ChainWord.frontLexeme op).Quiet := by
    intro op hop
    simp only [Operator.fronts, List.mem_cons, List.not_mem_nil, or_false] at hop
    rcases hop with rfl | rfl | rfl | rfl | rfl | rfl <;>
      exact ⟨by decide, by decide, by decide⟩
  have hparen : ∀ op ∈ Operator.fronts, (ChainWord.frontLexeme op).kind ≠ .leftParen := by decide
  have htoken : s.token.toLexeme = ChainWord.frontLexeme op := h.token
  have hprimary := optPrimaryRule_quiet (r := r) (s := s) (by rw [htoken]; exact hq op hop)
    (by rw [h.kind]; exact hparen op hop) mode.allowTyped mode.level
  have hrule := front?_of_lexeme hop htoken
  have hfilter : (OperatorRule.front? s.token).filter (mode.level ≤ ·.level) =
      some ⟨op, .unary, .unary⟩ := by
    rw [hrule]
    exact if_pos (by simpa using hmode)
  unfold operand?
  rw [bind_of_ok hprimary]
  simp only [token_bind, hfilter]

theorem unaryExpr_front {op : Operator} (hop : op ∈ Operator.fronts) {allowIn : Bool}
    (hnext : Parse.next s = .ok () t) (he : r.expr { allowIn, level := .unary } t = .ok e u) :
    ∃ span, r.unaryExpr ⟨op, .unary, .unary⟩ allowIn s = .ok (.unary span op e) u := by
  refine ⟨(Mark.ofSpan s.token.span).«to» u.previous.span, ?_⟩
  unfold unaryExpr
  rw [mark_bind, bind_of_ok hnext, bind_of_ok he, finish_bind, bind_of_ok (noteUse_front hop _)]
  rfl

theorem operand?_primary {mode : ExprMode}
    (h : r.optPrimaryRule mode.allowTyped mode.level s = .ok (some e) t) :
    r.operand? mode s = .ok (some e) t := by
  unfold operand?
  rw [bind_of_ok h]
  rfl

end Operators

end Rules

namespace Nesting

open Parse

/-- The least level of operators that a tree needs to be read at. -/
def Fits (p : Precedence) (t : Nesting) : Prop := ∀ op ∈ t.root?, p ≤ op.levels.1

/-- The level at which the last operand of a tree is read. -/
def edge (t : Nesting) : Precedence :=
  match t.root? with
  | some op => op.levels.2
  | none => .unary

theorem root?_mem {t : Nesting} (ht : t.Leveled) {op : Operator} (h : op ∈ t.root?) :
    op ∈ Operator.betweens := by
  cases t with
  | between op' left right =>
    cases h
    exact ht.1
  | name _ | number _ | parens _ | front _ _ => cases h

/-- Where anything looser than an operator may stand, every tree fits. -/
theorem fits_loose (t : Nesting) (ht : t.Leveled) {p : Precedence} (hp : p ≤ .assignment) :
    t.Fits p := fun _ hop => Nat.le_trans hp (Operator.levels_bounds (root?_mem ht hop)).1

/-- How the words of a tree are read. -/
def lexemes (t : Nesting) : List Lexeme := t.words.map ChainWord.lexeme

theorem lexemes_parens (inner : Nesting) (ls : List Lexeme) :
    (parens inner).lexemes ++ ls =
      { kind := .leftParen } :: (inner.lexemes ++ { kind := .rightParen } :: ls) := by
  simp [lexemes, words, ChainWord.lexeme]

theorem lexemes_between (op : Operator) (left right : Nesting) (ls : List Lexeme) :
    (between op left right).lexemes ++ ls =
      left.lexemes ++ ChainWord.betweenLexeme op :: (right.lexemes ++ ls) := by
  simp [lexemes, words, ChainWord.lexeme]

theorem length_lexemes (t : Nesting) : t.lexemes.length = t.words.length := List.length_map ..

/-- What a tree begins with is no closing parenthesis. -/
theorem lexemes_begin (t : Nesting) (ls : List Lexeme) :
    (headLexeme (t.lexemes ++ ls)).kind ≠ .rightParen ∧
      (headLexeme (t.lexemes ++ ls)).kind ≠ .ellipsis := by
  induction t generalizing ls with
  | between op left right ihl ihr =>
    rw [lexemes_between]
    exact ihl _
  | front op operand ih => cases op <;> exact ⟨nofun, nofun⟩
  | name _ | number _ | parens _ _ => exact ⟨nofun, nofun⟩

theorem lexemes_ne (t : Nesting) : t.lexemes ≠ [] := by
  cases t <;> simp [lexemes, words]

/-- A colon behind the tree is read with it: a name that may be typed takes it for its type, and
parentheses that may hold parameters take it for that of a function. -/
def TakesColon : Nesting → Bool → Precedence → Prop
  | .name _, allowTyped, _ => allowTyped = true
  | .number _, _, _ => False
  | .parens _, _, p => ¬ Precedence.assignment < p
  | .front _ operand, _, _ => operand.TakesColon true .unary
  | .between op _ right, _, _ => right.TakesColon true op.levels.2

section Reading

variable {script : Script} {readFile : String → Option String} {included : IncludeRule}

/-- What the rules of a level read in front of further lexemes: the first operand, and after some
rounds the tree that it begins. -/
def Opens (script : Script) (r : Rules) (t : Nesting) (mode : ExprMode) (s : ParserState)
    (ls : List Lexeme) : Prop :=
  ∃ base s' k e u, r.operand? mode s = .ok (some base) s' ∧ k ≤ t.words.length ∧
    (∀ fuel, r.continuations mode.allowIn mode.level (fuel + k) base s' =
      r.continuations mode.allowIn mode.level fuel e u) ∧
    t.Shows e ∧ u.At script ls

/-- The rules of a level read a tree as an expression. -/
def Reads (script : Script) (r : Rules) (t : Nesting) (mode : ExprMode) (s : ParserState)
    (ls : List Lexeme) : Prop :=
  ∃ e u, r.optExprRule mode s = .ok (some e) u ∧ t.Shows e ∧ u.At script ls

/-- A tree that has been read is over where its level stops. -/
theorem Opens.reads {r : Rules} {t : Nesting} {p : Precedence} {allowTyped : Bool}
    {s : ParserState} {ls : List Lexeme} (h : Opens script r t ⟨true, p, allowTyped⟩ s ls)
    (hlength : t.words.length ≤ r.depth) (hs : Stops p (headLexeme ls)) :
    Reads script r t ⟨true, p, allowTyped⟩ s ls := by
  obtain ⟨base, s', k, e, u, hoperand, hk, hrounds, hshows, hu⟩ := h
  have hfuel : r.rounds = (r.depth + 1 - k) + 1 + k := by
    unfold Rules.rounds
    omega
  have hstop : r.continuations true p (r.depth + 1 - k + 1) e u = .ok e u := by
    unfold Rules.continuations
    rw [get_bind, Rules.continuation?_stops hu hs]
    rfl
  have hcontinued : r.continued base true p s' = .ok e u := by
    unfold Rules.continued
    rw [hfuel]
    exact (hrounds _).trans hstop
  refine ⟨e, u, ?_, hshows, hu⟩
  unfold Rules.optExprRule
  rw [bind_of_ok hoperand]
  dsimp only
  rw [bind_of_ok hcontinued]
  rfl

theorem opens_of_operand {r : Rules} {t : Nesting} {mode : ExprMode} {s u : ParserState}
    {ls : List Lexeme} {e : Expr} (h : r.operand? mode s = .ok (some e) u) (ht : t.Shows e)
    (hu : u.At script ls) : Opens script r t mode s ls :=
  ⟨e, u, 0, e, u, h, Nat.zero_le _, fun _ => rfl, ht, hu⟩

theorem stops_edge {p : Precedence} (hp : p ≤ .unary) (hor : p ≠ .logicalOr) {t : Nesting}
    (ht : t.Leveled) (hfits : t.Fits p) {l : Lexeme} (hs : Stops p l) : Stops t.edge l := by
  unfold edge
  cases hroot : t.root? with
  | none => exact hs.mono hp
  | some op =>
    have hop := root?_mem ht hroot
    exact hs.mono (Operator.levels_operand hop hor (hfits op hroot))

/-- An operator that holds a tree on its left is not read with it. -/
theorem stops_left {op : Operator} (hop : op ∈ Operator.betweens) {left : Nesting}
    (hleft : left.Leveled) (h : ∀ inner ∈ left.root?, op.HoldsLeft inner) :
    Stops left.edge (ChainWord.betweenLexeme op) := by
  unfold edge
  cases hroot : left.root? with
  | none => exact .between hop (Operator.levels_bounds hop).2.1
  | some inner =>
    have hinner := root?_mem hleft hroot
    exact .between hop (Operator.levels_left hop hinner (h inner hroot)).2

theorem fits_left {op : Operator} (hop : op ∈ Operator.betweens) {p : Precedence}
    (hp : p ≤ op.levels.1) {left : Nesting} (hleft : left.Leveled)
    (h : ∀ inner ∈ left.root?, op.HoldsLeft inner) : left.Fits p := by
  intro inner hroot
  have hinner := root?_mem hleft hroot
  exact Nat.le_trans hp (Operator.levels_left hop hinner (h inner hroot)).1

theorem fits_right {op : Operator} (hop : op ∈ Operator.betweens) {right : Nesting}
    (hright : right.Leveled) (h : ∀ inner ∈ right.root?, op.HoldsRight inner) :
    right.Fits op.levels.2 := by
  intro inner hroot
  exact Operator.levels_right hop (root?_mem hright hroot) (h inner hroot)

/-- What the level below reads is an expression for the level above. -/
theorem Reads.expr {n : Nat} {t : Nesting} {mode : ExprMode} {s : ParserState}
    {ls : List Lexeme} (h : Reads script (Rules.level readFile included n) t mode s ls) :
    ∃ e u, (Rules.level readFile included (n + 1)).expr mode s = .ok e u ∧ t.Shows e ∧
      u.At script ls := by
  obtain ⟨e, u, hread, hshows, hu⟩ := h
  exact ⟨e, u, Rules.expr_of_optExpr hread, hshows, hu⟩

/-- By induction on the tree. The operand of an operator is read at the level below, by which the
operator is taken off the words that are left; what holds a tree on its left finds the tree already
read, after one round for each operator on its left edge. -/
theorem opens : ∀ {t : Nesting}, t.Leveled → ∀ {n : Nat} {p : Precedence} {allowTyped : Bool}
    {s : ParserState} {ls : List Lexeme}, t.words.length ≤ n → p ≤ .unary → t.Fits p →
      s.At script (t.lexemes ++ ls) → Stops t.edge (headLexeme ls) →
      ((headLexeme ls).kind = .colon → ¬ t.TakesColon allowTyped p) →
      Opens script (Rules.level readFile included n) t ⟨true, p, allowTyped⟩ s ls := by
  intro t
  induction t with
  | name m =>
    intro _ n p allowTyped s ls _ _ _ hs hstops hcolon
    have hbehind := And.intro (hstops.kind_ne (k := .string) (by decide))
      (hstops.kind_ne (k := .arrow) (by decide))
    obtain ⟨span, u, hread, hu⟩ := Rules.optPrimaryRule_name hs hbehind
      (fun hk => Bool.eq_false_iff.mpr (hcolon hk)) p
    exact opens_of_operand (Rules.operand?_primary hread) ⟨span, rfl⟩ hu
  | number v =>
    intro _ n p allowTyped s ls _ _ _ hs _ _
    obtain ⟨span, u, hread, hu⟩ := Rules.optPrimaryRule_number hs allowTyped p
    exact opens_of_operand (Rules.operand?_primary hread) ⟨span, rfl⟩ hu
  | parens inner ih =>
    intro ht n p allowTyped s ls hlength _ _ hs hstops hcolon
    have hinner : inner.Leveled := ht
    rw [lexemes_parens] at hs
    obtain ⟨m, rfl⟩ : ∃ m, n = m + 1 := ⟨n - 1, by simp [words] at hlength; omega⟩
    obtain ⟨s', hnext, hs', -⟩ := hs.next
    have hreads : ∀ q : Precedence, q ≤ .unary → inner.Fits q →
        Reads script (Rules.level readFile included m) inner ⟨true, q, true⟩ s'
          ({ kind := .rightParen } :: ls) := by
      intro q hq hfits
      have hlength' : inner.words.length ≤ m := by
        simp [words] at hlength
        omega
      refine Opens.reads (ih hinner hlength' hq hfits hs' .closing (by rintro ⟨⟩)) ?_ .closing
      rw [Rules.level_depth]
      exact hlength'
    have hprimary : ∀ {e u}, (Rules.level readFile included (m + 1)).parensPrimary
        (Mark.ofSpan s.token.span) p s' = .ok e u →
        (Rules.level readFile included (m + 1)).operand? ⟨true, p, allowTyped⟩ s =
          .ok (some e) u := by
      intro e u hparens
      refine Rules.operand?_primary ?_
      rw [Rules.optPrimaryRule_opening hs.kind hnext, bind_of_ok hparens]
      rfl
    by_cases hlevel : Precedence.assignment < p
    · obtain ⟨e, u, he, hshows, hu⟩ := (hreads .list (by decide) (inner.fits_loose hinner (by decide))).expr
      obtain ⟨span, v, hparens, hv⟩ := Rules.parensPrimary_tight hlevel he hu
        (Mark.ofSpan s.token.span)
      exact opens_of_operand (hprimary hparens) ⟨span, e, rfl, hshows⟩ hv
    · obtain ⟨e, u, he, hshows, hu⟩ :=
        (hreads .assignment (by decide) (inner.fits_loose hinner (by decide))).expr
      have hbegin := inner.lexemes_begin ({ kind := .rightParen } :: ls)
      have hitems := Rules.parensItems_single (by rintro ⟨⟩) (by rw [hs'.kind]; exact hbegin.2) he
        (by rw [hu.kind]; rintro ⟨⟩)
      obtain ⟨span, v, hparens, hv⟩ := Rules.parensPrimary_loose hlevel
        (by rw [hs'.kind]; exact hbegin.1) hitems hu hstops (fun hk => hcolon hk hlevel)
        (Mark.ofSpan s.token.span)
      exact opens_of_operand (hprimary hparens) ⟨span, e, rfl, hshows⟩ hv
  | front op operand ih =>
    intro ht n p allowTyped s ls hlength hp _ hs hstops hcolon
    obtain ⟨hop, hroot, hoperand⟩ := ht
    obtain ⟨m, rfl⟩ : ∃ m, n = m + 1 := ⟨n - 1, by simp [words] at hlength; omega⟩
    have hlength' : operand.words.length ≤ m := by
      simp [words] at hlength
      omega
    obtain ⟨s', hnext, hs', -⟩ := hs.next
    have hedge : operand.edge = .unary := by
      unfold edge
      rw [hroot]
    have hopens : Opens script (Rules.level readFile included m) operand ⟨true, .unary, true⟩ s'
        ls := by
      refine ih hoperand hlength' (Nat.le_refl _) ?_ hs' (by rw [hedge]; exact hstops) hcolon
      intro inner hinner
      rw [hroot] at hinner
      cases hinner
    obtain ⟨e, u, he, hshows, hu⟩ :=
      (hopens.reads (by rw [Rules.level_depth]; exact hlength') hstops).expr
    have hmode : (ExprMode.mk true p allowTyped).level ≤ .unary := hp
    obtain ⟨span, hread⟩ := Rules.unaryExpr_front hop hnext he
    refine opens_of_operand ?_ ⟨span, e, rfl, hshows⟩ hu
    rw [Rules.operand?_front hop hmode hs, bind_of_ok hread]
    rfl
  | between op left right ihl ihr =>
    intro ht n p allowTyped s ls hlength hp hfits hs hstops hcolon
    obtain ⟨hop, hholdsl, hholdsr, hleft, hright⟩ := ht
    have hlevel : p ≤ op.levels.1 := hfits op rfl
    obtain ⟨-, -, hunary, hor⟩ := Operator.levels_bounds hop
    rw [lexemes_between] at hs
    simp only [words, List.length_append, List.length_cons] at hlength
    obtain ⟨m, rfl⟩ : ∃ m, n = m + 1 := ⟨n - 1, by omega⟩
    have hlength' : right.words.length ≤ m := by omega
    have hleftStops := stops_left hop hleft hholdsl
    have hopensl : Opens script (Rules.level readFile included (m + 1)) left ⟨true, p, allowTyped⟩
        s (ChainWord.betweenLexeme op :: (right.lexemes ++ ls)) :=
      ihl hleft (by omega) hp (fits_left hop hlevel hleft hholdsl) hs hleftStops
        fun hk => absurd hk (ChainWord.betweenLexeme_kind_ne op)
    obtain ⟨base, s', k, l, u, hoperand, hk, hrounds, hl, hu⟩ := hopensl
    obtain ⟨u', hnext, hu', -⟩ := hu.next
    have hfitsr := fits_right hop hright hholdsr
    have hopensr : Opens script (Rules.level readFile included m) right ⟨true, op.levels.2, true⟩
        u' ls :=
      ihr hright hlength' hunary hfitsr hu' (stops_edge hunary hor hright hfitsr hstops) hcolon
    obtain ⟨r, v, hr, hshowsr, hv⟩ :=
      (hopensr.reads (by rw [Rules.level_depth]; exact hlength') hstops).expr
    obtain ⟨span, hlonger⟩ := Rules.continueWith_between (Mark.ofSpan l.span) l u.token.operator hr
    refine ⟨base, s', k + 1, .binary span op l r, v, hoperand, ?_, ?_, ⟨span, l, r, rfl, hl, hshowsr⟩,
      hv⟩
    · simp only [words, List.length_append, List.length_cons]
      omega
    · intro fuel
      rw [show fuel + (k + 1) = fuel + 1 + k by omega, hrounds]
      show (Rules.level readFile included (m + 1)).continuations true p (fuel + 1) l u = _
      rw [Rules.continuations]
      rw [get_bind, Rules.continuation?_between hu hop hlevel]
      dsimp only
      rw [bind_of_ok hnext, bind_of_ok hlonger]

end Reading

end Nesting

namespace Parser

open Parse

section Answers

variable {α : Type} {host : Host} {script : Script}

/-- A construct that is read to the end of a valid script is the answer. -/
theorem run_at {ls : List Lexeme} {a : α} {u : ParserState} (construct : Rules → Parse α)
    (hvalid : script.isValid = true)
    (hfirst : (Parser.ofScript host script).state.At script ls)
    (hread : construct (Rules.ofHost host script) (Parser.ofScript host script).state = .ok a u)
    (hu : u.At script []) :
    ∃ p, (Parser.ofScript host script).run construct = (some a, p) ∧ p.script = script := by
  have hscript : (Parser.ofScript host script).script = script := hfirst.before.script
  have hkind : u.token.kind = .endOfProgram := hu.kind
  have hend : expectEnd u = .ok () u := by
    unfold expectEnd
    rw [at?_bind, hkind]
    rfl
  have hall : toEnd (construct (Rules.ofHost host script)) (Parser.ofScript host script).state =
      .ok a u := by
    unfold toEnd
    rw [bind_of_ok hread, bind_of_ok hend]
    rfl
  refine ⟨{ Parser.ofScript host script with state := u }, ?_, hu.before.script⟩
  unfold run
  rw [hscript, hvalid, show (Parser.ofScript host script).host = host from rfl]
  dsimp only
  rw [hall]
  dsimp only
  rw [show u.script = script from hu.before.script, if_pos hvalid]
  rfl

/-- How deep the rules of a script go is enough for what is laid out in it. -/
theorem length_le_level {ls : List Lexeme} (h : Laid ls (' ' :: script.content)) :
    ls.length ≤ Rules.levelFor script := by
  have hlength := h.length_le
  rw [List.length_cons] at hlength
  unfold Rules.levelFor
  omega

end Answers

/-- A tree of operators that nest by their levels is what its words are read as. -/
theorem parseExpressionWith_nesting (host : Host) {script : Script}
    (hvalid : script.isValid = true) {t : Nesting} (ht : t.Leveled)
    (hlaid : Laid t.lexemes (' ' :: script.content)) {level : Precedence}
    (hlevel : level ≤ .assignment) :
    ∃ e p, (Parser.ofScript host script).parseExpressionWith true level = (some e, p) ∧
      p.script = script ∧ t.Shows e := by
  have hlength : t.words.length ≤ Rules.levelFor script :=
    t.length_lexemes ▸ length_le_level hlaid
  have hfirst : (Parser.ofScript host script).state.At script (t.lexemes ++ []) := by
    rw [List.append_nil]
    exact .first hlaid t.lexemes_ne host
  have hopens : Nesting.Opens script (Rules.ofHost host script) t ⟨true, level, true⟩
      (Parser.ofScript host script).state [] :=
    Nesting.opens ht hlength (Nat.le_trans hlevel (by decide)) (t.fits_loose ht hlevel) hfirst
      .ending nofun
  obtain ⟨e, u, hread, hshows, hu⟩ :=
    hopens.reads (by rwa [Rules.ofHost, Rules.level_depth]) .ending
  have hexpr : (Rules.ofHost host script).exprRule { allowIn := true, level }
      (Parser.ofScript host script).state = .ok e u := by
    unfold Rules.exprRule
    rw [bind_of_ok hread]
    rfl
  obtain ⟨p, hparse, hscript⟩ :=
    run_at (fun r => r.exprRule { allowIn := true, level }) hvalid hfirst hexpr hu
  exact ⟨e, p, hparse, hscript, hshows⟩

/-- A chain of operators on one line is read into the one tree whose words are the chain and whose
operators nest by their levels, and nothing is found wrong with it. -/
theorem parseExpression_chain (host : Host) {script : Script} (hvalid : script.isValid = true)
    {ws : List ChainWord} (hchain : IsChain ws) (hline : OnLine ws script.content) :
    ∃ e p t, (Parser.ofScript host script).parseExpression = (some e, p) ∧ p.script = script ∧
      t.Shows e ∧ t.Leveled ∧ t.words = ws ∧
      ∀ u : Nesting, u.Leveled → u.words = ws → u = t := by
  obtain ⟨t, ht, rfl⟩ := hchain.nesting
  have hlist : Precedence.list ≤ .assignment := by decide
  obtain ⟨e, p, hparse, hscript, hshows⟩ :=
    parseExpressionWith_nesting host hvalid ht hline.laid hlist
  refine ⟨e, p, t, hparse, hscript, hshows, ht, rfl, ?_⟩
  intro u hu hwords
  rw [← hwords] at hline
  obtain ⟨e', p', hparse', -, hshows'⟩ :=
    parseExpressionWith_nesting host hvalid hu hline.laid hlist
  rw [hparse] at hparse'
  cases hparse'
  exact hshows'.unique hshows

open ChainWord in
theorem parseExpression_chain_power :
    ∃ e p t, (Parser.ofScript (Host.ofFiles [])
        (Script.ofSource "/a.es" "- a ** ( b ?? c )")).parseExpression = (some e, p) ∧
      p.script = Script.ofSource "/a.es" "- a ** ( b ?? c )" ∧ Nesting.Shows t e ∧ t.Leveled ∧
      t.words = [front .negate, name "a", between .power, opening, name "b",
        between .nullCoalescing, name "c", closing] ∧
      ∀ u : Nesting, u.Leveled → u.words = [front .negate, name "a", between .power, opening,
        name "b", between .nullCoalescing, name "c", closing] → u = t := by
  have hinner : IsChain [name "b", between .nullCoalescing, name "c"] :=
    .longer (.name "b") (by decide) (.operand (.name "c"))
  have hchain : IsChain [front .negate, name "a", between .power, opening, name "b",
      between .nullCoalescing, name "c", closing] :=
    .longer (.front (by decide) (.name "a")) (by decide) (.operand (.parens hinner))
  have hname : ∀ n ∈ ["a", "b", "c"],
      Scan.whole? n.toList = some { kind := .identifier, text := n } := by decide +kernel
  have hspaced := Spaced.word 0 (w := front .negate) ⟨by decide, rfl⟩ <|
    .word 0 (w := name "a") (hname "a" (by decide)) <|
    .word 0 (w := between .power) ⟨by decide, rfl⟩ <| .word 0 (w := opening) rfl <|
    .word 0 (w := name "b") (hname "b" (by decide)) <|
    .word 0 (w := between .nullCoalescing) ⟨by decide, rfl⟩ <|
    .word 0 (w := name "c") (hname "c" (by decide)) <| .word 0 (w := closing) rfl (.done 0)
  exact parseExpression_chain (Host.ofFiles []) rfl hchain hspaced

end Parser

end ActionSyntax
