import ActionSyntax.Proofs.Shadows.Framing

/-!
Types step by step: the names that they begin with, what goes on with them, and where they are over.
-/

namespace ActionSyntax

set_option autoImplicit false

/-- The token goes on with no type. -/
structure Token.EndsType (t : Token) : Prop where
  kind : t.kind ∉ [.questionMark, .exclamationMark, .dot, .colon]
  bar : t.isOperator .bitwiseOr = false

namespace Token.EndsType

variable {t : Token}

theorem kind_ne (h : t.EndsType) (k : TokenKind)
    (hk : k ∈ [.questionMark, .exclamationMark, .dot, .colon]) : t.kind ≠ k := by
  rintro rfl
  exact h.kind hk

/-- In front of a mark that closes, or at the end, a type is over. -/
theorem of_closing (h : t.kind.closes = true ∨ t.kind = .endOfProgram) : t.EndsType := by
  have hne : ∀ k : TokenKind, k.closes = false → k ≠ .endOfProgram → t.kind ≠ k := by
    rintro k hk hend rfl
    exact h.elim (by simp [hk]) hend
  constructor
  · intro hmem
    simp only [List.mem_cons, List.not_mem_nil, or_false] at hmem
    rcases hmem with hk | hk | hk | hk <;> exact absurd hk (hne _ rfl (by decide))
  · simp [Token.isOperator, hne .operator rfl (by decide)]

end Token.EndsType

namespace Rules

open Parse

variable {q : Rules} {t u v : ParserState}

/-- Where no suffix follows, a type is over. -/
theorem typeSuffix?_over (ht : t.token.EndsType) (base : TypeExpr) :
    q.typeSuffix? base t = .ok none t := by
  have hbar : consumeOperator .bitwiseOr t = .ok false t := consumeIf_no ht.bar
  unfold typeSuffix?
  simp only [bind_of_ok (consume_no (ht.kind_ne .questionMark (by decide))),
    bind_of_ok (consume_no (ht.kind_ne .exclamationMark (by decide))),
    bind_of_ok (consume_no (ht.kind_ne .dot (by decide))),
    bind_of_ok (consume_no (ht.kind_ne .colon (by decide))), bind_of_ok hbar, Bool.false_eq_true,
    if_false]
  rfl

theorem typeSuffixes_over (ht : t.token.EndsType) (fuel : Nat) (base : TypeExpr) :
    q.typeSuffixes (fuel + 1) base t = .ok base t := by
  rw [typeSuffixes, bind_of_ok (typeSuffix?_over ht base)]
  rfl

/-- A suffix is followed by more of them. -/
theorem typeSuffixes_some {base longer : TypeExpr} (h : q.typeSuffix? base t = .ok (some longer) u)
    (fuel : Nat) : q.typeSuffixes (fuel + 1) base t = q.typeSuffixes fuel longer u := by
  rw [typeSuffixes, bind_of_ok h]

/-- Behind a dot stands a member, or type arguments. -/
theorem typeSuffix?_dot {base longer : TypeExpr} (hkind : t.token.kind = .dot)
    (hnext : Parse.next t = .ok () u)
    (hmember : q.typeMember (Mark.ofSpan base.span) base u = .ok longer v) :
    q.typeSuffix? base t = .ok (some longer) v := by
  have hquestion : t.token.kind ≠ .questionMark := by simp [hkind]
  have hexclamation : t.token.kind ≠ .exclamationMark := by simp [hkind]
  have hdot : consume .dot t = .ok true u := consume_yes hkind hnext
  unfold typeSuffix?
  simp only [bind_of_ok (consume_no hquestion), bind_of_ok (consume_no hexclamation),
    bind_of_ok hdot, bind_of_ok hmember, Bool.false_eq_true, if_false, if_true]
  rfl

/-- Type arguments and the sign that closes them. -/
theorem typeMember_arguments {base : TypeExpr} {arguments : List TypeExpr} {m : Mark} {s : ParserState}
    (hless : s.token.isOperator .less = true) (hnext : Parse.next s = .ok () t)
    (harguments : q.typeArguments t = .ok arguments u) :
    q.typeMember m base s = .ok (.instantiation (m.«to» u.previous.span) base arguments) u := by
  have hopen : consumeOperator .less s = .ok true t := consumeIf_yes hless hnext
  unfold typeMember
  rw [bind_of_ok hopen, if_pos rfl, bind_of_ok harguments, finish_bind]
  rfl

theorem typeSuffixes_question (hkind : t.token.kind = .questionMark)
    (hnext : Parse.next t = .ok () u) (fuel : Nat) (base : TypeExpr) :
    ∃ span, q.typeSuffixes (fuel + 1) base t = q.typeSuffixes fuel (.nullable span base) u := by
  have hconsume : consume .questionMark t = .ok true u := consume_yes hkind hnext
  refine ⟨(Mark.ofSpan base.span).«to» u.previous.span, ?_⟩
  rw [typeSuffixes]
  unfold typeSuffix?
  rw [bind_of_ok (a := some (.nullable _ base)) (t := u)]
  simp only [bind_of_ok hconsume, if_true, finish_bind]
  rfl

theorem typeSuffixes_colon {type : TypeExpr} (hkind : t.token.kind = .colon)
    (hnext : Parse.next t = .ok () u) (htype : q.typeExpr u = .ok type v) (fuel : Nat)
    (base : TypeExpr) :
    ∃ span, q.typeSuffixes (fuel + 1) base t = q.typeSuffixes fuel (.typed span base type) v := by
  have hconsume : consume .colon t = .ok true u := consume_yes hkind hnext
  have hne : ∀ k : TokenKind, k ≠ .colon → consume k t = .ok false t := by
    refine fun k hk => consume_no ?_
    rw [hkind]
    exact hk.symm
  refine ⟨(Mark.ofSpan base.span).«to» type.span, ?_⟩
  rw [typeSuffixes]
  unfold typeSuffix?
  rw [bind_of_ok (a := some (.typed _ base type)) (t := v)]
  simp only [bind_of_ok (hne .questionMark (by decide)),
    bind_of_ok (hne .exclamationMark (by decide)), bind_of_ok (hne .dot (by decide)),
    bind_of_ok hconsume, Bool.false_eq_true, if_false, if_true, bind_of_ok htype]
  rfl

/-- The type behind a bar joins the members in front of it, and so do its own members. -/
theorem typeSuffixes_bar {type : TypeExpr} (hbar : t.token.isOperator .bitwiseOr = true)
    (hnext : Parse.next t = .ok () u) (htype : q.typeExpr u = .ok type v) (fuel : Nat)
    (base : TypeExpr) :
    q.typeSuffixes (fuel + 1) base t = q.typeSuffixes fuel (.union (base.span.«to» type.span)
      (base.unionMembers ++ type.unionMembers)) v := by
  have hkind : t.token.kind = .operator := by
    rw [Token.isOperator, Bool.and_eq_true] at hbar
    simpa using hbar.1
  have hne : ∀ k : TokenKind, k ≠ .operator → consume k t = .ok false t := by
    intro k hk
    apply consume_no
    rw [hkind]
    exact hk.symm
  have hconsume : consumeOperator .bitwiseOr t = .ok true u := consumeIf_yes hbar hnext
  apply typeSuffixes_some
  unfold typeSuffix?
  simp only [bind_of_ok (hne .questionMark (by decide)),
    bind_of_ok (hne .exclamationMark (by decide)), bind_of_ok (hne .dot (by decide)),
    bind_of_ok (hne .colon (by decide)), bind_of_ok hconsume, Bool.false_eq_true, if_false, if_true,
    bind_of_ok htype]
  rfl

/-- Behind a bar, a type begins as it does without the bar. -/
theorem typeExprRule_bar {type : TypeExpr} (hbar : t.token.isOperator .bitwiseOr = true)
    (hnext : Parse.next t = .ok () u) (htype : q.typeExpr u = .ok type v) :
    q.typeExprRule t = q.typeSuffixes q.rounds type v := by
  obtain ⟨hkind, hoperator⟩ : t.token.kind = .operator ∧ t.token.operator = some .bitwiseOr := by
    simpa [Token.isOperator] using hbar
  have hne : ∀ k : TokenKind, k ≠ .operator → consume k t = .ok false t := by
    intro k hk
    apply consume_no
    rw [hkind]
    exact hk.symm
  have hword : ∀ word, consumeKeyword word t = .ok false t := by
    intro word
    apply consumeIf_no
    simp [Token.isKeyword, hkind]
  have hname : consumeContextKeyword "undefined" t = .ok false t :=
    consumeIf_no (by simp [Token.isContextKeyword, hkind])
  have hany : consumeOperator .multiply t = .ok false t :=
    consumeIf_no (by simp [Token.isOperator, hoperator])
  have hconsume : consumeOperator .bitwiseOr t = .ok true u := consumeIf_yes hbar hnext
  have hhead : q.typeHead (Mark.ofSpan t.token.span) t = .ok type v := by
    unfold typeHead
    simp only [bind_of_ok hname, bind_of_ok (hne .identifier (by decide)), bind_of_ok (hword _),
      bind_of_ok (hne .leftBracket (by decide)), bind_of_ok (hne .leftBrace (by decide)),
      bind_of_ok (hne .leftParen (by decide)), bind_of_ok hany, bind_of_ok hconsume,
      Bool.false_eq_true, if_false, if_true, htype]
  unfold typeExprRule
  rw [mark_bind, bind_of_ok hhead]

/-- A name that no arrow follows is a type by itself. -/
theorem typeExprRule_name (hkind : t.token.kind = .identifier) (hname : t.token.text ≠ "undefined")
    (hnext : Parse.next t = .ok () u) (harrow : u.token.kind ≠ .arrow) :
    q.typeExprRule t = q.typeSuffixes q.rounds (.name t.token.span t.token.text) u := by
  have hprevious : u.previous = t.token := by
    rw [(next_inv hnext).2]
    rfl
  have hword : consumeContextKeyword "undefined" t = .ok false t :=
    consumeIf_no (by simp [Token.isContextKeyword, hname])
  have hconsume : consume .identifier t = .ok true u := consume_yes hkind hnext
  unfold typeExprRule
  rw [mark_bind, bind_of_ok (a := .name t.token.span t.token.text) (t := u)]
  unfold typeHead
  simp only [bind_of_ok hword, bind_of_ok hconsume, Bool.false_eq_true, if_false, if_true]
  unfold nameType
  simp only [finish_bind, previous_bind, bind_of_ok (consume_no harrow), Bool.false_eq_true,
    if_false, hprevious]
  rfl

end Rules

end ActionSyntax
