import ActionSyntax.Proofs.Building.Functions
import ActionSyntax.Proofs.Destructuring
import ActionSyntax.Proofs.Shadows.Stages

/-!
The two ways to write the parameters of a function expression: behind the keyword, or in front of an
arrow. Before the arrow is seen the parameters are read as expressions, and then taken for what they
are. By then an initializer that is assigned to has become a pattern, and no parameter is made of it.
-/

namespace ActionSyntax

set_option autoImplicit false

section Conversion

/-- A single value is bound to a name. -/
def Pattern.isName : Pattern → Bool
  | .name .. => true
  | _ => false

theorem Matches.isName {pattern pattern' : Pattern} (h : Matches pattern pattern') :
    pattern.isName = pattern'.isName := by
  cases pattern <;> cases pattern' <;> first | rfl | simp at h

/-- A pattern that an expression spells is a name, or the expression is an initializer. -/
theorem Pattern.isName_of_spelled {e : Expr} {pattern : Pattern} (h : Pattern.ofExpr e = .ok pattern) :
    pattern.isName = !e.isInitializer := by
  cases e
  case identifier =>
    cases h
    rfl
  case array span items type =>
    rw [Pattern.ofExpr] at h
    cases hitems : Pattern.ofItems items <;> rw [hitems] at h <;> cases h
    rfl
  case object span fields type =>
    rw [Pattern.ofExpr] at h
    cases hfields : Pattern.ofFields fields <;> rw [hfields] at h <;> cases h
    rfl
  all_goals cases h

/-- The expression that a parameter is read as before its arrow has been seen. -/
inductive Expr.Binds (binding : VariableBinding) : Expr → Prop
  | required {e : Expr} {pattern : Pattern} (init : binding.init = none)
      (spells : Pattern.ofExpr e = .ok pattern) (bare : Matches binding.pattern pattern) :
      Binds binding e
  | optional {span : Span} {e value value' : Expr} {pattern : Pattern}
      (init : binding.init = some value) (name : binding.pattern.isName = true)
      (spells : Pattern.ofExpr e = .ok pattern) (bare : Matches binding.pattern pattern)
      (value : Matches value value') :
      Binds binding (.assignment span (.expression e) none value')
  | apart {span : Span} {value value' : Expr} {pattern : Pattern}
      (init : binding.init = some value) (name : binding.pattern.isName = false) :
      Binds binding (.assignment span (.pattern pattern) none value')

namespace Rules

open Parse

/-- No parameter with an initial value is taken apart. -/
def Params.simple (params : Params) : Bool :=
  params.optional.all fun binding => binding.pattern.isName

/-- The parameter may stand behind those before it. -/
def Params.Admits (params : Params) (binding : VariableBinding) : Bool :=
  !(binding.init.isNone && !params.optional.isEmpty)

/-- The expressions are taken for the parameters if those are simple, and a problem is reported unless
they are, and in order. -/
def Params.Converts (items : List Expr) (params : Params) (ordered : Bool) : Prop :=
  ∀ s, ∃ params' t, arrowParams items s = .ok params' t ∧
    (params.simple = true → Matches params params') ∧ s.Reported (ordered && params.simple) t

theorem Params.Converts.nil : Params.Converts [] {} true := fun s => ⟨{}, s, rfl, fun _ => rfl, .refl s⟩

theorem Params.simple_add (params : Params) (binding : VariableBinding) :
    (params.add binding).simple =
      (params.simple && (binding.init.isNone || binding.pattern.isName)) := by
  unfold add simple
  cases binding.init <;> simp

theorem asPattern_pure {e : Expr} {pattern : Pattern} (h : Pattern.ofExpr e = .ok pattern) :
    asPattern e = pure pattern := funext (asPattern_of_ok h)

theorem addArrowParam_plain {e : Expr} {pattern : Pattern} (h : Pattern.ofExpr e = .ok pattern)
    (params : Params) : addArrowParam params e = (do
      if !params.optional.isEmpty then syntaxError .requiredParamMustntFollowOptParam e.span
      return params.add { span := e.span, pattern, init := none }) := by
  have hother : e.isAssignment = false := by
    cases e
    case assignment => simp [Pattern.ofExpr] at h
    all_goals rfl
  rw [addArrowParam_other hother, asPattern_pure h]
  rfl

/-- The expression is taken for its parameter, unless that is taken apart and has an initial value. -/
theorem addArrowParam_binds {binding : VariableBinding} {e : Expr} (h : e.Binds binding)
    (params : Params) (s : ParserState) :
    ∃ params' t, addArrowParam params e s = .ok params' t ∧
      s.Reported (params.Admits binding && (binding.init.isNone || binding.pattern.isName)) t ∧
      ((binding.init.isNone || binding.pattern.isName) = true →
        ∃ binding', params' = params.add binding' ∧ Matches binding binding') := by
  obtain ⟨span, pattern, init⟩ := binding
  unfold Params.Admits
  cases h with
  | @required _ pattern' hinit hspells hbare =>
    obtain rfl : init = none := hinit
    rw [addArrowParam_plain hspells]
    have hbinding : Matches (⟨span, pattern, none⟩ : VariableBinding) ⟨e.span, pattern', none⟩ := by
      simpa using hbare
    cases hoptional : params.optional.isEmpty with
    | true => exact ⟨_, s, rfl, .refl s, fun _ => ⟨_, rfl, hbinding⟩⟩
    | false => exact ⟨_, _, rfl, .collect s rfl, fun _ => ⟨_, rfl, hbinding⟩⟩
  | @optional _ _ value value' pattern' hinit hname hspells hbare hvalue =>
    obtain rfl : init = some value := hinit
    have hname : pattern.isName = true := hname
    rw [hname]
    unfold addArrowParam
    dsimp only
    rw [asPattern_pure hspells]
    exact ⟨_, s, rfl, .refl s, fun _ => ⟨_, rfl, by simpa using ⟨hbare, hvalue⟩⟩⟩
  | @apart _ value value' pattern' hinit hname =>
    obtain rfl : init = some value := hinit
    have hname : pattern.isName = false := hname
    rw [hname]
    exact ⟨params, _, rfl, .collect s rfl, fun h => by cases h⟩

theorem Params.Converts.snoc {items : List Expr} {params : Params} {ordered : Bool} {e : Expr}
    {binding : VariableBinding} (h : Params.Converts items params ordered) (he : e.Binds binding) :
    Params.Converts (items ++ [e]) (params.add binding) (ordered && params.Admits binding) := by
  intro s
  obtain ⟨params', t, hconvert, hparams, hreported⟩ := h s
  obtain ⟨params'', u, hadd, hreported', hbinding⟩ := addArrowParam_binds he params' t
  have hconverts : arrowParams (items ++ [e]) s = .ok params'' u := by
    unfold arrowParams at hconvert ⊢
    rw [List.foldlM_append, bind_of_ok hconvert]
    show (addArrowParam params' e >>= fun params => pure params) t = _
    rw [bind_of_ok hadd]
    rfl
  rw [Params.simple_add]
  refine ⟨params'', u, hconverts, fun hsimple => ?_, ?_⟩
  · obtain ⟨hbefore, hlast⟩ := Bool.and_eq_true_iff.mp hsimple
    obtain ⟨binding', rfl, hmatch⟩ := hbinding hlast
    exact (hparams hbefore).add hmatch
  · have hall := hreported.trans hreported'
    cases hsimple : params.simple with
    | false =>
      rw [hsimple] at hall
      simpa using hall
    | true =>
      have hadmits : params'.Admits binding = params.Admits binding := by
        unfold Params.Admits
        rw [(hparams hsimple).noOptional]
      rw [hsimple, hadmits] at hall
      simpa [Bool.and_assoc] using hall

end Rules

end Conversion

section Parameter

namespace Rules

open Parse

variable {r q r' q' : Rules} {s t u : ParserState}

theorem optInit_inv {allowIn : Bool} {init : Option Expr} (h : r.optInit allowIn s = .ok init u) :
    (init = none ∧ s.token.kind ≠ .assign ∧ u = s) ∨
      ∃ value s', init = some value ∧ s.token.kind = .assign ∧ Parse.next s = .ok () s' ∧
        r.assignmentExpr allowIn s' = .ok value u := by
  obtain ⟨found, s', hconsume, hrest⟩ := bind_ok h
  rcases consume_inv hconsume with ⟨rfl, hkind, hnext⟩ | ⟨rfl, hkind, rfl⟩
  · obtain ⟨value, _, hvalue, hpure⟩ := bind_ok hrest
    cases hpure
    exact Or.inr ⟨value, s', rfl, hkind, hnext, hvalue⟩
  · cases hrest
    exact Or.inl ⟨rfl, hkind, rfl⟩

theorem variableBinding_inv {allowIn : Bool} {binding : VariableBinding}
    (h : r.variableBinding allowIn s = .ok binding u) :
    ∃ e s', beginsPattern s.token.kind = true ∧ r.optPrimary true .suffix s = .ok (some e) s' ∧
      Pattern.ofExpr e = .ok binding.pattern ∧ r.optInit allowIn s' = .ok binding.init u := by
  unfold variableBinding at h
  rw [mark_bind] at h
  obtain ⟨pattern, s', hpattern, hrest⟩ := bind_ok h
  obtain ⟨init, _, hinit, hfinish⟩ := bind_ok hrest
  cases hfinish
  unfold Rules.pattern at hpattern
  rw [kind_bind] at hpattern
  cases hbegins : beginsPattern s.token.kind with
  | false =>
    rw [hbegins] at hpattern
    obtain ⟨_, _, hunexpected, -⟩ := bind_ok hpattern
    cases hunexpected
  | true =>
    rw [hbegins] at hpattern
    obtain ⟨e, v, hprimary, hspells⟩ := bind_ok hpattern
    obtain ⟨rfl, hspelled⟩ := asPattern_ok hspells
    obtain ⟨found, _, hfound, hsome⟩ := bind_ok hprimary
    cases found with
    | none => cases hsome
    | some e =>
      cases hsome
      exact ⟨e, _, rfl, hfound, hspelled, hinit⟩

/-- Behind a name or an initializer, the value that is assigned to it. -/
theorem continuation?_assign {allowIn : Bool} (hkind : s.token.kind = .assign) :
    continuation? allowIn .assignment s = some .assign := by
  unfold continuation? OperatorRule.between? OperatorRule.behind?
  simp [hkind, Token.isKeyword, Token.isContextKeyword]
  decide

/-- An assignment at whose end nothing more continues it. -/
theorem continuations_assign {e : Expr} {target : AssignmentTarget} {value : Expr} {t' : ParserState}
    (hkind : s.token.kind = .assign) (hnext : Parse.next s = .ok () t)
    (htarget : ∀ t, assignmentTarget e t = .ok target t)
    (hvalue : q.assignmentExpr true t = .ok value t')
    (hover : continuation? true .assignment t' = none) (fuel : Nat) :
    ∃ span, q.continuations true .assignment (fuel + 2) e s =
      .ok (.assignment span target none value) t' := by
  refine ⟨(Mark.ofSpan e.span).«to» t'.previous.span, ?_⟩
  rw [RulesShadow.continuations_some (continuation?_assign hkind), bind_of_ok hnext]
  unfold continueWith
  simp only [bind_assoc, bind_of_ok (htarget _), bind_of_ok hvalue, finish_bind, pure_bind]
  exact RulesShadow.continuations_none hover

/-- What is assigned to is a pattern if it is no name. -/
theorem assignmentTarget_spelled {e : Expr} {pattern : Pattern} (h : Pattern.ofExpr e = .ok pattern)
    (s : ParserState) : assignmentTarget e s =
      .ok (if pattern.isName then .expression e else .pattern pattern) s := by
  rw [assignmentTarget_eq, Pattern.isName_of_spelled h, asPattern_pure h]
  cases e.isInitializer <;> rfl

variable {P : Pairing} (hprimaries : r.optPrimary = q.optPrimaryRule)
  (hr : r.optExpr = q.optExprRule) (hr' : r'.optExpr = q'.optExprRule)
  (h : RulesShadow P q q') (h' : RulesShadow P r q') (hcomma : P.Tells .tight fun t => t.kind == .comma)
include hprimaries hr hr' h h' hcomma

/-- A parameter is also an expression. -/
theorem variableBinding_binds {binding : VariableBinding} (hst : P.near s t)
    (hread : r.variableBinding true s = .ok binding u)
    (hover : u.token.kind = .comma ∨ u.token.kind = .endOfProgram) (hgone : ¬ P.gone u) :
    ∃ e v, r'.assignmentExpr true t = .ok e v ∧ P.near u v ∧ e.Binds binding := by
  obtain ⟨base, s₁, hbegins, hprimary, hspells, hinit⟩ := variableBinding_inv hread
  have hparen : s.token.kind ≠ .leftParen := by
    intro hkind
    rw [hkind] at hbegins
    cases hbegins
  -- The operand is the same at the level of assignments.
  have hoperand : q.operand? { level := .assignment } s = .ok (some base) s₁ := by
    rw [hprimaries, optPrimaryRule_level hparen _ .assignment] at hprimary
    unfold operand?
    rw [bind_of_ok hprimary]
    rfl
  have hinits : Shadows P .tight Matches (r.optInit true) (q'.optInit true) := h'.optInit_shadows true
  have hgone₁ : ¬ P.gone s₁ := P.kept hinits hinit hgone
  obtain ⟨found, t₁, hoperand', hst₁, hfound⟩ := P.read (h.operand?_shadows _) hst hoperand hgone₁
  obtain ⟨base', rfl, hbase⟩ : ∃ base', found = some base' ∧ Matches base base' := by
    cases found with
    | none => simp at hfound
    | some base' => exact ⟨base', rfl, by simpa using hfound⟩
  obtain ⟨pattern', hspells', hpattern⟩ : ∃ pattern', Pattern.ofExpr base' = .ok pattern' ∧
      Matches binding.pattern pattern' := by
    have hboth := Matches.ofExpr hbase
    rw [hspells] at hboth
    cases hfound' : Pattern.ofExpr base' with
    | ok pattern' =>
      rw [hfound'] at hboth
      exact ⟨pattern', rfl, by simpa using hboth⟩
    | error span =>
      rw [hfound'] at hboth
      cases hboth
  rcases optInit_inv hinit with ⟨hnone, -, rfl⟩ | ⟨value, s₂, hsome, hkind, hnext, hvalue⟩
  · have hover' : continuation? true .assignment t₁ = none := by
      rw [← continuation?_near h.layered hcomma hst₁]
      refine continuation?_over ?_ fun _ => by decide
      rcases hover with heq | heq <;> rw [heq] <;> rfl
    exact ⟨base', t₁, expr_of_continued (congrFun hr' _) hoperand'
      (RulesShadow.continuations_none hover'), hst₁, .required hnone hspells' hpattern⟩
  · have hproper : s₁.token.kind ≠ .endOfProgram := by simp [hkind]
    have hstep : Shadows P .tight Matches (r.assignmentExpr true) (q'.assignmentExpr true) :=
      h'.assignmentExpr_shadows true
    have hstays : ¬ P.gone s₂ := P.kept hstep hvalue hgone
    obtain ⟨t₂, hnext', hst₂⟩ := P.taken hst₁ hproper hnext hstays
    obtain ⟨value', v, hvalue', huv, hmatch⟩ :=
      P.read hstep hst₂ hvalue hgone
    have hover' : continuation? true .assignment v = none := by
      rw [← continuation?_near h.layered hcomma huv, assignmentExpr_over hr hvalue]
    obtain ⟨span, hcontinued⟩ := continuations_assign (q := q')
      ((P.same_kind hst₁ hproper).symm.trans hkind) hnext' (assignmentTarget_spelled hspells') hvalue'
      hover' q'.depth
    refine ⟨_, v, expr_of_continued (congrFun hr' _) hoperand' hcontinued, huv, ?_⟩
    cases hname : pattern'.isName with
    | true => exact .optional hsome ((Matches.isName hpattern).trans hname) hspells' hpattern hmatch
    | false => exact .apart hsome ((Matches.isName hpattern).trans hname)

end Rules

end Parameter

section Parameters

namespace Rules

open Parse

variable {r r' q q' : Rules} {s t u : ParserState}

/-- What may stand behind a parameter. -/
def moreParams (r : Rules) (fuel : Nat) (params : Params) : Parse Params := do
  if ← consume .comma then r.functionParams fuel params else return params

/-- How parameters begin: not at all, with the rest parameter or with another one, which may stand out
of order. -/
theorem functionParams_inv {fuel : Nat} {params result : Params}
    (h : r.functionParams (fuel + 1) params s = .ok result u) :
    (s.token.kind = .rightParen ∧ result = params ∧ u = s) ∨
      (∃ rest s', s.token.kind = .ellipsis ∧ Parse.next s = .ok () s' ∧
        r.restParam s' = .ok rest u ∧ result = { params with rest := some rest }) ∨
      ∃ binding s' s'', r.variableBinding true s = .ok binding s' ∧
        s'.Reported (params.Admits binding) s'' ∧
        r.moreParams fuel (params.add binding) s'' = .ok result u := by
  unfold functionParams at h
  rw [at?_bind] at h
  cases hclosed : s.token.kind == .rightParen with
  | true =>
    rw [hclosed] at h
    cases h
    exact Or.inl ⟨eq_of_beq hclosed, rfl, rfl⟩
  | false =>
    rw [hclosed] at h
    obtain ⟨atRest, s', hellipsis, hbehind⟩ := bind_ok h
    rcases consume_inv hellipsis with ⟨rfl, hkind, hnext⟩ | ⟨rfl, -, rfl⟩
    · obtain ⟨rest, _, hrest, hpure⟩ := bind_ok hbehind
      cases hpure
      exact Or.inr (Or.inl ⟨rest, s', hkind, hnext, hrest, rfl⟩)
    rw [if_neg Bool.false_ne_true] at hbehind
    obtain ⟨binding, s', hbinding, hmore⟩ := bind_ok hbehind
    refine Or.inr (Or.inr ⟨binding, s', ?_⟩)
    unfold Params.Admits
    cases hordered : binding.init.isNone && !params.optional.isEmpty with
    | false =>
      rw [hordered] at hmore
      exact ⟨s', hbinding, .refl s', hmore⟩
    | true =>
      rw [hordered] at hmore
      exact ⟨_, hbinding, .collect s' rfl, hmore⟩

theorem moreParams_inv {fuel : Nat} {params result : Params}
    (h : r.moreParams fuel params s = .ok result u) :
    (s.token.kind = .comma ∧ ∃ s', Parse.next s = .ok () s' ∧
        r.functionParams fuel params s' = .ok result u) ∨
      (s.token.kind ≠ .comma ∧ result = params ∧ u = s) := by
  obtain ⟨more, s', hcomma, hrest⟩ := bind_ok h
  rcases consume_inv hcomma with ⟨rfl, hkind, hnext⟩ | ⟨rfl, hkind, rfl⟩
  · exact Or.inl ⟨hkind, s', hnext, hrest⟩
  · cases hrest
    exact Or.inr ⟨hkind, rfl, rfl⟩

/-- What the arrow form has behind the last expression that stands for a parameter: nothing, or the rest
parameter behind an ellipsis that has been read. -/
inductive Params.Reaches (r : Rules) (params : Params) (s : ParserState) :
    Bool → Params → ParserState → Prop
  | done : Reaches r params s false params s
  | rest {rest : VariableBinding} {u : ParserState} (read : r.restParam s = .ok rest u) :
      Reaches r params s true { params with rest := some rest } u

variable {x : Excerpt} (hprimaries : r.optPrimary = q.optPrimaryRule)
  (hr : r.optExpr = q.optExprRule) (hr' : r'.optExpr = q'.optExprRule)
  (h : ∀ own other, RulesShadow (x.pairing own other) q q')
  (h' : ∀ own other, RulesShadow (x.pairing own other) r q')
include hprimaries hr hr' h h'

/-- The parameters are read as expressions up to the end, or up to the rest parameter. -/
theorem parensItems_converts (hafter : x.after.head? ≠ some ',') : ∀ {fuel fuel' : Nat}, fuel ≤ fuel' → ∀ {params result : Params}
    {items : List Expr} {ordered : Bool} {s t : ParserState}, x.Near true ordered s t →
    Params.Converts items params ordered → r.functionParams fuel params s = .ok result u →
    u.token.kind = .endOfProgram → ¬ x.Gone u →
    ∃ items' atRest params' ordered' s' t', r'.parensItems fuel' items t = .ok (items', atRest) t' ∧
      Params.Converts items' params' ordered' ∧ x.Near true ordered' s' t' ∧
      Params.Reaches r params' s' atRest result u
  | 0, _, _, _, _, _, _, _, _, _, _, hread, _, _ => by cases hread
  | fuel + 1, fuel' + 1, hle, params, result, items, ordered, s, t, hst, hconverts, hread, hend, hgone => by
    have hcomma : (x.pairing true ordered).Tells .tight fun t => t.kind == .comma :=
      Excerpt.tells_comma hafter
    obtain ⟨hclosed, -, rfl⟩ | ⟨rest, s₁, hkind, hnext, hrest, rfl⟩ |
      ⟨binding, s₁, s₂, hbinding, hreported, hmore⟩ := functionParams_inv hread
    · rw [hclosed] at hend
      cases hend
    · have hproper : s.token.kind ≠ .endOfProgram := by simp [hkind]
      have hstays : ¬ x.Gone s₁ := (x.pairing true ordered).kept
        (show Shadows _ .tight Matches _ _ from (h' true ordered).restParam_shadows) hrest hgone
      obtain ⟨t₁, hnext', hst₁⟩ := (x.pairing true ordered).taken hst hproper hnext hstays
      refine ⟨items, true, params, ordered, s₁, t₁, ?_, hconverts, hst₁, .rest hrest⟩
      have hellipsis : consume .ellipsis t = .ok true t₁ :=
        consume_yes (((x.pairing true ordered).same_kind hst hproper).symm.trans hkind) hnext'
      unfold parensItems
      rw [bind_of_ok hellipsis]
      rfl
    -- A parameter with a name, a brace or a bracket in front.
    have hover : s₁.token.kind = .comma ∨ s₁.token.kind = .endOfProgram := by
      have htoken : s₂.token = s₁.token := by
        obtain ⟨script, rfl, -⟩ := hreported
        rfl
      rw [← htoken]
      rcases moreParams_inv hmore with ⟨hkind, -⟩ | ⟨-, -, rfl⟩
      · exact Or.inl hkind
      · exact Or.inr hend
    have hstays : ¬ x.Gone s₁ := by
      intro hs₁
      have hs₂ := (x.pairing true ordered).gone_rests hs₁ (hreported.ended hs₁.ended)
      rcases moreParams_inv hmore with ⟨hkind, -⟩ | ⟨-, -, rfl⟩
      · have hover := hs₂.ended.kind
        simp [hkind] at hover
      · exact hgone hs₂
    obtain ⟨e, v, he, hnear, hbinds⟩ := variableBinding_binds hprimaries hr hr' (h true ordered)
      (h' true ordered) hcomma hst hbinding hover hstays
    have hellipsis : consume .ellipsis t = .ok false t := by
      obtain ⟨-, -, hbegins, -⟩ := variableBinding_inv hbinding
      have hproper : s.token.kind ≠ .endOfProgram := by
        intro hkind
        rw [hkind] at hbegins
        cases hbegins
      refine consume_no fun hkind => ?_
      rw [(x.pairing true ordered).same_kind hst hproper, hkind] at hbegins
      cases hbegins
    have hnear₂ := Fragment.Near.reported_left hnear hreported
    have hconverts₂ := hconverts.snoc hbinds
    rcases moreParams_inv hmore with ⟨hkind, s₃, hnext, hparams⟩ | ⟨hkind, rfl, rfl⟩
    · have hproper : s₂.token.kind ≠ .endOfProgram := by simp [hkind]
      have hstays₃ : ¬ x.Gone s₃ := (x.pairing true ordered).kept
        ((h' true ordered).functionParams_shadows hcomma (Nat.le_refl fuel) (Matches.refl _)) hparams hgone
      obtain ⟨t₃, hnext', hnear₃⟩ := (x.pairing true _).taken hnear₂ hproper hnext hstays₃
      obtain ⟨items', atRest, params', ordered', s', t', hitems, hrest⟩ :=
        parensItems_converts hafter (Nat.le_of_succ_le_succ hle) hnear₃ hconverts₂ hparams hend hgone
      refine ⟨items', atRest, params', ordered', s', t', ?_, hrest⟩
      have hkind' : v.token.kind = .comma :=
        ((x.pairing true _).same_kind hnear₂ hproper).symm.trans hkind
      unfold parensItems
      rw [bind_of_ok hellipsis, if_neg Bool.false_ne_true, bind_of_ok he,
        bind_of_ok (consume_yes hkind' hnext'), if_pos rfl, hitems]
    · have hkind' : v.token.kind ≠ .comma := by
        rcases (x.pairing true _).same_or_ended hnear₂ with heq | ⟨-, mark, rest, hcons, hmark⟩
        · exact heq ▸ hkind
        · rw [← hmark]
          refine Fragment.stopLexeme_ne_comma ?_
          rintro rfl
          exact hafter (by rw [hcons]; rfl)
      refine ⟨items ++ [e], false, _, _, _, v, ?_, hconverts₂, hnear₂, .done⟩
      unfold parensItems
      rw [bind_of_ok hellipsis, if_neg Bool.false_ne_true, bind_of_ok he, bind_of_ok (consume_no hkind')]
      rfl

end Rules

end Parameters

section Bodies

open Parse

/-- A function that does nothing with its parameters. -/
def Rules.Params.idle (params : Params) : Expr :=
  .function default none
    { span := default
      usesAwait := false
      usesYield := false
      params := params.required
      optional := params.optional
      rest := params.rest
      result := none
      throws := none
      body := some (.block { span := default, statements := [] }) }

theorem Matches.idle {params params' : Rules.Params} (h : Matches params params') :
    Matches params.idle params'.idle := by
  obtain ⟨required, optional, rest⟩ := params
  obtain ⟨required', optional', rest'⟩ := params'
  simp_all [Rules.Params.idle]

namespace Rules

variable {r q : Rules} {s t u : ParserState} {whole read : List Char} {params : Params}

theorem rightBrace_spells (rest : List Char) : Scan.Spells [' ', '}'] rest { kind := .rightBrace } :=
  ⟨AllNarrow.plain (by decide), fun _ _ _ _ => ⟨_, _, rfl, rfl, rfl⟩⟩

/-- A body without statements, read inside of its function. -/
theorem inFunction_empty {α : Type} {body : Parse α} (value : Block → α)
    (hbody : ∀ s : ParserState, s.token.kind = .leftBrace → body s =
      (q.blockRule (Context.functionBody false) >>= fun block => pure (value block)) s)
    (h : s.Stands whole read { kind := .leftBrace }) (hwhole : whole = read ++ [' ', '}']) :
    ∃ block t, inFunction body s = .ok (value block, {}) t ∧
      Matches { span := default, statements := [] } block ∧ t.token.kind = .endOfProgram ∧
      t.script.valid = s.script.valid := by
  obtain ⟨block, t, hread, hmatch, hend, hkeeps⟩ := blockRule_empty
    (h.noted ({} :: s.functions) s.superFound) (rightBrace_spells []) hwhole q
    (Context.functionBody false)
  have hinside : body { s with functions := {} :: s.functions } = .ok (value block) t :=
    (hbody { s with functions := {} :: s.functions } h.kind).trans (bind_of_ok hread _)
  exact ⟨block, _, inFunction_of hinside hkeeps.functions, hmatch, hend, hkeeps.valid⟩

theorem arrowFunction_idle (hblock : r.block = q.blockRule) (h : s.Stands whole read { kind := .leftBrace })
    (hwhole : whole = read ++ [' ', '}']) (m : Mark) (params : Params) :
    ∃ e t, r.arrowFunction m params none s = .ok e t ∧ Matches params.idle e ∧
      t.token.kind = .endOfProgram ∧ t.script.valid = s.script.valid := by
  have hbody : ∀ s : ParserState, s.token.kind = .leftBrace → r.arrowBody s =
      (q.blockRule (Context.functionBody false) >>= fun block => pure (.block block)) s := by
    intro s hkind
    unfold arrowBody
    rw [at?_bind, hkind, hblock]
    rfl
  obtain ⟨block, t, hread, hmatch, hend, hvalid⟩ := inFunction_empty _ hbody h hwhole
  unfold arrowFunction
  rw [bind_of_ok hread]
  exact ⟨_, t, rfl, by simpa [Params.idle] using hmatch, hend, hvalid⟩

/-- The parts of a function behind its keyword. -/
theorem functionParts_idle (hblock : r.block = q.blockRule) (hopen : s.token.kind = .leftParen)
    (hnext : Parse.next s = .ok () t) (hparams : r.functionParams r.rounds {} t = .ok params u)
    (h : u.Stands whole read { kind := .rightParen }) (hwhole : whole = read ++ [' ', '{', ' ', '}']) :
    ∃ parts v, r.functionParts none .expression s = .ok parts v ∧
      Matches params.idle (.function default none parts.common) ∧ parts.common.body.isSome = true ∧
      v.token.kind = .endOfProgram ∧ v.script.valid = u.script.valid := by
  obtain ⟨w, hnext', hstands, hkeeps, -⟩ := h.next (leftBrace_spells [' ', '}'])
    (by rw [hwhole, List.append_assoc]; rfl)
  have hwhole' : whole = read ++ [' ', '{'] ++ [' ', '}'] := by rw [hwhole, List.append_assoc]; rfl
  have hcolon : r.optAnnotation w = .ok none w := by
    unfold optAnnotation
    rw [bind_of_ok (consume_no (by rw [hstands.kind]; decide))]
    rfl
  have hword : ∀ word, consumeKeyword word w = .ok false w := fun word =>
    consumeKeyword_no (by simp [Token.isKeyword, hstands.kind])
  have hclauses : r.functionClauses r.rounds { generics := none } w = .ok { generics := none } w := by
    have hbounds : r.boundsClause? none w = .ok none w := by
      unfold boundsClause?
      rw [bind_of_ok (hword _)]
      rfl
    unfold rounds functionClauses
    rw [bind_of_ok (hword _), if_neg Bool.false_ne_true, bind_of_ok hbounds]
    rfl
  have hbody : ∀ s : ParserState, s.token.kind = .leftBrace → r.functionBody .expression s =
      (q.blockRule (Context.functionBody false) >>= fun block => pure (some (.block block), true)) s := by
    intro s hkind
    unfold functionBody
    rw [at?_bind, hkind, hblock]
    rfl
  obtain ⟨block, v, hread, hmatch, hend, hvalid⟩ := inFunction_empty _ hbody hstands hwhole'
  unfold functionParts
  rw [mark_bind, bind_of_ok (expect_yes hopen hnext), bind_of_ok hparams,
    bind_of_ok (expect_yes h.kind hnext'), bind_of_ok hcolon, bind_of_ok hclauses, bind_of_ok hread]
  exact ⟨_, v, rfl, by simpa [Params.idle] using hmatch, rfl, hend, hvalid.trans hkeeps.valid⟩

/-- A function from its keyword on. -/
theorem functionExpr_idle {s' : ParserState} (hblock : r.block = q.blockRule)
    (hword : s'.token.isKeyword "function" = true) (hnext₀ : Parse.next s' = .ok () s)
    (hopen : s.token.kind = .leftParen) (hnext : Parse.next s = .ok () t)
    (hparams : r.functionParams r.rounds {} t = .ok params u)
    (h : u.Stands whole read { kind := .rightParen }) (hwhole : whole = read ++ [' ', '{', ' ', '}']) :
    ∃ e v, r.functionExpr s' = .ok e v ∧ Matches params.idle e ∧ v.token.kind = .endOfProgram ∧
      v.script.valid = u.script.valid := by
  obtain ⟨parts, v, hparts, hmatch, hbody, hend, hvalid⟩ :=
    functionParts_idle hblock hopen hnext hparams h hwhole
  have hkeyword : expectKeyword "function" s' = .ok () s := expectIf_yes hword hnext₀
  have hunnamed : consumeIdentifier s = .ok false s := consume_no (by rw [hopen]; decide)
  have hpresent : parts.common.body.isNone = false := by
    rw [← Option.not_isSome, hbody]
    rfl
  unfold functionExpr
  rw [mark_bind, bind_of_ok hkeyword, bind_of_ok hunnamed]
  refine ⟨.function ((Mark.ofSpan s'.token.span).«to» v.previous.span) none parts.common, v, ?_,
    by simpa [Params.idle] using hmatch, hend, hvalid⟩
  show (r.functionParts none .expression >>= _) s = _
  rw [bind_of_ok hparts, finish_bind, hpresent]
  rfl

/-- The keyword of functions begins no other operand. -/
theorem operand?_function {e : Expr} (hword : s.token.toLexeme = { kind := .keyword, text := "function" })
    (hread : r.functionExpr s = .ok e t) : r.operand? {} s = .ok (some e) t := by
  have hkind : s.token.kind = .keyword := congrArg Lexeme.kind hword
  have htext : s.token.text = "function" := congrArg Lexeme.text hword
  have hquiet : s.token.toLexeme.Quiet := by
    rw [hword]
    refine ⟨?_, ?_, ?_⟩ <;> simp
  have hfront : OperatorRule.front? s.token = none := by
    unfold OperatorRule.front?
    simp [hkind, htext]
  have hfunction : s.token.isKeyword "function" = true := by simp [Token.isKeyword, hkind, htext]
  unfold operand?
  rw [bind_of_ok (optPrimaryRule_quiet hquiet (by simp [hkind]) _ _)]
  simp only [token_bind, hfront, Option.filter_none, hfunction, Bool.and_true]
  show (r.functionExpr >>= fun e => pure (some e)) s = _
  rw [bind_of_ok hread]
  rfl

/-- Where the text ends behind an operand, that is the expression. -/
theorem exprRule_of_operand {e : Expr} {mode : ExprMode} (hread : r.operand? mode s = .ok (some e) t)
    (hend : t.token.kind = .endOfProgram) : r.exprRule mode s = .ok e t := by
  have hover : continuation? mode.allowIn mode.level t = none :=
    continuation?_over (by rw [hend]; rfl) fun hkind => by
      rw [hend] at hkind
      cases hkind
  have hcontinued : r.continued e mode.allowIn mode.level t = .ok e t :=
    RulesShadow.continuations_none hover
  unfold exprRule optExprRule
  show ((r.operand? mode >>= _) >>= _) s = _
  rw [bind_assoc, bind_of_ok hread]
  dsimp only
  rw [bind_assoc, bind_of_ok hcontinued]
  rfl

end Rules

end Bodies

section Wholes

open Parse Rules

/-- The parameters of a function that take up a whole text. -/
def Rules.paramList (r : Rules) : Parse Params := do
  if ← at? .endOfProgram then return {}
  r.functionParams r.rounds {}

theorem ParserState.Stands.reported {s t : ParserState} {whole read : List Char} {l : Lexeme} {clean : Bool}
    (h : s.Stands whole read l) (hs : s.Reported clean t) : t.Stands whole read l := by
  obtain ⟨script, rfl, -, hcontent, hlines, -⟩ := hs
  exact ⟨hcontent.trans h.content, h.passed.withScript hcontent hlines, h.token⟩

theorem ParserState.Reported.valid {s t : ParserState} {clean : Bool} (h : s.Reported clean t) :
    t.script.valid = (s.script.valid && clean) := by
  obtain ⟨script, rfl, -, -, -, -, hvalid⟩ := h
  exact hvalid

/-- What neither parser is told of validity is left out. -/
theorem Fragment.Near.weaken {x : Fragment} {own other : Bool} {s t : ParserState} (h : x.Near own other s t)
    (b : Bool) : x.Near (b && own) (b && other) s t :=
  { h with valid := by rw [Bool.and_assoc, h.valid, Bool.and_assoc] }

namespace Parser

variable {host : Host} {path : String} {params : Params} {sP : ParserState}

theorem paramList_inv {r : Rules} {s u : ParserState} (h : r.paramList s = .ok params u) :
    (s.token.kind = .endOfProgram ∧ params = {} ∧ u = s) ∨
      (s.token.kind ≠ .endOfProgram ∧ r.functionParams r.rounds {} s = .ok params u) := by
  unfold Rules.paramList at h
  rw [at?_bind] at h
  cases hover : s.token.kind == .endOfProgram with
  | true =>
    rw [hover] at h
    cases h
    exact Or.inl ⟨eq_of_beq hover, rfl, rfl⟩
  | false =>
    rw [hover] at h
    exact Or.inr ⟨beq_eq_false_iff_ne.mp hover, h⟩

section Forms

variable {x : Excerpt} {n n' : Nat} {s t u : ParserState} {rest : List Char}

/-- The reading takes up the rest of the text and finds a function that does nothing with the parameters,
if it is told to find those. -/
def FindsIdle (params : Params) (told valid : Bool) (read : Parse Expr) (s : ParserState) : Prop :=
  ∃ e t, read s = .ok e t ∧ (told = true → Matches params.idle e) ∧ t.token.kind = .endOfProgram ∧
    t.script.valid = valid

/-- Parameters that take up a text are read up to the parenthesis behind it. -/
theorem functionParams_of_list {own other : Bool} (hl : x.Layered) (hle : n ≤ n')
    (hafter : x.after = ')' :: rest) (hst : x.Near own other s t)
    (hread : (host.level n).paramList s = .ok params u) (hend : u.token.kind = .endOfProgram)
    (hgone : ¬ x.Gone u) :
    ∃ params' v, (host.level n').functionParams (host.level n').rounds {} t = .ok params' v ∧
      x.Near own other u v ∧ Matches params params' := by
  have hshadow := level_shadow (P := x.pairing own other) host.readFile host.includeDepth hl hle
  obtain ⟨-, rfl, rfl⟩ | ⟨-, hparams⟩ := paramList_inv hread
  · refine ⟨{}, t, ?_, hst, rfl⟩
    have hkind : t.token.kind = .rightParen := (hst.stands_behind hend hafter).kind
    unfold Rules.rounds Rules.functionParams
    rw [at?_bind, hkind]
    rfl
  · exact (x.pairing own other).read
      (hshadow.functionParams_shadows (Excerpt.tells_comma (by simp [hafter])) hshadow.rounds_le rfl) hst hparams hgone

variable (hafter : x.after = ')' :: (arrowText ++ [' ', '{', ' ', '}']))
include hafter

/-- Behind the parameters stand their closing parenthesis, the arrow and the body. -/
theorem arrow_behind {own other : Bool} (hst : x.Near own other sP t)
    (hend : sP.token.kind = .endOfProgram) :
    t.token.kind = .rightParen ∧ ∃ t₁ t₂ read, Parse.next t = .ok () t₁ ∧ t₁.token.kind = .arrow ∧
      Parse.next t₁ = .ok () t₂ ∧ t₂.Stands x.whole read { kind := .leftBrace } ∧
      x.whole = read ++ [' ', '}'] ∧ t₂.script.valid = t.script.valid := by
  have hstands := hst.stands_behind hend hafter
  obtain ⟨t₁, hnext₁, hstands₁, hkeeps₁, -⟩ := hstands.next (arrowText_spells ['{', ' ', '}'])
    (by simp [Passage.whole, hafter])
  obtain ⟨t₂, hnext₂, hstands₂, hkeeps₂, -⟩ := hstands₁.next (leftBrace_spells [' ', '}'])
    (by simp [Passage.whole, hafter])
  exact ⟨hstands.kind, t₁, t₂, _, hnext₁, hstands₁.kind, hnext₂, hstands₂,
    by simp [Passage.whole, hafter], (hkeeps₁.trans hkeeps₂).valid⟩

variable (hl : x.Layered) (hend : sP.token.kind = .endOfProgram) (hgone : ¬ x.Gone sP)
  (hle : n + 1 ≤ n')
include hl hend hgone hle

/-- Behind the ellipsis, the expressions before it are taken for parameters and the rest parameter is
read. -/
theorem restArrowFunction_idle {items : List Expr} {before : Params} {ordered : Bool}
    {rest : VariableBinding} (hconverts : Params.Converts items before ordered)
    (hst : x.Near true ordered s t) (hread : (host.level (n + 1)).restParam s = .ok rest sP) (m : Mark) :
    FindsIdle { before with rest := some rest } before.simple (before.simple && sP.script.valid)
      ((host.level (n' + 1)).restArrowFunction m items) t := by
  obtain ⟨params', u, hconvert, hparams, hreported⟩ := hconverts t
  have hst' : x.Near before.simple (true && (ordered && before.simple)) s t := by
    simpa [Bool.and_comm] using hst.weaken before.simple
  obtain ⟨rest', v, hrest, hnear, hmatch⟩ := (x.pairing before.simple true).read
    (level_shadow host.readFile host.includeDepth hl (Nat.le_succ_of_le hle)).restParam_shadows
    (hst'.reported_right hreported) hread hgone
  obtain ⟨hclosing, t₁, t₂, read, hnext₁, harrow, hnext₂, hstands, hwhole, hvalid⟩ :=
    arrow_behind hafter hnear hend
  obtain ⟨e, w, hfunction, he, hover, hkept⟩ := arrowFunction_idle
    (r := host.level (n' + 1)) (q := host.level n') rfl hstands hwhole m { params' with rest := some rest' }
  refine ⟨e, w, ?_, fun hsimple => ?_, hover, ?_⟩
  · have hcolon : Rules.optAnnotation (host.level (n' + 1)) t₁ = .ok none t₁ := by
      unfold Rules.optAnnotation
      rw [bind_of_ok (consume_no (by rw [harrow]; decide))]
      rfl
    unfold Rules.restArrowFunction
    rw [bind_of_ok hconvert, bind_of_ok hrest, bind_of_ok (expect_yes hclosing hnext₁),
      bind_of_ok hcolon, bind_of_ok (expect_yes harrow hnext₂), hfunction]
  · refine Eq.trans (Matches.idle ?_) he
    have hbefore := hparams hsimple
    simp_all
  · rw [hkept, hvalid]
    exact hnear.valid.symm

omit hl hgone hle in
/-- Behind the last expression, all of them are taken for parameters once the arrow has been read. -/
theorem closed_idle {items : List Expr} {ordered : Bool} (hconverts : Params.Converts items params ordered)
    (hst : x.Near true ordered sP t) (m : Mark) (plain : Parse Expr) :
    FindsIdle params params.simple (params.simple && sP.script.valid)
      (do
        expect .rightParen
        if ← consume .colon then
          let params ← arrowParams items
          let result ← (host.level (n' + 1)).typeExpr
          expect .arrow
          return ← (host.level (n' + 1)).arrowFunction m params (some result)
        if ← consume .arrow then
          let params ← arrowParams items
          return ← (host.level (n' + 1)).arrowFunction m params none
        plain) t := by
  obtain ⟨hclosing, t₁, t₂, read, hnext₁, harrow, hnext₂, hstands, hwhole, hvalid⟩ :=
    arrow_behind hafter hst hend
  obtain ⟨params', u, hconvert, hparams, hreported⟩ := hconverts t₂
  obtain ⟨e, w, hfunction, he, hover, hkept⟩ := arrowFunction_idle
    (r := host.level (n' + 1)) (q := host.level n') rfl (hstands.reported hreported) hwhole m params'
  refine ⟨e, w, ?_, fun hsimple => (Matches.idle (hparams hsimple)).trans he, hover, ?_⟩
  · rw [bind_of_ok (expect_yes hclosing hnext₁), bind_of_ok (consume_no (by rw [harrow]; decide)),
      if_neg Bool.false_ne_true, bind_of_ok (consume_yes harrow hnext₂), if_pos rfl,
      bind_of_ok hconvert, hfunction]
  · have hnear := hst.valid
    simp only [Bool.true_and] at hnear
    rw [hkept, hreported.valid, hvalid, hnear, ← Bool.and_assoc, Bool.and_comm,
      Bool.and_comm t.script.valid]

/-- Parameters in parentheses, in front of an arrow. -/
theorem parensOrArrow_idle (hst : x.Near true true s t)
    (hread : (host.level (n + 1)).paramList s = .ok params sP) (m : Mark) :
    FindsIdle params params.simple (params.simple && sP.script.valid)
      ((host.level (n' + 1)).parensOrArrow m) t := by
  obtain ⟨-, rfl, rfl⟩ | ⟨hproper, hparams⟩ := paramList_inv hread
  · obtain ⟨hclosing, t₁, t₂, read, hnext₁, harrow, hnext₂, hstands, hwhole, hvalid⟩ :=
      arrow_behind hafter hst hend
    obtain ⟨e, w, hfunction, he, hover, hkept⟩ := arrowFunction_idle
      (r := host.level (n' + 1)) (q := host.level n') rfl hstands hwhole m {}
    refine ⟨e, w, ?_, fun _ => he, hover, ?_⟩
    · unfold Rules.parensOrArrow
      rw [bind_of_ok (consume_yes hclosing hnext₁), if_pos rfl, bind_of_ok (expect_yes harrow hnext₂)]
      exact hfunction
    · rw [hkept, hvalid]
      exact hst.valid.symm
  have hkind := ((x.pairing true true).same_kind hst hproper).symm
  have hopened : t.token.kind ≠ .rightParen := by
    rw [hkind]
    intro hclosed
    unfold Rules.rounds Rules.functionParams at hparams
    rw [at?_bind, hclosed] at hparams
    cases hparams
    rw [hclosed] at hend
    cases hend
  have hshadow : ∀ own other, RulesShadow (x.pairing own other) (host.level n) (host.level n') :=
    fun own other => level_shadow host.readFile host.includeDepth hl (by omega)
  have hshadow' : ∀ own other, RulesShadow (x.pairing own other) (host.level (n + 1)) (host.level n') :=
    fun own other => level_shadow host.readFile host.includeDepth hl hle
  have hrounds : (host.level (n + 1)).rounds ≤ (host.level (n' + 1)).rounds :=
    (level_shadow (P := x.pairing true true) host.readFile host.includeDepth hl
      (Nat.le_succ_of_le hle)).rounds_le
  obtain ⟨items, atRest, params', ordered, s', t', hitems, hconverts, hnear, hreaches⟩ :=
    parensItems_converts rfl rfl (host.level_optExpr n') hshadow hshadow' (by simp [hafter]) hrounds hst
      .nil hparams hend hgone
  unfold Rules.parensOrArrow
  rw [FindsIdle, bind_of_ok (consume_no hopened), if_neg Bool.false_ne_true, bind_of_ok hitems]
  cases hreaches with
  | done => exact closed_idle hafter hend hconverts hnear m _
  | rest hrest => exact restArrowFunction_idle hafter hl hend hgone hle hconverts hnear hrest m

end Forms

section Sources

variable {P source : String} {text : List Char} {l : Lexeme} {s t u : ParserState} {n : Nat}

theorem paramList_stays (hread : (host.level n).paramList s = .ok params u) (hs : s.Ended) : u = s := by
  obtain ⟨-, -, rfl⟩ | ⟨hkind, -⟩ := paramList_inv hread
  · rfl
  · exact absurd hs.kind hkind

/-- An operand that takes up the text is the expression, if no problem has been found. -/
theorem parseExpression_of_operand {e : Expr}
    (hstands : (Parser.ofScript host (Script.ofSource path source)).state.Stands source.toList text l)
    (hkeeps : (ParserState.ofScript (Script.ofSource path source)).Keeps
      (Parser.ofScript host (Script.ofSource path source)).state)
    (hread : (host.level (source.toList.length + 3)).operand? {}
      (Parser.ofScript host (Script.ofSource path source)).state = .ok (some e) t)
    (hend : t.token.kind = .endOfProgram) :
    (Parser.ofScript host (Script.ofSource path source)).parseExpression.1 =
      if t.script.valid then some e else none := by
  have hspans : (Parser.ofScript host (Script.ofSource path source)).Spans (fun r => r.exprRule {}) e t :=
    spans_of_read hstands.content hkeeps.valid (exprRule_of_operand hread hend) hend
  exact congrArg Prod.fst (Parser.run_of_spans hspans)

variable (hP : (Parser.ofScript host (Script.ofSource path P)).Spans Rules.paramList params sP)
  (hclosed : sP.Closed P.toList) (hblank : ∀ ch ∈ P.toList.head?, CharClass.isBlank ch = false)
include hP hclosed hblank

theorem parseExpression_arrow : ∃ e, (params.simple = true → Matches params.idle e) ∧
    (Parser.ofScript host (Script.ofSource path ("(" ++ P ++ ") -> { }"))).parseExpression.1 =
      if params.simple && sP.script.valid then some e else none := by
  obtain ⟨first, hscan, hread, hend⟩ := hP.from_first
  let x : Excerpt :=
    { before := ['(']
      piece := P.toList
      after := ')' :: (arrowText ++ [' ', '{', ' ', '}'])
      stopped := Or.inr ⟨')', _, rfl, by decide⟩
      closing := by simp
      minded := True }
  have hl : x.Layered := ⟨trivial, rfl, hblank, by rintro ⟨⟨⟩, -⟩⟩
  generalize hsource : "(" ++ P ++ ") -> { }" = source
  have hx : source.toList = x.whole := by simp [← hsource, x, Passage.whole, arrowText]
  have hmark : source.toList = ['('] ++ (P.toList ++ x.after) := hx
  obtain ⟨hstands, hkeeps, hfirst, hlast⟩ := ParserState.ofScript_stands host path hmark
    (AllNarrow.plain (by decide)) rfl (leftParen_lexeme (P.toList ++ x.after)) rfl
  have hgone : ¬ x.Gone sP := ParserState.Closed.not_gone (x := x.toPassage) hclosed
  have hstays : ¬ x.Gone first := fun hgone' => by
    obtain rfl := paramList_stays hread hgone'.ended
    exact hgone hgone'
  have hstart : (Parser.ofScript host (Script.ofSource path source)).state.Stands x.whole x.before
      { kind := .leftParen } := hx ▸ hstands
  have hvalid : true =
      (true && (Parser.ofScript host (Script.ofSource path source)).state.script.valid) := by
    rw [hkeeps.valid]
    rfl
  obtain ⟨t, hnext, hnear⟩ := Fragment.Near.start hstart hkeeps.path hvalid rfl rfl (by decide)
    (fun _ => ⟨rfl, hfirst, hlast, hkeeps.functions, hkeeps.superFound⟩) rfl rfl hscan hstays
  have hle : P.toList.length + 2 + 1 ≤ source.toList.length + 2 := by
    simp [← hsource]
  obtain ⟨e, u, hfunction, he, hover, hkept⟩ := parensOrArrow_idle rfl hl hend hgone hle hnear hread
    (Mark.ofSpan (Parser.ofScript host (Script.ofSource path source)).state.token.span)
  refine ⟨e, he, ?_⟩
  rw [← hkept]
  refine parseExpression_of_operand hstands hkeeps ?_ hover
  unfold Rules.operand?
  have hprimary : (host.level (source.toList.length + 3)).optPrimaryRule true .list
      (Parser.ofScript host (Script.ofSource path source)).state = .ok (some e) u := by
    rw [optPrimaryRule_opening hstands.kind hnext]
    exact bind_of_ok hfunction _
  rw [bind_of_ok hprimary]
  rfl

omit hP hclosed hblank in
theorem keyword_lexeme (rest : List Char) :
    Scan.lexeme (Cursor.ofContent ("function".toList ++ ([' ', '('] ++ rest))) =
      .ok ({ kind := .keyword, text := "function" }, ⟨' ' :: '(' :: rest, 8, 1, [], []⟩) := rfl

theorem parseExpression_function : ∃ e, Matches params.idle e ∧
    (Parser.ofScript host (Script.ofSource path ("function (" ++ P ++ ") { }"))).parseExpression.1 =
      if sP.script.valid then some e else none := by
  obtain ⟨first, hscan, hread, hend⟩ := hP.from_first
  let x : Excerpt :=
    { before := "function".toList ++ [' ', '(']
      piece := P.toList
      after := ')' :: [' ', '{', ' ', '}']
      stopped := Or.inr ⟨')', _, rfl, by decide⟩
      closing := by simp
      minded := True }
  have hplain : AllNarrow ("function".toList ++ [' ', '(']) := by decide
  have hl : x.Layered := ⟨trivial, rfl, hblank, by rintro ⟨⟨⟩, -⟩⟩
  generalize hsource : "function (" ++ P ++ ") { }" = source
  have hx : source.toList = x.whole := by simp [← hsource, x, Passage.whole]
  have hgone : ¬ x.Gone sP := ParserState.Closed.not_gone (x := x.toPassage) hclosed
  have hstays : ¬ x.Gone first := fun hgone' => by
    obtain rfl := paramList_stays hread hgone'.ended
    exact hgone hgone'
  obtain ⟨hstands, hkeeps, t₁, t, hnext₁, hopen, hnext, hnear⟩ := Fragment.Near.ofScript_worded host
    hx rfl hplain rfl (keyword_lexeme (P.toList ++ x.after)) rfl rfl rfl hscan hstays
  have hle : P.toList.length + 3 ≤ source.toList.length + 3 := by
    simp [← hsource]
  obtain ⟨params', u, hparams, hnear', hmatch⟩ := functionParams_of_list hl hle rfl hnear hread hend hgone
  have hword : (Parser.ofScript host (Script.ofSource path source)).state.token.isKeyword "function" =
      true := by
    have hkind : (Parser.ofScript host (Script.ofSource path source)).state.token.kind = .keyword :=
      congrArg Lexeme.kind hstands.token
    have htext : (Parser.ofScript host (Script.ofSource path source)).state.token.text = "function" :=
      congrArg Lexeme.text hstands.token
    simp [Token.isKeyword, hkind, htext]
  obtain ⟨e, v, hfunction, he, hover, hkept'⟩ := functionExpr_idle
    (r := host.level (source.toList.length + 3)) (q := host.level (source.toList.length + 2)) rfl hword
    hnext₁ hopen hnext hparams (hnear'.stands_behind hend rfl) (by simp [x, Passage.whole])
  refine ⟨e, (Matches.idle hmatch).trans he, ?_⟩
  have hnews : sP.script.valid = u.script.valid := hnear'.valid
  rw [hnews, ← hkept']
  exact parseExpression_of_operand hstands hkeeps (operand?_function hstands.token hfunction) hover

end Sources

/-- A function with the keyword in front of its parameters is accepted just when no problem has been found
in them; with the arrow behind them it is accepted, and is the same, if moreover none of them is taken apart
and has an initial value. The parameters have been read alone up to the end of their text. -/
theorem parseExpression_function_arrow {P : String}
    (hparams : (Parser.ofScript host (Script.ofSource path P)).Spans Rules.paramList params sP)
    (hclosed : sP.Closed P.toList) (hblank : ∀ ch ∈ P.toList.head?, CharClass.isBlank ch = false) :
    ∃ e e',
      (Parser.ofScript host (Script.ofSource path ("function (" ++ P ++ ") { }"))).parseExpression.1 =
        (if sP.script.valid then some e else none) ∧
      (Parser.ofScript host (Script.ofSource path ("(" ++ P ++ ") -> { }"))).parseExpression.1 =
        (if params.simple && sP.script.valid then some e' else none) ∧
      Matches params.idle e ∧ (params.simple = true → Matches params.idle e') := by
  obtain ⟨e, hmatch, hrun⟩ := parseExpression_function hparams hclosed hblank
  obtain ⟨e', hmatch', hrun'⟩ := parseExpression_arrow hparams hclosed hblank
  exact ⟨e, e', hrun, hrun', hmatch, hmatch'⟩

/-- Parameters that are names, an object and an array, one of them with an initial value. -/
theorem parseExpression_function_arrow_mixed : ∃ e e',
    (Parser.ofScript (Host.ofFiles []) (Script.ofSource "/a.es"
      ("function (" ++ "a, {b}, [c]: T, d: U = a + 1, ...e" ++ ") { }"))).parseExpression.1 = some e ∧
    (Parser.ofScript (Host.ofFiles []) (Script.ofSource "/a.es"
      ("(" ++ "a, {b}, [c]: T, d: U = a + 1, ...e" ++ ") -> { }"))).parseExpression.1 = some e' ∧
    Matches e e' := by
  let p := Parser.ofScript (Host.ofFiles [])
    (Script.ofSource "/a.es" "a, {b}, [c]: T, d: U = a + 1, ...e")
  have hsimple : (p.run Rules.paramList).1.map Params.simple = some true := by decide +kernel
  have hcomments : (p.run Rules.paramList).2.script.comments = #[] := by decide +kernel
  obtain ⟨params, hparams, hsimple⟩ := Option.map_eq_some_iff.mp hsimple
  obtain ⟨sP, hP, hvalid⟩ := spans_of_run hparams
  have hclosed : sP.Closed "a, {b}, [c]: T, d: U = a + 1, ...e".toList := by
    rw [run_of_spans hP] at hcomments
    exact ParserState.closed_of_comments hcomments _
  obtain ⟨e, e', hrun, hrun', hmatch, hmatch'⟩ :=
    parseExpression_function_arrow hP hclosed (by rintro _ ⟨⟩; rfl)
  have hvalid : sP.script.valid = true := hvalid
  rw [if_pos hvalid] at hrun
  rw [if_pos (by rw [hsimple, hvalid]; rfl)] at hrun'
  exact ⟨e, e', hrun, hrun', hmatch.symm.trans (hmatch' hsimple)⟩

/-- A parameter that is taken apart and has an initial value stands behind the keyword, but not in front
of the arrow. -/
theorem parseExpression_arrow_apart :
    (Parser.ofScript (Host.ofFiles []) (Script.ofSource "/a.es"
      ("function (" ++ "{a} = x" ++ ") { }"))).parseExpression.1.isSome = true ∧
    (Parser.ofScript (Host.ofFiles []) (Script.ofSource "/a.es"
      ("(" ++ "{a} = x" ++ ") -> { }"))).parseExpression.1.isSome = false := by
  decide +kernel

end Parser

end Wholes

end ActionSyntax
