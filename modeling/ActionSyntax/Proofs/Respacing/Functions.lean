import ActionSyntax.Proofs.Respacing.Types
import ActionSyntax.Proofs.Shadows.Functions

/-!
How type parameters, patterns and functions are read where a gap is exchanged.
-/

namespace ActionSyntax

set_option autoImplicit false

open Parse Rules

namespace RulesRespace

variable {F : Fork} {r : Rules}

theorem typeParameter_respaces : Respaces F Matches typeParameter typeParameter :=
  .matched identifier_respaces fun id id' hid => .pure (by simp_all)

theorem asPattern_respaces {e e' : Expr} (he : Matches e e') :
    Respaces F Matches (asPattern e) (asPattern e') := by
  have hpattern := Matches.ofExpr he
  unfold asPattern
  cases hx : Pattern.ofExpr e <;> cases hx' : Pattern.ofExpr e' <;> rw [hx, hx'] at hpattern
  · exact stopAt_respaces _ _ _ _
  · cases hpattern
  · cases hpattern
  · exact .pure (by simpa using hpattern)

theorem endsHere_respaces (defines : Bool) : Respaces F Eq (endsHere defines) (endsHere defines) := by
  cases defines with
  | false => exact .pure rfl
  | true => exact endStatement_respaces

theorem addArrowParam_respaces {params params' : Params} {e e' : Expr}
    (hparams : Matches params params') (he : Matches e e') :
    Respaces F Matches (addArrowParam params e) (addArrowParam params' e') := by
  have refused : ∀ span span', Respaces F Matches
      (do syntaxError .invalidArrowFunctionParam span; pure params)
      (do syntaxError .invalidArrowFunctionParam span'; pure params') := fun _ _ =>
    .seq (syntaxError_respaces _ _ _) fun _ => .pure hparams
  cases hassigns : e.isAssignment with
  | false =>
    rw [addArrowParam_other hassigns, addArrowParam_other (he.isAssignment ▸ hassigns)]
    refine .matched (asPattern_respaces he) fun pattern pattern' hpattern => ?_
    refine .optional (by rw [hparams.noOptional]) (syntaxError_respaces _ _ _) (.pure ?_)
    exact hparams.add (by simp_all)
  | true =>
    cases e <;> cases hassigns
    cases e' <;> simp at he
    rename_i span left compound right span' left' compound' right'
    obtain ⟨hleft, rfl, hright⟩ := he
    cases left <;> cases left' <;> simp at hleft
    · cases compound with
      | none =>
        refine .matched (asPattern_respaces (by simp_all)) fun pattern pattern' hpattern => .pure ?_
        exact hparams.add (by simp_all)
      | some op => exact refused _ _
    · exact refused _ _

theorem arrowParams_respaces {expressions expressions' : List Expr}
    (h : Matches expressions expressions') :
    Respaces F Matches (arrowParams expressions) (arrowParams expressions') :=
  .foldlM (fun _ _ hparams _ _ he => addArrowParam_respaces hparams he) _ _ h _ _ rfl

variable (h : RulesRespace F r)
include h

theorem expr_respaces (mode : ExprMode) : Respaces F Matches (r.expr mode) (r.expr mode) := by
  refine .matched (h.optExpr mode) fun found found' hfound => ?_
  cases found <;> cases found' <;> simp at hfound
  · exact unexpected_respaces
  · exact .pure hfound

theorem assignmentExpr_respaces (allowIn : Bool) :
    Respaces F Matches (r.assignmentExpr allowIn) (r.assignmentExpr allowIn) := h.expr_respaces _

omit h in
theorem optGenerics_respaces : Respaces F Matches r.optGenerics r.optGenerics := by
  refine .seq (at?_respaces _) fun present => ?_
  refine .ite (.pure rfl) ?_
  refine mark_respaces fun m m' => ?_
  refine .seq next_respaces fun _ => ?_
  refine .seq (expectOperator_respaces _) fun _ => ?_
  refine .matched (separated_respaces typeParameter_respaces _)
    fun params params' hparams => ?_
  exact .seq expectGreater_respaces fun _ => finished_respaces m m' fun span span' => by simp_all

theorem typeBound_respaces : Respaces F Matches r.typeBound r.typeBound := by
  refine mark_respaces fun m m' => ?_
  refine .matched identifier_respaces fun id id' hid => ?_
  refine .seq (expectKeyword_respaces _) fun _ => ?_
  refine .matched h.typeExpr fun type type' htype => ?_
  exact finished_respaces m m' fun span span' => by simp_all

theorem boundsClause?_respaces {generics generics' : Option Generics}
    (hgenerics : Matches generics generics') :
    Respaces F Matches (r.boundsClause? generics) (r.boundsClause? generics') := by
  refine .seq (consumeKeyword_respaces _) fun bounded => .ite ?_ (.pure rfl)
  refine .matched (separated_respaces h.typeBound_respaces _)
    fun bounds bounds' hbounds => .pure (congrArg some (hgenerics.addBounds hbounds))

theorem primary_respaces (allowTyped : Bool) :
    Respaces F Matches (r.primary allowTyped) (r.primary allowTyped) := by
  refine .matched (h.optPrimary allowTyped _) fun found found' hfound => ?_
  cases found <;> cases found' <;> simp at hfound
  · exact unexpected_respaces
  · exact .pure hfound

theorem pattern_respaces : Respaces F Matches r.pattern r.pattern := by
  refine .seq kind_respaces fun kind => ?_
  refine .optional Iff.rfl unexpected_respaces ?_
  exact .matched (h.primary_respaces true) fun e e' he => asPattern_respaces he

theorem optInit_respaces (allowIn : Bool) :
    Respaces F Matches (r.optInit allowIn) (r.optInit allowIn) := by
  refine .seq (consume_respaces _) fun initialized => ?_
  exact .ite (.matched (h.assignmentExpr_respaces allowIn) fun e e' he => .pure (by simp_all))
    (.pure rfl)

theorem variableBinding_respaces (allowIn : Bool) :
    Respaces F Matches (r.variableBinding allowIn) (r.variableBinding allowIn) := by
  refine mark_respaces fun m m' => ?_
  refine .matched h.pattern_respaces fun pattern pattern' hpattern => ?_
  refine .matched (h.optInit_respaces allowIn) fun init init' hinit => ?_
  exact finished_respaces m m' fun span span' => by simp_all

theorem variableDeclaration?_respaces :
    Respaces F Matches r.variableDeclaration? r.variableDeclaration? := by
  refine .seq (atKeyword?_respaces _) fun readOnly => ?_
  refine .seq (atKeyword?_respaces _) fun changeable => ?_
  refine .ite (.pure rfl) ?_
  refine mark_respaces fun m m' => ?_
  refine .seq next_respaces fun _ => ?_
  refine .matched (separated_respaces (h.variableBinding_respaces false) _)
    fun bindings bindings' hbindings => ?_
  exact finished_respaces m m' fun span span' => by simp_all

theorem restParam_respaces : Respaces F Matches r.restParam r.restParam := by
  refine .matched (h.variableBinding_respaces true) fun binding binding' hbinding => ?_
  refine .optional ?_ (syntaxError_respaces _ _ _) (.pure hbinding)
  have hinit := hbinding.noInit
  simp only [← Option.not_isNone, hinit]

theorem functionParams_respaces : ∀ (fuel : Nat) {params params' : Params}, Matches params params' →
    Respaces F Matches (r.functionParams fuel params) (r.functionParams fuel params')
  | 0, _, _, _ => exhausted_respaces
  | fuel + 1, params, params', hparams => by
    refine .seq (at?_respaces _) fun closed => ?_
    refine .ite (.pure hparams) ?_
    refine .seq (consume_respaces _) fun atRest => ?_
    refine .ite (.matched h.restParam_respaces fun rest rest' hrest => .pure (by simp_all)) ?_
    refine .matched (h.variableBinding_respaces true) fun binding binding' hbinding => ?_
    refine .optional (by rw [hparams.noOptional, hbinding.noInit]) (syntaxError_respaces _ _ _) ?_
    have hmore := hparams.add hbinding
    refine .seq (consume_respaces _) fun more => ?_
    exact .ite (functionParams_respaces fuel hmore) (.pure hmore)

theorem throwsType_respaces : Respaces F Matches r.throwsType r.throwsType := by
  refine .matched (separated_respaces h.typeExpr _)
    fun types types' htypes => ?_
  match types, types', htypes with
  | [], [], _ => exact finished_respaces _ _ fun _ _ => rfl
  | [single], [single'], hsingle => exact .pure (by simpa using hsingle)
  | first :: second :: rest, first' :: second' :: rest', hall =>
    exact finished_respaces _ _ fun _ _ => by simpa using hall
  | [], _ :: _, hno => simp at hno
  | _ :: _, [], hno => simp at hno
  | [_], _ :: _ :: _, hno => simp at hno
  | _ :: _ :: _, [_], hno => simp at hno

theorem functionClauses_respaces : ∀ (fuel : Nat) {clauses clauses' : Clauses},
    Matches clauses clauses' →
      Respaces F Matches (r.functionClauses fuel clauses) (r.functionClauses fuel clauses')
  | 0, _, _, _ => exhausted_respaces
  | fuel + 1, clauses, clauses', hclauses => by
    have hthrows : clauses.throws.isSome = clauses'.throws.isSome := by
      obtain ⟨throws, generics⟩ := clauses
      obtain ⟨throws', generics'⟩ := clauses'
      cases throws <;> cases throws' <;> simp_all
    refine .seq (consumeKeyword_respaces _) fun throws => ?_
    refine .ite ?_ ?_
    · refine previous_respaces fun word word' _ => ?_
      refine .optional (by rw [hthrows]) (syntaxError_respaces _ _ _) ?_
      exact .matched h.throwsType_respaces fun type type' htype =>
        functionClauses_respaces fuel (by simp_all)
    · refine .matched (h.boundsClause?_respaces (by simp_all)) fun found found' hfound => ?_
      cases found <;> cases found' <;> simp at hfound
      · exact .pure hclauses
      · exact functionClauses_respaces fuel (by simp_all)

theorem functionBody_respaces (role : FunctionRole) :
    Respaces F Matches (r.functionBody role) (r.functionBody role) := by
  refine .seq (at?_respaces _) fun isBlock => ?_
  refine .ite (.matched (h.block _) fun block block' hblock => .pure (by simp_all)) ?_
  refine .seq (endsHere_respaces _) fun ended => ?_
  refine .ite (.pure rfl) ?_
  refine .matched (h.assignmentExpr_respaces true) fun body body' hbody => ?_
  exact .seq (endsHere_respaces _) fun ended => .pure (by simp_all)

theorem functionParts_respaces {generics generics' : Option Generics} (role : FunctionRole)
    (hgenerics : Matches generics generics') :
    Respaces F Matches (r.functionParts generics role) (r.functionParts generics' role) := by
  refine mark_respaces fun m m' => ?_
  refine .seq (expect_respaces _) fun _ => ?_
  refine .matched (h.functionParams_respaces _ rfl) fun params params' hparams => ?_
  refine .seq (expect_respaces _) fun _ => ?_
  refine .matched h.optAnnotation_respaces fun result result' hresult => ?_
  refine .matched (h.functionClauses_respaces _ (by simpa using hgenerics))
    fun clauses clauses' hclauses => ?_
  refine .matched (inFunction_respaces (h.functionBody_respaces role))
    fun ⟨⟨body, ended⟩, use⟩ ⟨⟨body', ended'⟩, use'⟩ hbody => ?_
  exact finished_respaces m m' fun span span' => by simp_all

theorem functionExpr_respaces : Respaces F Matches r.functionExpr r.functionExpr := by
  refine mark_respaces fun m m' => ?_
  refine .seq (expectKeyword_respaces _) fun _ => ?_
  refine .seq consumeIdentifier_respaces fun named => ?_
  have rest : ∀ id id' : Option Identifier, Matches id id' → Respaces F Matches
      (do
        let parts ← r.functionParts none .expression
        let span ← finish m
        if parts.common.body.isNone then
          syntaxError .functionMustveBody ((id.map (·.span)).getD span)
        return Expr.function span id parts.common)
      (do
        let parts ← r.functionParts none .expression
        let span ← finish m'
        if parts.common.body.isNone then
          syntaxError .functionMustveBody ((id'.map (·.span)).getD span)
        return Expr.function span id' parts.common) := by
    intro id id' hid
    refine .matched (h.functionParts_respaces _ rfl) fun parts parts' hparts => ?_
    have hcommon : parts.common.bare = parts'.common.bare := by
      obtain ⟨common, generics, ended⟩ := parts
      obtain ⟨common', generics', ended'⟩ := parts'
      simp_all
    have hbody : parts.common.body.isNone = parts'.common.body.isNone := by
      obtain ⟨⟨_, _, _, _, _, _, _, _, body⟩, generics, ended⟩ := parts
      obtain ⟨⟨_, _, _, _, _, _, _, _, body'⟩, generics', ended'⟩ := parts'
      cases body <;> cases body' <;> simp_all
    refine finish_respaces m m' fun span span' => ?_
    exact .optional (by rw [hbody]) (syntaxError_respaces _ _ _) (.pure (by simp_all))
  refine .ite (.matched (.map previousIdentifier_respaces (fun id => ⟨id, rfl⟩) fun id id' hid => ?_)
    rest) (rest none none rfl)
  simp_all

theorem arrowBody_respaces : Respaces F Matches r.arrowBody r.arrowBody := by
  refine .seq (at?_respaces _) fun isBlock => ?_
  exact .ite (.matched (h.block _) fun block block' hblock => .pure (by simp_all))
    (.matched (h.assignmentExpr_respaces true) fun e e' he => .pure (by simp_all))

theorem arrowFunction_respaces (m m' : Mark) {params params' : Params}
    {result result' : Option TypeExpr} (hparams : Matches params params')
    (hresult : Matches result result') :
    Respaces F Matches (r.arrowFunction m params result)
      (r.arrowFunction m' params' result') :=
  .matched (inFunction_respaces h.arrowBody_respaces) fun ⟨body, use⟩ ⟨body', use'⟩ hbody =>
    finished_respaces m m' fun span span' => by simp_all

end RulesRespace

end ActionSyntax

