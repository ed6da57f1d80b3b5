import ActionSyntax.Grammar.Functions
import ActionSyntax.Proofs.Reads.Functions
import ActionSyntax.Proofs.Shadows.Types

/-!
How type parameters, patterns and functions are read in the shadow of each other.
-/

namespace ActionSyntax

set_option autoImplicit false

open Parse Rules

section Bare

@[simp] def Rules.Params.bare (params : Params) : Params :=
  ⟨params.required.map VariableBinding.bare, params.optional.map VariableBinding.bare,
    params.rest.map VariableBinding.bare⟩

@[simp] def Rules.Clauses.bare (clauses : Clauses) : Clauses :=
  ⟨clauses.throws.map TypeExpr.bare, clauses.generics.map Generics.bare⟩

@[simp] def Rules.FunctionParts.bare (parts : FunctionParts) : FunctionParts :=
  ⟨parts.common.bare, parts.generics.map Generics.bare, parts.ended⟩

instance : Bare Params := ⟨Params.bare⟩

instance : Bare Clauses := ⟨Clauses.bare⟩

instance : Bare FunctionParts := ⟨FunctionParts.bare⟩

/-- What a reading of an expression as a pattern gives; only where it fails is a place. -/
instance {α : Type} [Bare α] : Bare (Except Span α) where
  bare
    | .ok a => .ok (bare a)
    | .error _ => .error default

@[simp] theorem bare_params : (bare : Params → Params) = Params.bare := rfl

@[simp] theorem bare_clauses : (bare : Clauses → Clauses) = Clauses.bare := rfl

@[simp] theorem bare_parts : (bare : FunctionParts → FunctionParts) = FunctionParts.bare := rfl

section Patterns

variable {α β : Type} [Bare α] [Bare β]

@[simp] theorem bare_ok (a : α) : bare (.ok a : Except Span α) = .ok (bare a) := rfl

@[simp] theorem bare_error (span : Span) :
    bare (.error span : Except Span α) = .error default := rfl

theorem bare_bind {x : Except Span α} {f : α → Except Span β} {x' : Except Span α}
    {f' : α → Except Span β} (hx : x' = bare x) (hf : ∀ a, f' (bare a) = bare (f a)) :
    (x' >>= f') = bare (x >>= f) := by
  subst hx
  cases x with
  | ok a => exact hf a
  | error span => rfl

/-- An expression is a pattern wherever it stands. -/
theorem ofExpr_bare (e : Expr) : Pattern.ofExpr e.bare = bare (Pattern.ofExpr e) := by
  refine (Pattern.ofExpr.mutual_induct
    (fun e => Pattern.ofExpr e.bare = bare (Pattern.ofExpr e))
    (fun fields => Pattern.ofFields (fields.map ObjectItem.bare) = bare (Pattern.ofFields fields))
    (fun items => Pattern.ofItems (items.map (Option.map Expr.bare)) = bare (Pattern.ofItems items))
    ?identifier ?array ?object ?other ?noFields ?spreadField ?plainField ?valueField
    ?noItems ?hole ?spreadItem ?item).1 e
  case identifier =>
    rintro ⟨span, name, type⟩
    cases type <;> simp [Pattern.ofExpr]
  case array =>
    intro span items type ih
    simp only [Expr.bare, Expr.bareSlots_eq, Pattern.ofExpr]
    exact bare_bind ih fun items => by simp [pure, Except.pure]
  case object =>
    intro span fields type ih
    simp only [Expr.bare, ObjectItem.bareAll_eq, Pattern.ofExpr]
    exact bare_bind ih fun fields => by simp [pure, Except.pure]
  case other =>
    intro e hid harray hobject
    cases e
    case identifier => exact (hid _ rfl).elim
    case array => exact (harray _ _ _ rfl).elim
    case object => exact (hobject _ _ _ rfl).elim
    all_goals rfl
  case noFields => rfl
  case spreadField => intro span e rest; rfl
  case plainField =>
    intro span key rest ih
    simp only [List.map_cons, ObjectItem.bare, Expr.bareOption, Pattern.ofFields]
    exact bare_bind ih fun fields => by simp [pure, Except.pure]
  case valueField =>
    intro span key value rest hvalue hrest
    simp only [List.map_cons, ObjectItem.bare, Expr.bareOption, Pattern.ofFields]
    refine bare_bind hvalue fun pattern => ?_
    exact bare_bind hrest fun fields => by simp [pure, Except.pure]
  case noItems => rfl
  case hole =>
    intro rest ih
    simp only [List.map_cons, Option.map_none, Pattern.ofItems]
    exact bare_bind ih fun items => by simp [pure, Except.pure]
  case spreadItem =>
    intro span e rest hitem hrest
    simp only [List.map_cons, Option.map_some, Expr.bare, Pattern.ofItems]
    refine bare_bind hitem fun pattern => ?_
    exact bare_bind hrest fun items => by simp [pure, Except.pure]
  case item =>
    intro e rest hspread hitem hrest
    have hnot : ∀ {e : Expr}, (∀ span inner, e ≠ .spread span inner) → ∀ rest,
        Pattern.ofItems (some e :: rest) = (do
          let pattern ← Pattern.ofExpr e
          return .pattern pattern :: (← Pattern.ofItems rest)) := by
      intro e he rest
      cases e
      case spread => exact (he _ _ rfl).elim
      all_goals rfl
    have hbare : ∀ span inner, e.bare ≠ .spread span inner := by
      intro span inner h
      cases e
      case spread => exact hspread _ _ rfl
      all_goals cases h
    rw [List.map_cons, Option.map_some, hnot hbare, hnot fun span inner h => hspread _ _ h]
    refine bare_bind hitem fun pattern => ?_
    exact bare_bind hrest fun items => by simp [pure, Except.pure]

theorem Matches.ofExpr {e e' : Expr} (h : Matches e e') :
    Matches (Pattern.ofExpr e) (Pattern.ofExpr e') := by
  have hbare : e.bare = e'.bare := h
  show bare (Pattern.ofExpr e) = bare (Pattern.ofExpr e')
  rw [← ofExpr_bare, ← ofExpr_bare, hbare]

end Patterns

/-- What is written for a parameter with an initial value. -/
def Expr.isAssignment : Expr → Bool
  | .assignment .. => true
  | _ => false

theorem Expr.isAssignment_bare (e : Expr) : e.bare.isAssignment = e.isAssignment := by
  cases e <;> rfl

theorem Matches.isAssignment {e e' : Expr} (h : Matches e e') : e.isAssignment = e'.isAssignment := by
  have hbare : e.bare = e'.bare := h
  rw [← e.isAssignment_bare, hbare, e'.isAssignment_bare]

theorem Rules.addArrowParam_other {e : Expr} (h : e.isAssignment = false) (params : Params) :
    addArrowParam params e = (do
      let pattern ← asPattern e
      if !params.optional.isEmpty then syntaxError .requiredParamMustntFollowOptParam e.span
      return params.add { span := e.span, pattern, init := none }) := by
  cases e
  case assignment => cases h
  all_goals rfl

theorem Matches.add {params params' : Params} {binding binding' : VariableBinding}
    (h : Matches params params') (hbinding : Matches binding binding') :
    Matches (params.add binding) (params'.add binding') := by
  obtain ⟨span, pattern, init⟩ := binding
  obtain ⟨span', pattern', init'⟩ := binding'
  cases init <;> cases init' <;> simp_all [Params.add]

theorem Matches.noOptional {params params' : Params} (h : Matches params params') :
    params.optional.isEmpty = params'.optional.isEmpty := by
  obtain ⟨required, optional, rest⟩ := params
  obtain ⟨required', optional', rest'⟩ := params'
  cases optional <;> cases optional' <;> simp_all

theorem Matches.noInit {binding binding' : VariableBinding} (h : Matches binding binding') :
    binding.init.isNone = binding'.init.isNone := by
  obtain ⟨span, pattern, init⟩ := binding
  obtain ⟨span', pattern', init'⟩ := binding'
  cases init <;> cases init' <;> simp_all

theorem Matches.addBounds {generics generics' : Option Generics} {bounds bounds' : List TypeBound}
    (h : Matches generics generics') (hbounds : Matches bounds bounds') :
    Matches (Rules.addBounds generics bounds) (Rules.addBounds generics' bounds') := by
  cases generics <;> cases generics' <;> simp at h
  · cases bounds <;> cases bounds' <;> simp_all [Rules.addBounds]
  · simp_all [Rules.addBounds]

end Bare

/-- Rules that read in the shadow of others. A list of expressions goes on behind a comma, which may not
stand where the first text ends, unless that may be left open. -/
structure RulesShadow (P : Pairing) (r r' : Rules) : Prop extends TypesShadow P r r' where
  layered : P.layered
  readFile : r.readFile = r'.readFile
  optExpr : ∀ tier (mode : ExprMode),
    mode.level ≠ .list ∨ P.Tells tier (fun t => t.kind == .comma) →
      Shadows P tier Matches (r.optExpr mode) (r'.optExpr mode)
  optPrimary : ∀ tier allowTyped level,
    Shadows P tier Matches (r.optPrimary allowTyped level) (r'.optPrimary allowTyped level)
  node : ∀ tier, Shadows P tier Matches r.node r'.node
  block : ∀ tier context, Shadows P tier Matches (r.block context) (r'.block context)
  statement : ∀ context, Shadows P .wide Matches (r.statement context) (r'.statement context)
  included : ∀ context script,
    Shadows P .wide Eq (r.included context script) (r'.included context script)

namespace RulesShadow

variable {P : Pairing} {tier : Tier} {r r' : Rules}

theorem typeParameter_shadows : Shadows P tier Matches typeParameter typeParameter :=
  .matched identifier_shadows fun id id' hid => .pure (by simp_all)

theorem asPattern_shadows {e e' : Expr} (he : Matches e e') :
    Shadows P tier Matches (asPattern e) (asPattern e') := by
  have hpattern := Matches.ofExpr he
  unfold asPattern
  cases hx : Pattern.ofExpr e <;> cases hx' : Pattern.ofExpr e' <;> rw [hx, hx'] at hpattern
  · exact stopAt_shadows _ _ _
  · cases hpattern
  · cases hpattern
  · exact .pure (by simpa using hpattern)

theorem endsHere_shadows (hl : P.layered) {defines : Bool} (h : tier = .wide ∨ defines = false) :
    Shadows P tier Eq (endsHere defines) (endsHere defines) := by
  cases defines with
  | false => exact .pure rfl
  | true =>
    obtain rfl := h.resolve_right nofun
    exact endStatement_shadows hl

theorem addArrowParam_shadows {params params' : Params} {e e' : Expr}
    (hparams : Matches params params') (he : Matches e e') :
    Shadows P tier Matches (addArrowParam params e) (addArrowParam params' e') := by
  have refused : ∀ span span', Shadows P tier Matches
      (do syntaxError .invalidArrowFunctionParam span; pure params)
      (do syntaxError .invalidArrowFunctionParam span'; pure params') := fun _ _ =>
    .seq (syntaxError_shadows _ _ _) fun _ => .pure hparams
  cases hassigns : e.isAssignment with
  | false =>
    rw [addArrowParam_other hassigns, addArrowParam_other (he.isAssignment ▸ hassigns)]
    refine .matched (asPattern_shadows he) fun pattern pattern' hpattern => ?_
    refine .optional (by rw [hparams.noOptional]) (syntaxError_shadows _ _ _) (.pure ?_)
    exact hparams.add (by simp_all)
  | true =>
    cases e <;> cases hassigns
    cases e' <;> simp at he
    rename_i span left compound right span' left' compound' right'
    obtain ⟨hleft, rfl, hright⟩ := he
    cases left <;> cases left' <;> simp at hleft
    · cases compound with
      | none =>
        refine .matched (asPattern_shadows (by simp_all)) fun pattern pattern' hpattern => .pure ?_
        exact hparams.add (by simp_all)
      | some op => exact refused _ _
    · exact refused _ _

theorem arrowParams_shadows {expressions expressions' : List Expr}
    (h : Matches expressions expressions') :
    Shadows P tier Matches (arrowParams expressions) (arrowParams expressions') :=
  .foldlM (fun _ _ hparams _ _ he => addArrowParam_shadows hparams he) _ _ h _ _ rfl

variable (h : RulesShadow P r r')
include h

theorem expr_shadows {mode : ExprMode}
    (hlevel : mode.level ≠ .list ∨ P.Tells tier (fun t => t.kind == .comma)) :
    Shadows P tier Matches (r.expr mode) (r'.expr mode) := by
  refine .matched (h.optExpr tier mode hlevel) fun found found' hfound => ?_
  cases found <;> cases found' <;> simp at hfound
  · exact unexpected_shadows
  · exact .pure hfound

theorem expr_starves (mode : ExprMode) : Starves (r.expr mode) :=
  .of_reads (h.sound.expr_reads mode)

theorem assignmentExpr_shadows (allowIn : Bool) :
    Shadows P tier Matches (r.assignmentExpr allowIn) (r'.assignmentExpr allowIn) :=
  h.expr_shadows (Or.inl (by simp))

theorem assignmentExpr_starves (allowIn : Bool) : Starves (r.assignmentExpr allowIn) :=
  h.expr_starves _

theorem optGenerics_shadows : Shadows P .wide Matches r.optGenerics r'.optGenerics := by
  refine .seq (at?_wide _) fun present => ?_
  refine .ite (.pure rfl) ?_
  refine mark_shadows fun m m' => ?_
  refine .seq next_shadows fun _ => ?_
  refine .seq (expectOperator_shadows _) fun _ => ?_
  refine .matched (separated_shadows (Or.inl rfl) typeParameter_shadows h.rounds_le)
    fun params params' hparams => ?_
  exact .seq expectGreater_shadows fun _ => finished_shadows m m' fun span span' => by simp_all

theorem typeBound_shadows : Shadows P tier Matches r.typeBound r'.typeBound := by
  refine mark_shadows fun m m' => ?_
  refine .matched identifier_shadows fun id id' hid => ?_
  refine .seq (expectKeyword_shadows _) fun _ => ?_
  refine .matched (h.typeExpr tier) fun type type' htype => ?_
  exact finished_shadows m m' fun span span' => by simp_all

theorem boundsClause?_shadows {generics generics' : Option Generics}
    (hgenerics : Matches generics generics') :
    Shadows P .wide Matches (r.boundsClause? generics) (r'.boundsClause? generics') := by
  refine .seq (consumeKeyword_shadows _) fun bounded => .ite ?_ (.pure rfl)
  refine .matched (separated_shadows (Or.inl rfl) h.typeBound_shadows h.rounds_le)
    fun bounds bounds' hbounds => .pure (congrArg some (hgenerics.addBounds hbounds))

theorem primary_shadows (allowTyped : Bool) :
    Shadows P tier Matches (r.primary allowTyped) (r'.primary allowTyped) := by
  refine .matched (h.optPrimary tier allowTyped _) fun found found' hfound => ?_
  cases found <;> cases found' <;> simp at hfound
  · exact unexpected_shadows
  · exact .pure hfound

/-- No pattern begins where a text ends or a mark closes. -/
theorem pattern_shadows : Shadows P tier Matches r.pattern r'.pattern := by
  refine .bind (R := fun k k' => beginsPattern k = beginsPattern k') ⟨fun {s t} hst => ?_, ?_⟩
    (fun k => ⟨k, rfl⟩) fun kind kind' hkind => ?_
  · refine .ok ?_ hst
    obtain heq | ⟨hend, hstop⟩ := P.same_or_ended hst
    · rw [heq]
    · have hcloses := P.closes hstop
      rw [hend.kind]
      cases hk : t.token.kind <;> rw [hk] at hcloses <;> first | rfl | cases hcloses
  · intro s a t hs hread
    cases hread
    exact hs.rests
  refine .optional (by rw [hkind]) unexpected_shadows ?_
  exact .matched (h.primary_shadows true) fun e e' he => asPattern_shadows he

theorem optInit_shadows (allowIn : Bool) :
    Shadows P tier Matches (r.optInit allowIn) (r'.optInit allowIn) := by
  refine .seq (consume_shadows (by decide) (Pairing.tells_kind rfl)) fun initialized => ?_
  exact .ite (.matched (h.assignmentExpr_shadows allowIn) fun e e' he => .pure (by simp_all))
    (.pure rfl)

theorem variableBinding_shadows (allowIn : Bool) :
    Shadows P tier Matches (r.variableBinding allowIn) (r'.variableBinding allowIn) := by
  refine mark_shadows fun m m' => ?_
  refine .matched h.pattern_shadows fun pattern pattern' hpattern => ?_
  refine .matched (h.optInit_shadows allowIn) fun init init' hinit => ?_
  exact finished_shadows m m' fun span span' => by simp_all

theorem variableDeclaration?_shadows :
    Shadows P .wide Matches r.variableDeclaration? r'.variableDeclaration? := by
  refine .seq (atKeyword?_shadows _) fun readOnly => ?_
  refine .seq (atKeyword?_shadows _) fun changeable => ?_
  refine .ite (.pure rfl) ?_
  refine mark_shadows fun m m' => ?_
  refine .seq next_shadows fun _ => ?_
  refine .matched (separated_shadows (Or.inl rfl) (h.variableBinding_shadows false) h.rounds_le)
    fun bindings bindings' hbindings => ?_
  exact finished_shadows m m' fun span span' => by simp_all

theorem variableBinding_starves (allowIn : Bool) : Starves (r.variableBinding allowIn) :=
  .of_reads (h.sound.variableBinding_reads allowIn)

theorem restParam_shadows : Shadows P tier Matches r.restParam r'.restParam := by
  refine .matched (h.variableBinding_shadows true) fun binding binding' hbinding => ?_
  refine .optional ?_ (syntaxError_shadows _ _ _) (.pure hbinding)
  have hinit := hbinding.noInit
  simp only [← Option.not_isNone, hinit]

theorem functionParams_shadows (hcomma : P.Tells tier fun t => t.kind == .comma) :
    ∀ {fuel fuel' : Nat}, fuel ≤ fuel' → ∀ {params params' : Params}, Matches params params' →
      Shadows P tier Matches (r.functionParams fuel params) (r'.functionParams fuel' params')
  | 0, _, _, _, _, _ => exhausted_shadows
  | fuel + 1, fuel' + 1, hle, params, params', hparams => by
    refine at?_closed (by decide) (fun closed => ?_)
      (consume_starves (by decide) (h.variableBinding_starves true).seq)
    refine .ite (.pure hparams) ?_
    refine .seq (consume_shadows (by decide) (Pairing.tells_kind rfl)) fun atRest => ?_
    refine .ite (.matched h.restParam_shadows fun rest rest' hrest => .pure (by simp_all)) ?_
    refine .matched (h.variableBinding_shadows true) fun binding binding' hbinding => ?_
    refine .optional (by rw [hparams.noOptional, hbinding.noInit]) (syntaxError_shadows _ _ _) ?_
    have hmore := hparams.add hbinding
    refine .seq (consume_shadows (by decide) hcomma) fun more => ?_
    exact .ite (functionParams_shadows hcomma (Nat.le_of_succ_le_succ hle) hmore) (.pure hmore)

theorem throwsType_shadows : Shadows P .wide Matches r.throwsType r'.throwsType := by
  refine .matched (separated_shadows (Or.inl rfl) (h.typeExpr .wide) h.rounds_le)
    fun types types' htypes => ?_
  match types, types', htypes with
  | [], [], _ => exact finished_shadows _ _ fun _ _ => rfl
  | [single], [single'], hsingle => exact .pure (by simpa using hsingle)
  | first :: second :: rest, first' :: second' :: rest', hall =>
    exact finished_shadows _ _ fun _ _ => by simpa using hall
  | [], _ :: _, hno => simp at hno
  | _ :: _, [], hno => simp at hno
  | [_], _ :: _ :: _, hno => simp at hno
  | _ :: _ :: _, [_], hno => simp at hno

theorem functionClauses_shadows : ∀ {fuel fuel' : Nat}, fuel ≤ fuel' → ∀ {clauses clauses' : Clauses},
    Matches clauses clauses' → Shadows P .wide Matches (r.functionClauses fuel clauses)
      (r'.functionClauses fuel' clauses')
  | 0, _, _, _, _, _ => exhausted_shadows
  | fuel + 1, fuel' + 1, hle, clauses, clauses', hclauses => by
    have hsub := Nat.le_of_succ_le_succ hle
    have hthrows : clauses.throws.isSome = clauses'.throws.isSome := by
      obtain ⟨throws, generics⟩ := clauses
      obtain ⟨throws', generics'⟩ := clauses'
      cases throws <;> cases throws' <;> simp_all
    refine .seq (consumeKeyword_shadows _) fun throws => ?_
    refine .ite ?_ ?_
    · refine previous_shadows fun word word' _ => ?_
      refine .optional (by rw [hthrows]) (syntaxError_shadows _ _ _) ?_
      exact .matched h.throwsType_shadows fun type type' htype =>
        functionClauses_shadows hsub (by simp_all)
    · refine .matched (h.boundsClause?_shadows (by simp_all)) fun found found' hfound => ?_
      cases found <;> cases found' <;> simp at hfound
      · exact .pure hclauses
      · exact functionClauses_shadows hsub (by simp_all)

theorem functionBody_shadows {role : FunctionRole} (hrole : tier = .wide ∨ role = .expression) :
    Shadows P tier Matches (r.functionBody role) (r'.functionBody role) := by
  have hends : tier = .wide ∨ (role != .expression) = false := hrole.imp_right fun h => by simp [h]
  refine .seq (at?_shadows (by decide) (Pairing.tells_kind rfl)) fun isBlock => ?_
  refine .ite (.matched (h.block tier _) fun block block' hblock => .pure (by simp_all)) ?_
  refine .seq (endsHere_shadows h.layered hends) fun ended => ?_
  refine .ite (.pure rfl) ?_
  refine .matched (h.assignmentExpr_shadows true) fun body body' hbody => ?_
  exact .seq (endsHere_shadows h.layered hends) fun ended => .pure (by simp_all)

theorem functionBody_starves : Starves (r.functionBody .expression) :=
  at?_starves (by decide) (h.assignmentExpr_starves true).seq

theorem functionParts_shadows {generics generics' : Option Generics} {role : FunctionRole}
    (hgenerics : Matches generics generics') (hrole : tier = .wide ∨ role = .expression) :
    Shadows P tier Matches (r.functionParts generics role) (r'.functionParts generics' role) := by
  refine mark_shadows fun m m' => ?_
  refine .seq (expect_shadows (by decide)) fun _ => ?_
  refine .closed (h.functionParams_shadows (Or.inl rfl) h.rounds_le rfl)
    (fun params params' hparams => ?_) fun _ => (expect_starves (k := .rightParen) (by decide)).seq
  refine .seq (expect_shadows (by decide)) fun _ => ?_
  refine .matched h.optAnnotation_shadows fun result result' hresult => ?_
  refine .closedOr (h.functionClauses_shadows h.rounds_le (by simpa using hgenerics))
    (fun clauses clauses' hclauses => ?_) (hrole.imp_right fun hexpression _ => ?_)
  · refine .matched (inFunction_shadows h.layered (h.functionBody_shadows hrole))
      fun ⟨⟨body, ended⟩, use⟩ ⟨⟨body', ended'⟩, use'⟩ hbody => ?_
    exact finished_shadows m m' fun span span' => by simp_all
  · rw [hexpression]
    exact (inFunction_starves h.functionBody_starves).seq

theorem functionExpr_shadows : Shadows P tier Matches r.functionExpr r'.functionExpr := by
  refine mark_shadows fun m m' => ?_
  refine .seq (expectKeyword_shadows _) fun _ => ?_
  refine .seq consumeIdentifier_shadows fun named => ?_
  have rest : ∀ id id' : Option Identifier, Matches id id' → Shadows P tier Matches
      (do
        let parts ← r.functionParts none .expression
        let span ← finish m
        if parts.common.body.isNone then
          syntaxError .functionMustveBody ((id.map (·.span)).getD span)
        return Expr.function span id parts.common)
      (do
        let parts ← r'.functionParts none .expression
        let span ← finish m'
        if parts.common.body.isNone then
          syntaxError .functionMustveBody ((id'.map (·.span)).getD span)
        return Expr.function span id' parts.common) := by
    intro id id' hid
    refine .matched (h.functionParts_shadows rfl (Or.inr rfl)) fun parts parts' hparts => ?_
    have hcommon : parts.common.bare = parts'.common.bare := by
      obtain ⟨common, generics, ended⟩ := parts
      obtain ⟨common', generics', ended'⟩ := parts'
      simp_all
    have hbody : parts.common.body.isNone = parts'.common.body.isNone := by
      obtain ⟨⟨_, _, _, _, _, _, _, _, body⟩, generics, ended⟩ := parts
      obtain ⟨⟨_, _, _, _, _, _, _, _, body'⟩, generics', ended'⟩ := parts'
      cases body <;> cases body' <;> simp_all
    refine finish_shadows m m' fun span span' => ?_
    exact .optional (by rw [hbody]) (syntaxError_shadows _ _ _) (.pure (by simp_all))
  refine .ite (.matched (.map previousIdentifier_shadows (fun id => ⟨id, rfl⟩) fun id id' hid => ?_)
    rest) (rest none none rfl)
  simp_all

theorem arrowBody_shadows : Shadows P tier Matches r.arrowBody r'.arrowBody := by
  refine .seq (at?_shadows (by decide) (Pairing.tells_kind rfl)) fun isBlock => ?_
  exact .ite (.matched (h.block tier _) fun block block' hblock => .pure (by simp_all))
    (.matched (h.assignmentExpr_shadows true) fun e e' he => .pure (by simp_all))

theorem arrowFunction_shadows (m m' : Mark) {params params' : Params}
    {result result' : Option TypeExpr} (hparams : Matches params params')
    (hresult : Matches result result') :
    Shadows P tier Matches (r.arrowFunction m params result)
      (r'.arrowFunction m' params' result') :=
  .matched (inFunction_shadows h.layered h.arrowBody_shadows) fun ⟨body, use⟩ ⟨body', use'⟩ hbody =>
    finished_shadows m m' fun span span' => by simp_all

end RulesShadow

end ActionSyntax
