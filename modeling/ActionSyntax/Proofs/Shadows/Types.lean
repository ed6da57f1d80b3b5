import ActionSyntax.Grammar.Types
import ActionSyntax.Proofs.Reads.Types
import ActionSyntax.Proofs.Shadows.Elementary

/-!
How types are read in the shadow of each other. Types do not depend on how lines are laid out.
-/

namespace ActionSyntax

set_option autoImplicit false

open Parse Rules

section Bare

@[simp] def Rules.TypeParams.bare (params : TypeParams) : TypeParams :=
  ⟨params.required.map Identifier.bare, params.optional.map (List.map Identifier.bare),
    params.rest.map Identifier.bare⟩

instance : Bare TypeParams := ⟨TypeParams.bare⟩

@[simp] theorem bare_typeParams : (bare : TypeParams → TypeParams) = TypeParams.bare := rfl

theorem TypeExpr.bare_unionMembers (type : TypeExpr) :
    type.unionMembers.map TypeExpr.bare = type.bare.unionMembers := by
  cases type <;> simp [unionMembers]

theorem Matches.unionMembers {type type' : TypeExpr} (h : Matches type type') :
    Matches type.unionMembers type'.unionMembers := by
  have hbare : type.bare = type'.bare := h
  simp [TypeExpr.bare_unionMembers, hbare]

theorem Matches.addRequired {params params' : TypeParams} {id id' : Identifier}
    (h : Matches params params') (hid : Matches id id') :
    Matches (params.addRequired id) (params'.addRequired id') := by
  simp_all [TypeParams.addRequired]

theorem Matches.addOptional {params params' : TypeParams} {id id' : Identifier}
    (h : Matches params params') (hid : Matches id id') :
    Matches (params.addOptional id) (params'.addOptional id') := by
  obtain ⟨required, optional, rest⟩ := params
  obtain ⟨required', optional', rest'⟩ := params'
  cases optional <;> cases optional' <;> simp_all [TypeParams.addOptional]

theorem Matches.hasOptional {params params' : TypeParams} (h : Matches params params') :
    params.optional.isSome = params'.optional.isSome := by
  obtain ⟨required, optional, rest⟩ := params
  obtain ⟨required', optional', rest'⟩ := params'
  cases optional <;> cases optional' <;> simp_all

end Bare

/-- Rules that read types in the shadow of others. -/
structure TypesShadow (P : Pairing) (r r' : Rules) : Prop where
  depth : r.depth ≤ r'.depth
  sound : (Setting.lenient r.readFile).Sound r.depth r
  typeExpr : ∀ tier, Shadows P tier Matches r.typeExpr r'.typeExpr

namespace TypesShadow

variable {P : Pairing} {tier : Tier} {r r' : Rules} (h : TypesShadow P r r')
include h

theorem rounds_le : r.rounds ≤ r'.rounds := Nat.add_le_add_right h.depth 2

theorem typeExpr_starves : Starves r.typeExpr := .of_reads h.sound.typeExpr

theorem optAnnotation_shadows : Shadows P tier Matches r.optAnnotation r'.optAnnotation := by
  refine .seq (consume_shadows (by decide) (Pairing.tells_kind rfl)) fun annotated => ?_
  exact .ite (.matched (h.typeExpr tier) fun type type' htype => .pure (by simp_all)) (.pure rfl)

theorem typedIdentifierFrom_shadows (m m' : Mark) (name : String) :
    Shadows P tier Matches (r.typedIdentifierFrom m name) (r'.typedIdentifierFrom m' name) :=
  .matched h.optAnnotation_shadows fun type type' htype =>
    finished_shadows m m' fun span span' => by simp_all

theorem typedIdentifier_shadows :
    Shadows P tier Matches r.typedIdentifier r'.typedIdentifier :=
  mark_shadows fun m m' => .seq expectName_shadows fun name =>
    h.typedIdentifierFrom_shadows m m' name

theorem typeArguments_shadows : Shadows P tier Matches r.typeArguments r'.typeArguments := by
  refine .closed (separated_shadows (Or.inl rfl) (h.typeExpr .wide) h.rounds_le)
    (fun arguments arguments' hmatch => ?_) fun _ => expectGreater_starves.seq
  exact .seq expectGreater_shadows fun _ => .pure hmatch

theorem functionTypeParam_shadows :
    Shadows P tier Matches r.functionTypeParam r'.functionTypeParam := by
  refine mark_shadows fun m m' => ?_
  refine .seq expectName_shadows fun name => ?_
  refine .seq (consume_shadows (by decide) (Pairing.tells_kind rfl)) fun optional => ?_
  exact .matched (h.typedIdentifierFrom_shadows m m' name) fun id id' hid => .pure (by simp_all)

omit h in
theorem functionTypeParam_starves : Starves r.functionTypeParam := by
  have hreads : (Setting.lenient r.readFile).Reads 0 always expectName := Setting.expectName_reads
  exact .after (fun hs h => by cases h; exact hs.rests) fun _ => (Starves.of_reads hreads).seq

theorem functionTypeParams_shadows (hcomma : P.Tells tier fun t => t.kind == .comma) :
    ∀ {fuel fuel' : Nat}, fuel ≤ fuel' → ∀ params params', Matches params params' →
      Shadows P tier Matches (r.functionTypeParams fuel params)
        (r'.functionTypeParams fuel' params')
  | 0, _, _, _, _, _ => exhausted_shadows
  | fuel + 1, fuel' + 1, hle, params, params', hparams => by
    refine at?_closed (by decide) (fun closed => ?_)
      (consume_starves (by decide) functionTypeParam_starves.seq)
    refine .ite (.pure hparams) ?_
    refine .seq (consume_shadows (by decide) (Pairing.tells_kind rfl)) fun atRest => ?_
    refine .ite (.matched h.typedIdentifier_shadows fun rest rest' hrest => .pure ?_) ?_
    · simp_all
    refine .matched h.functionTypeParam_shadows fun ⟨id, optional⟩ ⟨id', optional'⟩ hparam => ?_
    obtain ⟨hid, rfl⟩ : Matches id id' ∧ optional = optional' := by simpa using hparam
    refine token_shadows fun t t' _ => ?_
    refine .optional (by rw [hparams.hasOptional]) (syntaxError_shadows _ _ _) ?_
    have hmore : Matches (if optional then params.addOptional id else params.addRequired id)
        (if optional then params'.addOptional id' else params'.addRequired id') := by
      split
      · exact hparams.addOptional hid
      · exact hparams.addRequired hid
    refine .seq (consume_shadows (by decide) hcomma) fun more => ?_
    exact .ite (functionTypeParams_shadows hcomma (Nat.le_of_succ_le_succ hle) _ _ hmore) (.pure hmore)

theorem functionType_shadows (m m' : Mark) :
    Shadows P tier Matches (r.functionType m) (r'.functionType m') := by
  refine .seq (expect_shadows (by decide)) fun _ => ?_
  refine .closed (h.functionTypeParams_shadows (Or.inl rfl) h.rounds_le {} {} rfl) (fun params params' hparams => ?_)
    fun _ => (expect_starves (k := .rightParen) (by decide)).seq
  refine .seq (expect_shadows (by decide)) fun _ => ?_
  refine .matched h.optAnnotation_shadows fun result result' hresult => ?_
  exact finished_shadows m m' fun span span' => by simp_all

omit h in
theorem convertTypeParam_shadows {type type' : Option TypeExpr} {params params' : TypeParams}
    {e e' : TypeExpr} (htype : Matches type type') (hparams : Matches params params')
    (he : Matches e e') :
    Shadows P tier Matches (convertTypeParam type params e) (convertTypeParam type' params' e') := by
  have other : ∀ span span', Shadows P tier Matches
      (do syntaxError .invalidOrUnexpected span; pure params)
      (do syntaxError .invalidOrUnexpected span'; pure params') := fun span span' =>
    .seq (syntaxError_shadows _ _ _) fun _ => .pure hparams
  cases e <;> cases e' <;> simp at he
  case name.name =>
    unfold convertTypeParam
    refine .optional (by rw [hparams.hasOptional]) (syntaxError_shadows _ _ _) (.pure ?_)
    exact hparams.addRequired (by simp_all)
  case nullable.nullable base _ base' =>
    cases base <;> cases base' <;> simp at he
    case name.name => exact .pure (hparams.addOptional (by simp_all))
    all_goals
      refine .seq (syntaxError_shadows _ _ _) fun _ => .pure ?_
      obtain ⟨required, optional, rest⟩ := params
      obtain ⟨required', optional', rest'⟩ := params'
      cases optional <;> cases optional' <;> simp_all
  all_goals exact other _ _

theorem arrowType_shadows (m m' : Mark) {params params' : TypeParams}
    (hparams : Matches params params') :
    Shadows P tier Matches (r.arrowType m params) (r'.arrowType m' params') :=
  .matched (h.typeExpr tier) fun result result' hresult =>
    finished_shadows m m' fun span span' => by simp_all

theorem moreTypes_shadows (ends : TokenKind → Bool) : ∀ {fuel fuel' : Nat}, fuel ≤ fuel' →
    Shadows P .wide Matches (r.moreTypes ends fuel) (r'.moreTypes ends fuel')
  | 0, _, _ => exhausted_shadows
  | fuel + 1, fuel' + 1, hle => by
    refine .seq (consume_shadows (by decide) (Or.inl rfl)) fun more => ?_
    refine .ite ?_ (.pure rfl)
    refine .seq kind_wide fun kind => ?_
    refine .ite (.pure rfl) ?_
    refine .matched (h.typeExpr .wide) fun first first' hfirst => ?_
    exact .matched (moreTypes_shadows ends (Nat.le_of_succ_le_succ hle)) fun rest rest' hrest =>
      .pure (by simp_all)

theorem bracketType_shadows (m m' : Mark) :
    Shadows P tier Matches (r.bracketType m) (r'.bracketType m') := by
  refine .seq (consume_shadows (by decide) (Pairing.tells_kind rfl)) fun atRest => ?_
  refine .ite ?_ ?_
  · refine .matched (h.typeExpr tier) fun item item' hitem => ?_
    exact .seq (expect_shadows (by decide)) fun _ =>
      finished_shadows m m' fun span span' => by simp_all
  refine consume_closed (by decide) (fun atOnce => ?_) h.typeExpr_starves.seq
  refine .ite (finished_shadows m m' fun span span' => rfl) ?_
  refine .matched (h.typeExpr tier) fun first first' hfirst => ?_
  refine at?_closed (by decide) (fun more => ?_) (expect_starves (k := .rightBracket) (by decide)).seq
  refine .ite ?_ ?_
  · exact .seq (expect_shadows (by decide)) fun _ =>
      finished_shadows m m' fun span span' => by simp_all
  · refine .closed (h.moreTypes_shadows _ h.rounds_le) (fun rest rest' hrest => ?_)
      fun _ => (expect_starves (k := .rightBracket) (by decide)).seq
    exact .seq (expect_shadows (by decide)) fun _ =>
      finished_shadows m m' fun span span' => by simp_all

theorem restArrowType_shadows (m m' : Mark) {params params' : TypeParams}
    (hparams : Matches params params') :
    Shadows P tier Matches (r.restArrowType m params) (r'.restArrowType m' params') := by
  refine .matched h.typedIdentifier_shadows fun rest rest' hrest => ?_
  refine .seq (expect_shadows (by decide)) fun _ => ?_
  refine .seq (expect_shadows (by decide)) fun _ => ?_
  exact h.arrowType_shadows m m' (by simp_all)

omit h in
theorem convertTypeParams_shadows : ∀ {types types' : List TypeExpr}, Matches types types' →
    Shadows P tier Matches (convertTypeParams types) (convertTypeParams types') := by
  refine fun htypes => .foldlM ?_ _ _ htypes _ _ rfl
  intro params params' hparams node node' hnode
  cases node <;> cases node' <;> simp at hnode
  case typed.typed => exact convertTypeParam_shadows (by simp_all) hparams hnode.1
  all_goals exact convertTypeParam_shadows rfl hparams (by simp_all)

theorem parensType_shadows (m m' : Mark) :
    Shadows P tier Matches (r.parensType m) (r'.parensType m') := by
  have tail : Starves (expect .rightParen) := expect_starves (by decide)
  refine consume_closed (by decide) (fun atOnce => ?_)
    (consume_starves (by decide) h.typeExpr_starves.seq)
  refine .ite (.seq (expect_shadows (by decide)) fun _ => h.arrowType_shadows m m' rfl) ?_
  refine .seq (consume_shadows (by decide) (Pairing.tells_kind rfl)) fun atRest => ?_
  refine .ite (h.restArrowType_shadows m m' rfl) ?_
  refine .matched (h.typeExpr tier) fun first first' hfirst => ?_
  refine at?_closed (by decide) (fun more => ?_) tail.seq
  refine .ite ?_ ?_
  · refine .seq (expect_shadows (by decide)) fun _ => ?_
    refine .seq (consume_shadows (by decide) (Pairing.tells_kind rfl)) fun atArrow => ?_
    refine .ite ?_ (finished_shadows m m' fun span span' => by simp_all)
    refine .matched (convertTypeParams_shadows (by simp_all)) fun params params' hparams => ?_
    exact h.arrowType_shadows m m' hparams
  refine .closed (h.moreTypes_shadows _ h.rounds_le) (fun rest rest' hrest => ?_)
    fun _ => consume_starves (by decide) tail.seq
  refine .seq (consume_shadows (by decide) (Pairing.tells_kind rfl)) fun atRest => ?_
  refine .ite ?_ ?_
  · refine .matched (convertTypeParams_shadows (by simp_all)) fun params params' hparams => ?_
    exact h.restArrowType_shadows m m' hparams
  refine .seq (expect_shadows (by decide)) fun _ => ?_
  refine .seq (consume_shadows (by decide) (Pairing.tells_kind rfl)) fun atArrow => ?_
  refine .ite ?_ (finished_shadows m m' fun span span' => by simp_all)
  refine .matched (convertTypeParams_shadows (by simp_all)) fun params params' hparams => ?_
  exact h.arrowType_shadows m m' hparams

theorem nameType_shadows (m m' : Mark) :
    Shadows P tier Matches (r.nameType m) (r'.nameType m') := by
  refine finish_shadows m m' fun span span' => ?_
  refine previous_shadows fun t t' ht => ?_
  refine .seq (consume_shadows (by decide) (Pairing.tells_kind rfl)) fun atArrow => ?_
  refine .ite ?_ (.pure (by simp [ht.text]))
  refine .matched (convertTypeParams_shadows (by simp [ht.text])) fun params params' hparams => ?_
  exact h.arrowType_shadows m m' hparams

theorem typeHead_shadows (m m' : Mark) :
    Shadows P tier Matches (r.typeHead m) (r'.typeHead m') := by
  have plain : ∀ type : Span → TypeExpr, (∀ span span', Matches (type span) (type span')) →
      Shadows P tier Matches (finish m >>= fun span => pure (type span))
        (finish m' >>= fun span => pure (type span)) := fun type => finished_shadows m m'
  refine .seq (consumeContextKeyword_shadows _) fun _ => .ite (plain _ fun _ _ => rfl) ?_
  refine .seq consumeIdentifier_shadows fun _ => .ite (h.nameType_shadows m m') ?_
  refine .seq (consumeKeyword_shadows _) fun _ => .ite (h.functionType_shadows m m') ?_
  refine .seq (consume_shadows (by decide) (Pairing.tells_kind rfl)) fun _ =>
    .ite (h.bracketType_shadows m m') ?_
  refine .seq (consume_shadows (by decide) (Pairing.tells_kind rfl)) fun _ => .ite ?_ ?_
  · refine .closed (separatedUntil_shadows _ h.typedIdentifier_shadows h.rounds_le)
      (fun fields fields' hfields => ?_) fun _ => (expect_starves (k := .rightBrace) (by decide)).seq
    exact .seq (expect_shadows (by decide)) fun _ =>
      finished_shadows m m' fun span span' => by simp_all
  refine .seq (consume_shadows (by decide) (Pairing.tells_kind rfl)) fun _ =>
    .ite (h.parensType_shadows m m') ?_
  refine .seq (consumeKeyword_shadows _) fun _ => .ite (plain _ fun _ _ => rfl) ?_
  refine .seq (consumeOperator_shadows _) fun _ => .ite (plain _ fun _ _ => rfl) ?_
  refine .seq (consumeKeyword_shadows _) fun _ => .ite (plain _ fun _ _ => rfl) ?_
  exact .seq (consumeOperator_shadows _) fun _ => .ite (h.typeExpr tier) unexpected_shadows

theorem typeMember_shadows (m m' : Mark) {base base' : TypeExpr} (hbase : Matches base base') :
    Shadows P tier Matches (r.typeMember m base) (r'.typeMember m' base') := by
  refine .seq (consumeOperator_shadows _) fun applied => .ite ?_ ?_
  · refine .matched h.typeArguments_shadows fun arguments arguments' hmatch => ?_
    exact finished_shadows m m' fun span span' => by simp_all
  · refine .matched wordIdentifier_shadows fun id id' hid => ?_
    exact finished_shadows m m' fun span span' => by simp_all

theorem typeSuffix?_shadows {base base' : TypeExpr} (hbase : Matches base base') :
    Shadows P tier Matches (r.typeSuffix? base) (r'.typeSuffix? base') := by
  refine .seq (consume_shadows (by decide) (Pairing.tells_kind rfl)) fun _ =>
    .ite (finished_shadows _ _ fun span span' => by simp_all) ?_
  refine .seq (consume_shadows (by decide) (Pairing.tells_kind rfl)) fun _ =>
    .ite (finished_shadows _ _ fun span span' => by simp_all) ?_
  refine .seq (consume_shadows (by decide) (Pairing.tells_kind rfl)) fun _ =>
    .ite (.matched (h.typeMember_shadows _ _ hbase) fun member member' hmember =>
      .pure (by simp_all)) ?_
  refine .seq (consume_shadows (by decide) (Pairing.tells_kind rfl)) fun _ =>
    .ite (.matched (h.typeExpr tier) fun type type' htype => .pure (by simp_all)) ?_
  refine .seq (consumeOperator_shadows _) fun _ => .ite ?_ (.pure rfl)
  refine .matched (h.typeExpr tier) fun right right' hright => .pure ?_
  have hleft := hbase.unionMembers
  have hmembers := Matches.unionMembers hright
  simp_all

theorem typeSuffixes_shadows : ∀ {fuel fuel' : Nat}, fuel ≤ fuel' → ∀ {base base' : TypeExpr},
    Matches base base' → Shadows P tier Matches (r.typeSuffixes fuel base)
      (r'.typeSuffixes fuel' base')
  | 0, _, _, _, _, _ => exhausted_shadows
  | fuel + 1, fuel' + 1, hle, base, base', hbase => by
    refine .matched (h.typeSuffix?_shadows hbase) fun found found' hfound => ?_
    cases found <;> cases found' <;> simp at hfound
    · exact .pure hbase
    · exact typeSuffixes_shadows (Nat.le_of_succ_le_succ hle) hfound

theorem typeExprRule_shadows : Shadows P tier Matches r.typeExprRule r'.typeExprRule := by
  refine mark_shadows fun m m' => ?_
  refine .matched (h.typeHead_shadows m m') fun head head' hhead => ?_
  exact h.typeSuffixes_shadows h.rounds_le hhead

end TypesShadow

end ActionSyntax
