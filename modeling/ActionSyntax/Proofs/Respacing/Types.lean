import ActionSyntax.Grammar.Types
import ActionSyntax.Proofs.Respacing.Elementary
import ActionSyntax.Proofs.Shadows.Types

/-!
How types are read where a gap is exchanged.
-/

namespace ActionSyntax

set_option autoImplicit false

open Parse Rules

/-- The rules read alike where a gap is exchanged. Of an included script, all is the same. -/
structure RulesRespace (F : Fork) (r : Rules) : Prop where
  typeExpr : Respaces F Matches r.typeExpr r.typeExpr
  optExpr : ∀ mode, Respaces F Matches (r.optExpr mode) (r.optExpr mode)
  optPrimary : ∀ allowTyped level,
    Respaces F Matches (r.optPrimary allowTyped level) (r.optPrimary allowTyped level)
  node : Respaces F Matches r.node r.node
  block : ∀ context, Respaces F Matches (r.block context) (r.block context)
  statement : ∀ context, Respaces F Matches (r.statement context) (r.statement context)
  included : ∀ context script,
    Respaces F Eq (r.included context script) (r.included context script)

namespace RulesRespace

variable {F : Fork} {r : Rules} (h : RulesRespace F r)
include h

theorem optAnnotation_respaces : Respaces F Matches r.optAnnotation r.optAnnotation := by
  refine .seq (consume_respaces _) fun annotated => ?_
  exact .ite (.matched h.typeExpr fun type type' htype => .pure (by simp_all)) (.pure rfl)

theorem typedIdentifierFrom_respaces (m m' : Mark) (name : String) :
    Respaces F Matches (r.typedIdentifierFrom m name) (r.typedIdentifierFrom m' name) :=
  .matched h.optAnnotation_respaces fun type type' htype =>
    finished_respaces m m' fun span span' => by simp_all

theorem typedIdentifier_respaces :
    Respaces F Matches r.typedIdentifier r.typedIdentifier :=
  mark_respaces fun m m' => .seq expectName_respaces fun name =>
    h.typedIdentifierFrom_respaces m m' name

theorem typeArguments_respaces : Respaces F Matches r.typeArguments r.typeArguments := by
  refine .matched (separated_respaces h.typeExpr _) fun arguments arguments' hmatch => ?_
  exact .seq expectGreater_respaces fun _ => .pure hmatch

theorem functionTypeParam_respaces :
    Respaces F Matches r.functionTypeParam r.functionTypeParam := by
  refine mark_respaces fun m m' => ?_
  refine .seq expectName_respaces fun name => ?_
  refine .seq (consume_respaces _) fun optional => ?_
  exact .matched (h.typedIdentifierFrom_respaces m m' name) fun id id' hid => .pure (by simp_all)

theorem functionTypeParams_respaces : ∀ (fuel : Nat) (params params' : TypeParams),
    Matches params params' →
      Respaces F Matches (r.functionTypeParams fuel params) (r.functionTypeParams fuel params')
  | 0, _, _, _ => exhausted_respaces
  | fuel + 1, params, params', hparams => by
    refine .seq (at?_respaces _) fun closed => ?_
    refine .ite (.pure hparams) ?_
    refine .seq (consume_respaces _) fun atRest => ?_
    refine .ite (.matched h.typedIdentifier_respaces fun rest rest' hrest => .pure ?_) ?_
    · simp_all
    refine .matched h.functionTypeParam_respaces fun ⟨id, optional⟩ ⟨id', optional'⟩ hparam => ?_
    obtain ⟨hid, rfl⟩ : Matches id id' ∧ optional = optional' := by simpa using hparam
    refine token_respaces fun t t' _ => ?_
    refine .optional (by rw [hparams.hasOptional]) (syntaxError_respaces _ _ _) ?_
    have hmore : Matches (if optional then params.addOptional id else params.addRequired id)
        (if optional then params'.addOptional id' else params'.addRequired id') := by
      split
      · exact hparams.addOptional hid
      · exact hparams.addRequired hid
    refine .seq (consume_respaces _) fun more => ?_
    exact .ite (functionTypeParams_respaces fuel _ _ hmore) (.pure hmore)

theorem functionType_respaces (m m' : Mark) :
    Respaces F Matches (r.functionType m) (r.functionType m') := by
  refine .seq (expect_respaces _) fun _ => ?_
  refine .matched (h.functionTypeParams_respaces _ {} {} rfl) fun params params' hparams => ?_
  refine .seq (expect_respaces _) fun _ => ?_
  refine .matched h.optAnnotation_respaces fun result result' hresult => ?_
  exact finished_respaces m m' fun span span' => by simp_all

omit h in
theorem convertTypeParam_respaces {type type' : Option TypeExpr} {params params' : TypeParams}
    {e e' : TypeExpr} (htype : Matches type type') (hparams : Matches params params')
    (he : Matches e e') :
    Respaces F Matches (convertTypeParam type params e) (convertTypeParam type' params' e') := by
  have other : ∀ span span', Respaces F Matches
      (do syntaxError .invalidOrUnexpected span; pure params)
      (do syntaxError .invalidOrUnexpected span'; pure params') := fun span span' =>
    .seq (syntaxError_respaces _ _ _) fun _ => .pure hparams
  cases e <;> cases e' <;> simp at he
  case name.name =>
    unfold convertTypeParam
    refine .optional (by rw [hparams.hasOptional]) (syntaxError_respaces _ _ _) (.pure ?_)
    exact hparams.addRequired (by simp_all)
  case nullable.nullable base _ base' =>
    cases base <;> cases base' <;> simp at he
    case name.name => exact .pure (hparams.addOptional (by simp_all))
    all_goals
      refine .seq (syntaxError_respaces _ _ _) fun _ => .pure ?_
      obtain ⟨required, optional, rest⟩ := params
      obtain ⟨required', optional', rest'⟩ := params'
      cases optional <;> cases optional' <;> simp_all
  all_goals exact other _ _

theorem arrowType_respaces (m m' : Mark) {params params' : TypeParams}
    (hparams : Matches params params') :
    Respaces F Matches (r.arrowType m params) (r.arrowType m' params') :=
  .matched h.typeExpr fun result result' hresult =>
    finished_respaces m m' fun span span' => by simp_all

theorem moreTypes_respaces (ends : TokenKind → Bool) : ∀ fuel : Nat,
    Respaces F Matches (r.moreTypes ends fuel) (r.moreTypes ends fuel)
  | 0 => exhausted_respaces
  | fuel + 1 => by
    refine .seq (consume_respaces _) fun more => ?_
    refine .ite ?_ (.pure rfl)
    refine .seq kind_respaces fun kind => ?_
    refine .ite (.pure rfl) ?_
    refine .matched h.typeExpr fun first first' hfirst => ?_
    exact .matched (moreTypes_respaces ends fuel) fun rest rest' hrest =>
      .pure (by simp_all)

theorem bracketType_respaces (m m' : Mark) :
    Respaces F Matches (r.bracketType m) (r.bracketType m') := by
  refine .seq (consume_respaces _) fun atRest => ?_
  refine .ite ?_ ?_
  · refine .matched h.typeExpr fun item item' hitem => ?_
    exact .seq (expect_respaces _) fun _ =>
      finished_respaces m m' fun span span' => by simp_all
  refine .seq (consume_respaces _) fun atOnce => ?_
  refine .ite (finished_respaces m m' fun span span' => rfl) ?_
  refine .matched h.typeExpr fun first first' hfirst => ?_
  refine .seq (at?_respaces _) fun more => ?_
  refine .ite ?_ ?_
  · exact .seq (expect_respaces _) fun _ =>
      finished_respaces m m' fun span span' => by simp_all
  · refine .matched (h.moreTypes_respaces _ _) fun rest rest' hrest => ?_
    exact .seq (expect_respaces _) fun _ =>
      finished_respaces m m' fun span span' => by simp_all

theorem restArrowType_respaces (m m' : Mark) {params params' : TypeParams}
    (hparams : Matches params params') :
    Respaces F Matches (r.restArrowType m params) (r.restArrowType m' params') := by
  refine .matched h.typedIdentifier_respaces fun rest rest' hrest => ?_
  refine .seq (expect_respaces _) fun _ => ?_
  refine .seq (expect_respaces _) fun _ => ?_
  exact h.arrowType_respaces m m' (by simp_all)

omit h in
theorem convertTypeParams_respaces : ∀ {types types' : List TypeExpr}, Matches types types' →
    Respaces F Matches (convertTypeParams types) (convertTypeParams types') := by
  refine fun htypes => .foldlM ?_ _ _ htypes _ _ rfl
  intro params params' hparams node node' hnode
  cases node <;> cases node' <;> simp at hnode
  case typed.typed => exact convertTypeParam_respaces (by simp_all) hparams hnode.1
  all_goals exact convertTypeParam_respaces rfl hparams (by simp_all)

theorem parensType_respaces (m m' : Mark) :
    Respaces F Matches (r.parensType m) (r.parensType m') := by
  refine .seq (consume_respaces _) fun atOnce => ?_
  refine .ite (.seq (expect_respaces _) fun _ => h.arrowType_respaces m m' rfl) ?_
  refine .seq (consume_respaces _) fun atRest => ?_
  refine .ite (h.restArrowType_respaces m m' rfl) ?_
  refine .matched h.typeExpr fun first first' hfirst => ?_
  refine .seq (at?_respaces _) fun more => ?_
  refine .ite ?_ ?_
  · refine .seq (expect_respaces _) fun _ => ?_
    refine .seq (consume_respaces _) fun atArrow => ?_
    refine .ite ?_ (finished_respaces m m' fun span span' => by simp_all)
    refine .matched (convertTypeParams_respaces (by simp_all)) fun params params' hparams => ?_
    exact h.arrowType_respaces m m' hparams
  refine .matched (h.moreTypes_respaces _ _) fun rest rest' hrest => ?_
  refine .seq (consume_respaces _) fun atRest => ?_
  refine .ite ?_ ?_
  · refine .matched (convertTypeParams_respaces (by simp_all)) fun params params' hparams => ?_
    exact h.restArrowType_respaces m m' hparams
  refine .seq (expect_respaces _) fun _ => ?_
  refine .seq (consume_respaces _) fun atArrow => ?_
  refine .ite ?_ (finished_respaces m m' fun span span' => by simp_all)
  refine .matched (convertTypeParams_respaces (by simp_all)) fun params params' hparams => ?_
  exact h.arrowType_respaces m m' hparams

theorem nameType_respaces (m m' : Mark) :
    Respaces F Matches (r.nameType m) (r.nameType m') := by
  refine finish_respaces m m' fun span span' => ?_
  refine previous_respaces fun t t' ht => ?_
  refine .seq (consume_respaces _) fun atArrow => ?_
  refine .ite ?_ (.pure (by simp [ht.text]))
  refine .matched (convertTypeParams_respaces (by simp [ht.text])) fun params params' hparams => ?_
  exact h.arrowType_respaces m m' hparams

theorem typeHead_respaces (m m' : Mark) :
    Respaces F Matches (r.typeHead m) (r.typeHead m') := by
  have plain : ∀ type : Span → TypeExpr, (∀ span span', Matches (type span) (type span')) →
      Respaces F Matches (finish m >>= fun span => pure (type span))
        (finish m' >>= fun span => pure (type span)) := fun type => finished_respaces m m'
  refine .seq (consumeContextKeyword_respaces _) fun _ => .ite (plain _ fun _ _ => rfl) ?_
  refine .seq consumeIdentifier_respaces fun _ => .ite (h.nameType_respaces m m') ?_
  refine .seq (consumeKeyword_respaces _) fun _ => .ite (h.functionType_respaces m m') ?_
  refine .seq (consume_respaces _) fun _ => .ite (h.bracketType_respaces m m') ?_
  refine .seq (consume_respaces _) fun _ => .ite ?_ ?_
  · refine .matched (separatedUntil_respaces _ h.typedIdentifier_respaces _)
      fun fields fields' hfields => ?_
    exact .seq (expect_respaces _) fun _ =>
      finished_respaces m m' fun span span' => by simp_all
  refine .seq (consume_respaces _) fun _ => .ite (h.parensType_respaces m m') ?_
  refine .seq (consumeKeyword_respaces _) fun _ => .ite (plain _ fun _ _ => rfl) ?_
  refine .seq (consumeOperator_respaces _) fun _ => .ite (plain _ fun _ _ => rfl) ?_
  refine .seq (consumeKeyword_respaces _) fun _ => .ite (plain _ fun _ _ => rfl) ?_
  exact .seq (consumeOperator_respaces _) fun _ => .ite h.typeExpr unexpected_respaces

theorem typeMember_respaces (m m' : Mark) {base base' : TypeExpr} (hbase : Matches base base') :
    Respaces F Matches (r.typeMember m base) (r.typeMember m' base') := by
  refine .seq (consumeOperator_respaces _) fun applied => .ite ?_ ?_
  · refine .matched h.typeArguments_respaces fun arguments arguments' hmatch => ?_
    exact finished_respaces m m' fun span span' => by simp_all
  · refine .matched wordIdentifier_respaces fun id id' hid => ?_
    exact finished_respaces m m' fun span span' => by simp_all

theorem typeSuffix?_respaces {base base' : TypeExpr} (hbase : Matches base base') :
    Respaces F Matches (r.typeSuffix? base) (r.typeSuffix? base') := by
  refine .seq (consume_respaces _) fun _ =>
    .ite (finished_respaces _ _ fun span span' => by simp_all) ?_
  refine .seq (consume_respaces _) fun _ =>
    .ite (finished_respaces _ _ fun span span' => by simp_all) ?_
  refine .seq (consume_respaces _) fun _ =>
    .ite (.matched (h.typeMember_respaces _ _ hbase) fun member member' hmember =>
      .pure (by simp_all)) ?_
  refine .seq (consume_respaces _) fun _ =>
    .ite (.matched h.typeExpr fun type type' htype => .pure (by simp_all)) ?_
  refine .seq (consumeOperator_respaces _) fun _ => .ite ?_ (.pure rfl)
  refine .matched h.typeExpr fun right right' hright => .pure ?_
  have hleft := hbase.unionMembers
  have hmembers := Matches.unionMembers hright
  simp_all

theorem typeSuffixes_respaces : ∀ (fuel : Nat) {base base' : TypeExpr}, Matches base base' →
    Respaces F Matches (r.typeSuffixes fuel base) (r.typeSuffixes fuel base')
  | 0, _, _, _ => exhausted_respaces
  | fuel + 1, base, base', hbase => by
    refine .matched (h.typeSuffix?_respaces hbase) fun found found' hfound => ?_
    cases found <;> cases found' <;> simp at hfound
    · exact .pure hbase
    · exact typeSuffixes_respaces fuel hfound

theorem typeExprRule_respaces : Respaces F Matches r.typeExprRule r.typeExprRule := by
  refine mark_respaces fun m m' => ?_
  refine .matched (h.typeHead_respaces m m') fun head head' hhead => ?_
  exact h.typeSuffixes_respaces _ hhead

end RulesRespace

end ActionSyntax

