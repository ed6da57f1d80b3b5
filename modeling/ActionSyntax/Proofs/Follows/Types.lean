import ActionSyntax.Grammar.Types
import ActionSyntax.Proofs.Follows.Elementary
import ActionSyntax.Proofs.Follows.Rounds

/-!
Two sets of rules that differ in how they answer inclusions or in how deep they go, and how their types
are read.
-/

namespace ActionSyntax

set_option autoImplicit false

open Parse Rules

/-- What has been found in a script that was read in place is handed over, and what is around it is
where it was. -/
def Hands (s : ParserState) (path source : String) :
    EStateM.Result Stop ParserState (Script × List Statement) → Prop
  | .ok (child, _) t =>
    (∃ u, Strides (ParserState.ofScript (Script.ofSource path source)) u ∧ child = u.script) ∧
      ∃ functions superFound, t = { s with functions, superFound }
  | .error _ t => ∃ functions superFound, t = { s with functions, superFound }

/-- The state behind an inclusion, once the script that was read in place is noted. -/
def afterInclusion : EStateM.Result Stop ParserState (Script × List Statement) → ParserState
  | .ok (child, _) t => t.addIncluded child
  | .error _ t => t

/-- Two ways to read a script in place. The first does as the second does, unless it gives up and the
state behind the inclusion is refused. -/
structure Inserts (refused : ParserState → Prop) (s : ParserState) (path source : String)
    (p q : EStateM.Result Stop ParserState (Script × List Statement)) : Prop where
  hands : Hands s path source q
  agree : p = q ∨ (∃ t, p = .error .exhausted t) ∧ refused (afterInclusion q)

/-- The second depth is the first one, or a greater one where every state is refused. -/
def Deepens (refused : ParserState → Prop) (m n : Nat) : Prop := m = n ∨ m ≤ n ∧ ∀ s, refused s

/-- The first rules do what the second do, unless they give up. -/
structure Alike (refused : ParserState → Prop) (r r' : Rules) : Prop where
  depth : Deepens refused r.depth r'.depth
  readFile : r.readFile = r'.readFile
  typeExpr : ∀ known, Follows refused known r.typeExpr r'.typeExpr
  optExpr : ∀ mode known, Follows refused known (r.optExpr mode) (r'.optExpr mode)
  optPrimary : ∀ allowTyped level known,
    Follows refused known (r.optPrimary allowTyped level) (r'.optPrimary allowTyped level)
  node : ∀ known, Follows refused known r.node r'.node
  block : ∀ context known, Follows refused known (r.block context) (r'.block context)
  statement : ∀ context known, Follows refused known (r.statement context) (r'.statement context)
  included : ∀ context path source s, Inserts refused s path source
    (r.included context (Script.ofSource path source) s)
    (r'.included context (Script.ofSource path source) s)

namespace Alike

variable {refused : ParserState → Prop} {r r' : Rules} {known : List Place}
  (h : Alike refused r r')
include h

section Items

variable {α : Type} [Located α]

/-- A loop has its rounds from the depth. Those that the first rules do without are of no use to it, unless
it gives up. -/
theorem loop {x y : Nat → Parse α} (hxy : ∀ fuel, Follows refused known (x fuel) (y fuel))
    (hmore : ∀ {m n}, m ≤ n → Shortens (y m) (y n)) :
    Follows refused known (x r.rounds) (y r'.rounds) := by
  unfold Rules.rounds
  rcases h.depth with heq | ⟨hle, hall⟩
  · rw [heq]
    exact hxy _
  · intro s hs hknown
    refine ⟨(hxy (r'.depth + 2) s hs hknown).lands, ?_⟩
    rcases (hxy (r.depth + 2) s hs hknown).agree with heq | ⟨hup, -⟩
    · rw [heq]
      exact (hmore (Nat.add_le_add_right hle 2) s).imp_right fun hup => ⟨hup, _, .refl _, hall _⟩
    · exact Or.inr ⟨hup, _, .refl _, hall _⟩

theorem separated_follows {item item' : Parse α}
    (hitem : ∀ known, Follows refused known item item') :
    Follows refused known (separated item r.rounds) (separated item' r'.rounds) :=
  h.loop (fun fuel => Parse.separated_follows hitem fuel _) (separated_shortens item')

theorem separatedUntil_follows (closing : TokenKind) {item item' : Parse α}
    (hitem : ∀ known, Follows refused known item item') :
    Follows refused known (separatedUntil closing item r.rounds)
      (separatedUntil closing item' r'.rounds) :=
  h.loop (fun fuel => Parse.separatedUntil_follows closing hitem fuel _)
    (separatedUntil_shortens closing item')

theorem collectWhile_follows {step step' : Parse (Option α)}
    (hstep : ∀ known, Follows refused known step step') :
    Follows refused known (collectWhile step r.rounds) (collectWhile step' r'.rounds) :=
  h.loop (fun fuel => Parse.collectWhile_follows hstep fuel _) (collectWhile_shortens step')

end Items

theorem expr_follows (mode : ExprMode) : Follows refused known (r.expr mode) (r'.expr mode) := by
  refine .seq (h.optExpr mode _) fun found => ?_
  cases found with
  | none => exact unexpected_follows
  | some e => exact .pure e (by grind)

theorem assignmentExpr_follows (allowIn : Bool) :
    Follows refused known (r.assignmentExpr allowIn) (r'.assignmentExpr allowIn) :=
  h.expr_follows _

theorem optAnnotation_follows : Follows refused known r.optAnnotation r'.optAnnotation := by
  refine .seq (consume_follows _) fun annotated => ?_
  exact .ite (.seq (h.typeExpr _) fun type =>
    .pure (some type) (by grind)) (.pure none (List.nil_subset _))

theorem typedIdentifierFrom_follows (m : Mark) (name : String) (hm : places m ⊆ known) :
    Follows refused known (r.typedIdentifierFrom m name) (r'.typedIdentifierFrom m name) :=
  .seq h.optAnnotation_follows fun _ => finished_follows m (by grind) fun _ _ h => h

theorem typedIdentifier_follows : Follows refused known r.typedIdentifier r'.typedIdentifier := by
  refine .seq mark_follows fun m => ?_
  refine .seq expectName_follows fun name => ?_
  exact h.typedIdentifierFrom_follows m name (by grind)

theorem typeArguments_follows : Follows refused known r.typeArguments r'.typeArguments :=
  .seq (h.separated_follows h.typeExpr) fun _ => .seq expectGreater_follows fun _ =>
    .pure _ (by grind)

theorem functionTypeParam_follows :
    Follows refused known r.functionTypeParam r'.functionTypeParam := by
  refine .seq mark_follows fun m => ?_
  refine .seq expectName_follows fun name => ?_
  refine .seq (consume_follows _) fun optional => ?_
  exact .seq (h.typedIdentifierFrom_follows m name (by grind)) fun _ => .pure _ (by grind)

theorem functionTypeParams_follows :
    ∀ fuel params known, Follows refused known (r.functionTypeParams fuel params)
      (r'.functionTypeParams fuel params)
  | 0, _, _ => exhausted_follows
  | fuel + 1, params, known => by
    refine .seq (at?_follows _) fun closed => ?_
    refine .ite (.pure _ (List.nil_subset _)) ?_
    refine .seq (consume_follows _) fun atRest => ?_
    refine .ite (.seq h.typedIdentifier_follows fun _ => .pure _ (List.nil_subset _)) ?_
    refine .seq h.functionTypeParam_follows fun ⟨id, optional⟩ => ?_
    refine .seq token_follows fun t => ?_
    refine .optional (syntaxError_follows _ _ (by grind)) ?_
    refine .seq (consume_follows _) fun more => ?_
    exact .ite (functionTypeParams_follows fuel _ _) (.pure _ (List.nil_subset _))

theorem functionType_follows (m : Mark) (hm : places m ⊆ known) :
    Follows refused known (r.functionType m) (r'.functionType m) := by
  refine .seq (expect_follows _) fun _ => ?_
  refine .seq (h.loop (fun fuel => h.functionTypeParams_follows fuel {} _)
    (r'.functionTypeParams_shortens {})) fun params => ?_
  refine .seq (expect_follows _) fun _ => ?_
  refine .seq h.optAnnotation_follows fun result => ?_
  exact finished_follows m (by grind) fun _ _ h => h

omit h in
theorem convertTypeParam_follows (type : Option TypeExpr) (params : TypeParams) (e : TypeExpr)
    (he : places e ⊆ known) : Follows refused known (convertTypeParam type params e)
      (convertTypeParam type params e) := by
  unfold convertTypeParam
  split
  · exact .pure _ (List.nil_subset _)
  · exact .seq (syntaxError_follows _ _ (by grind)) fun _ => .pure _ (List.nil_subset _)
  · exact .optional (syntaxError_follows _ _ (by grind)) (.pure _ (List.nil_subset _))
  · exact .seq (syntaxError_follows _ _ (by grind)) fun _ => .pure _ (List.nil_subset _)

omit h in
theorem convertTypeParams_follows (types : List TypeExpr) (htypes : places types ⊆ known) :
    Follows refused known (convertTypeParams types) (convertTypeParams types) := by
  refine Follows.foldlM types _ htypes (List.nil_subset _) fun params node hnode more _ hplaces => ?_
  split
  · exact convertTypeParam_follows _ _ _ (by grind)
  · exact convertTypeParam_follows _ _ _ hplaces

theorem arrowType_follows (m : Mark) (params : TypeParams) (hm : places m ⊆ known) :
    Follows refused known (r.arrowType m params) (r'.arrowType m params) :=
  .seq (h.typeExpr _) fun _ => finished_follows m (by grind) fun _ _ h => h

theorem moreTypes_follows (ends : TokenKind → Bool) :
    ∀ fuel known, Follows refused known (r.moreTypes ends fuel) (r'.moreTypes ends fuel)
  | 0, _ => exhausted_follows
  | fuel + 1, known => by
    refine .seq (consume_follows _) fun more => ?_
    refine .ite ?_ (.pure _ (List.nil_subset _))
    refine .seq kind_follows fun kind => ?_
    refine .ite (.pure _ (List.nil_subset _)) ?_
    refine .seq (h.typeExpr _) fun first => ?_
    exact .seq (moreTypes_follows ends fuel _) fun _ => .pure _ (by grind)

theorem bracketType_follows (m : Mark) (hm : places m ⊆ known) :
    Follows refused known (r.bracketType m) (r'.bracketType m) := by
  refine .seq (consume_follows _) fun atRest => ?_
  refine .ite ?_ ?_
  · refine .seq (h.typeExpr _) fun item => ?_
    exact .seq (expect_follows _) fun _ => finished_follows m (by grind) fun _ _ h => h
  refine .seq (consume_follows _) fun atOnce => ?_
  refine .ite (finished_follows m (by grind) fun _ _ h => h) ?_
  refine .seq (h.typeExpr _) fun first => ?_
  refine .seq (at?_follows _) fun more => ?_
  refine .ite ?_ ?_
  · exact .seq (expect_follows _) fun _ => finished_follows m (by grind) fun _ _ h => h
  · refine .seq (h.loop (fun fuel => h.moreTypes_follows _ fuel _) (r'.moreTypes_shortens _)) fun rest => ?_
    exact .seq (expect_follows _) fun _ => finished_follows m (by grind) fun _ _ h => h

theorem restArrowType_follows (m : Mark) (params : TypeParams) (hm : places m ⊆ known) :
    Follows refused known (r.restArrowType m params) (r'.restArrowType m params) := by
  refine .seq h.typedIdentifier_follows fun rest => ?_
  refine .seq (expect_follows _) fun _ => ?_
  refine .seq (expect_follows _) fun _ => ?_
  exact h.arrowType_follows m _ (by grind)

theorem parensType_follows (m : Mark) (hm : places m ⊆ known) :
    Follows refused known (r.parensType m) (r'.parensType m) := by
  refine .seq (consume_follows _) fun atOnce => ?_
  refine .ite (.seq (expect_follows _) fun _ => h.arrowType_follows m _ (by grind)) ?_
  refine .seq (consume_follows _) fun atRest => ?_
  refine .ite (h.restArrowType_follows m _ (by grind)) ?_
  refine .seq (h.typeExpr _) fun first => ?_
  refine .seq (at?_follows _) fun more => ?_
  refine .ite ?_ ?_
  · refine .seq (expect_follows _) fun _ => ?_
    refine .seq (consume_follows _) fun atArrow => ?_
    refine .ite ?_ (finished_follows m (by grind) fun _ _ h => h)
    refine .seq (convertTypeParams_follows _ (by grind)) fun params => ?_
    exact h.arrowType_follows m _ (by grind)
  refine .seq (h.loop (fun fuel => h.moreTypes_follows _ fuel _) (r'.moreTypes_shortens _)) fun rest => ?_
  refine .seq (consume_follows _) fun atRest => ?_
  refine .ite ?_ ?_
  · refine .seq (convertTypeParams_follows _ (by grind)) fun params => ?_
    exact h.restArrowType_follows m _ (by grind)
  refine .seq (expect_follows _) fun _ => ?_
  refine .seq (consume_follows _) fun atArrow => ?_
  refine .ite ?_ (finished_follows m (by grind) fun _ _ h => h)
  refine .seq (convertTypeParams_follows _ (by grind)) fun params => ?_
  exact h.arrowType_follows m _ (by grind)

theorem nameType_follows (m : Mark) (hm : places m ⊆ known) :
    Follows refused known (r.nameType m) (r'.nameType m) := by
  refine .seq (finish_follows m (by grind)) fun span => ?_
  refine .seq previous_follows fun name => ?_
  refine .seq (consume_follows _) fun atArrow => ?_
  refine .ite ?_ (.pure _ (by grind))
  refine .seq (convertTypeParams_follows _ (by grind)) fun params => ?_
  exact h.arrowType_follows m _ (by grind)

theorem typeHead_follows (m : Mark) (hm : places m ⊆ known) :
    Follows refused known (r.typeHead m) (r'.typeHead m) := by
  refine .seq (consumeContextKeyword_follows _) fun _ => ?_
  refine .ite (finished_follows m (by grind) fun _ _ h => h) ?_
  refine .seq (consume_follows _) fun _ => .ite (h.nameType_follows m (by grind)) ?_
  refine .seq (consumeKeyword_follows _) fun _ => .ite (h.functionType_follows m (by grind)) ?_
  refine .seq (consume_follows _) fun _ => .ite (h.bracketType_follows m (by grind)) ?_
  refine .seq (consume_follows _) fun _ => .ite ?_ ?_
  · refine .seq (h.separatedUntil_follows _ fun _ => h.typedIdentifier_follows) fun fields => ?_
    exact .seq (expect_follows _) fun _ => finished_follows m (by grind) fun _ _ h => h
  refine .seq (consume_follows _) fun _ => .ite (h.parensType_follows m (by grind)) ?_
  refine .seq (consumeKeyword_follows _) fun _ => ?_
  refine .ite (finished_follows m (by grind) fun _ _ h => h) ?_
  refine .seq (consumeOperator_follows _) fun _ => ?_
  refine .ite (finished_follows m (by grind) fun _ _ h => h) ?_
  refine .seq (consumeKeyword_follows _) fun _ => ?_
  refine .ite (finished_follows m (by grind) fun _ _ h => h) ?_
  exact .seq (consumeOperator_follows _) fun _ => .ite (h.typeExpr _) unexpected_follows

theorem typeMember_follows (m : Mark) (base : TypeExpr) (hm : places m ⊆ known) :
    Follows refused known (r.typeMember m base) (r'.typeMember m base) := by
  refine .seq (consumeOperator_follows _) fun applied => ?_
  refine .ite ?_ ?_
  · exact .seq h.typeArguments_follows fun _ => finished_follows m (by grind) fun _ _ h => h
  · exact .seq wordIdentifier_follows fun _ => finished_follows m (by grind) fun _ _ h => h

theorem typeSuffix?_follows (base : TypeExpr) (hbase : places base ⊆ known) :
    Follows refused known (r.typeSuffix? base) (r'.typeSuffix? base) := by
  have hm : places (Mark.ofSpan base.span) ⊆ known := by grind
  refine .seq (consume_follows _) fun _ => ?_
  refine .ite (.seq (finish_follows _ (by grind)) fun span => .pure _ (by grind)) ?_
  refine .seq (consume_follows _) fun _ => ?_
  refine .ite (finished_follows _ (by grind) fun _ _ h => h) ?_
  refine .seq (consume_follows _) fun _ => ?_
  refine .ite (.seq (h.typeMember_follows _ base (by grind)) fun _ => .pure _ (by grind)) ?_
  refine .seq (consume_follows _) fun _ => .ite (.seq (h.typeExpr _) fun type =>
    .pure _ (by grind)) ?_
  refine .seq (consumeOperator_follows _) fun _ => ?_
  exact .ite (.seq (h.typeExpr _) fun right => .pure _ (by grind)) (.pure none (List.nil_subset _))

theorem typeSuffixes_follows :
    ∀ fuel base known, places base ⊆ known →
      Follows refused known (r.typeSuffixes fuel base) (r'.typeSuffixes fuel base)
  | 0, _, _, _ => exhausted_follows
  | fuel + 1, base, known, hbase => by
    refine .seq (h.typeSuffix?_follows base hbase) fun found => ?_
    cases found with
    | none => exact .pure base (by grind)
    | some longer => exact typeSuffixes_follows fuel longer _ (by grind)

theorem typeExprRule_follows : Follows refused known r.typeExprRule r'.typeExprRule := by
  refine .seq mark_follows fun m => ?_
  refine .seq (h.typeHead_follows m (by grind)) fun head => ?_
  exact h.loop (fun fuel => h.typeSuffixes_follows fuel head _ (by grind)) (r'.typeSuffixes_shortens head)

end Alike

end ActionSyntax
