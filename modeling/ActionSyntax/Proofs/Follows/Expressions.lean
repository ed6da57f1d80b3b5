import ActionSyntax.Grammar.Expressions
import ActionSyntax.Proofs.Follows.Functions

/-!
How nodes and expressions are read, side by side.
-/

namespace ActionSyntax.Alike

set_option autoImplicit false

open Parse Rules

variable {refused : ParserState → Prop} {r r' : Rules} {known : List Place}

theorem last_mem_places {items : List Expr} (first : Expr) (hitems : places (first :: items) ⊆ known) :
    (((items.getLast?.getD first).span).lastLine, ((items.getLast?.getD first).span).stop) ∈ known := by
  refine hitems ?_
  cases hlast : items.getLast? with
  | none => exact List.mem_append_left _ (last_mem_places_expr first)
  | some e =>
    have hmem : e ∈ first :: items := List.mem_cons_of_mem _ (List.mem_of_getLast? hlast)
    exact List.mem_flatMap.mpr ⟨e, hmem, last_mem_places_expr e⟩

theorem parensContent_follows (items : List Expr) (hitems : places items ⊆ known) :
    Follows refused known (parensContent items) (parensContent items) := by
  unfold parensContent
  split
  · exact unexpected_follows
  · exact .pure _ (by grind)
  · rename_i first rest _
    have hlast := last_mem_places first hitems
    have hfirst := hitems (List.mem_append_left _ (first_mem_places_expr first))
    refine .pure _ ?_
    show places (first.span.«to» _) ++ [] ⊆ known
    grind

theorem assignmentTarget_follows (e : Expr) (he : places e ⊆ known) :
    Follows refused known (assignmentTarget e) (assignmentTarget e) := by
  unfold assignmentTarget
  split
  · exact .seq (asPattern_follows _ he) fun _ => .pure _ (List.nil_subset _)
  · exact .seq (asPattern_follows _ he) fun _ => .pure _ (List.nil_subset _)
  · exact .pure _ (by grind)

theorem noteUse_follows (op : Operator) (span : Span) (hspan : places span ⊆ known) :
    Follows refused known (noteUse op span) (noteUse op span) := by
  intro s hs hknown
  have hreport : ∀ id, Lands s (syntaxError id span s) := fun id =>
    (syntaxError_follows id span hspan s hs hknown : Meets refused s _ _).lands
  have hnote : ∀ functions, Strides s { s with functions } := fun functions =>
    .note (.refl s) functions s.superFound
  refine .of_lands ?_
  unfold noteUse
  rw [get_bind]
  generalize s.functions = functions
  split
  · split
    · exact hreport _
    · exact ⟨hnote _, nofun⟩
  · split
    · exact hreport _
    · exact ⟨hnote _, nofun⟩
  · exact hreport _
  · exact ⟨.refl s, nofun⟩

theorem regularExpression_meets (m : Mark) (hm : places m ⊆ known) {s : ParserState}
    (hs : s.Sound) (hknown : s.Knows known) (hslash : beginsRegularExpression s.token = true) :
    Meets refused s (regularExpression m s) (regularExpression m s) := by
  refine Follows.bind_meets hs (scanRegular_meets hslash) fun _ t _ hwalk ht _ => ?_
  refine (?_ : Follows refused known _ _) t ht (hknown.walk hs hwalk)
  refine .seq next_follows fun _ => ?_
  exact .seq previous_follows fun _ => finished_follows m (by grind) fun _ _ h => h

theorem tagName_follows :
    ∀ fuel base known, places base ⊆ known →
      Follows refused known (r.tagName fuel base) (r'.tagName fuel base)
  | 0, _, _, _ => exhausted_follows
  | fuel + 1, base, known, hbase => by
    refine .seq (consume_follows _) fun longer => ?_
    refine .ite ?_ (.pure base (by grind))
    refine .seq identifier_follows fun id => ?_
    refine .seq (finish_follows _ (by grind)) fun span => ?_
    exact tagName_follows fuel _ _ (List.subset_append_of_subset_left _ fun _ h => h)

variable (h : Alike refused r r')
include h

theorem bracedExpr_follows : Follows refused known r.bracedExpr r'.bracedExpr :=
  .seq (h.expr_follows _) fun _ => .seq (expect_follows _) fun _ => .pure _ (by grind)

theorem nodeChild?_follows : Follows refused known r.nodeChild? r'.nodeChild? := by
  refine .seq (consume_follows _) fun closes => .ite (.pure none (List.nil_subset _)) ?_
  refine .seq (at?_follows .leftBrace) fun isSpread => ?_
  refine .ite ?_ (.seq (h.node _) fun _ => .pure _ (by grind))
  refine .seq mark_follows fun m => ?_
  refine .seq next_follows fun _ => ?_
  refine .seq h.bracedExpr_follows fun e => ?_
  exact .seq (finish_follows m (by grind)) fun span => .pure _ (by grind)

theorem nodeChildren_follows : Follows refused known r.nodeChildren r'.nodeChildren :=
  h.collectWhile_follows fun _ => h.nodeChild?_follows

theorem attributeValue_follows : Follows refused known r.attributeValue r'.attributeValue :=
  .seq (consume_follows _) fun _ => .ite h.bracedExpr_follows (h.primary_follows false)

theorem optAttributeValue_follows :
    Follows refused known r.optAttributeValue r'.optAttributeValue := by
  refine .seq (consume_follows _) fun present => ?_
  exact .ite (.seq h.attributeValue_follows fun _ =>
    .pure _ (by grind)) (.pure none (List.nil_subset _))

theorem nodeAttribute?_follows : Follows refused known r.nodeAttribute? r'.nodeAttribute? := by
  refine .seq (atOperator?_follows _) fun closes => .ite (.pure none (List.nil_subset _)) ?_
  refine .seq (atOperator?_follows _) fun ends => .ite (.pure none (List.nil_subset _)) ?_
  refine .seq mark_follows fun m => ?_
  refine .seq identifier_follows fun id => ?_
  exact .seq h.optAttributeValue_follows fun value => finished_follows m (by grind) fun _ =>
    List.nil_subset _

theorem closingName_follows : Follows refused known r.closingName r'.closingName := by
  refine .seq expectName_follows fun _ => ?_
  refine .seq (h.collectWhile_follows fun known => ?_) fun _ => .pure () (List.nil_subset _)
  refine .seq (consume_follows _) fun longer => ?_
  exact .ite (.map expectName_follows (by grind)) (.pure none (List.nil_subset _))

theorem nodeBody_follows : Follows refused known r.nodeBody r'.nodeBody := by
  refine .seq (consumeOperator_follows _) fun closes => ?_
  refine .ite (.seq (expectOperator_follows _) fun _ => .pure none (List.nil_subset _)) ?_
  refine .seq (expectOperator_follows _) fun _ => ?_
  refine .seq h.nodeChildren_follows fun children => ?_
  refine .seq h.closingName_follows fun _ => ?_
  exact .seq (expectOperator_follows _) fun _ => .pure _ (by grind)

theorem nodeRule_follows (outermost : Bool) :
    Follows refused known (r.nodeRule outermost) (r'.nodeRule outermost) := by
  refine .seq mark_follows fun m => ?_
  refine .seq (expectOperator_follows _) fun _ => ?_
  refine .branch (consumeOperator_follows _) (.pure false (List.nil_subset _)) fun isList => ?_
  refine .ite ?_ ?_
  · refine .seq h.nodeChildren_follows fun children => ?_
    exact .seq (expectOperator_follows _) fun _ => finished_follows m (by grind) fun _ _ h => h
  · refine .seq identifier_follows fun first => ?_
    refine .seq (h.loop (fun fuel => tagName_follows fuel _ _ (by grind)) (r'.tagName_shortens _))
      fun id => ?_
    refine .seq (h.collectWhile_follows fun _ => h.nodeAttribute?_follows) fun attributes => ?_
    exact .seq h.nodeBody_follows fun children => finished_follows m (by grind) fun _ _ h => h

theorem arguments_follows : Follows refused known r.arguments r'.arguments := by
  refine .seq (h.separatedUntil_follows _ fun _ => h.assignmentExpr_follows true) fun items => ?_
  exact .seq (expect_follows _) fun _ => .pure _ (by grind)

theorem dotContinuation_follows (m : Mark) (base : Expr) (hm : places m ⊆ known) :
    Follows refused known (r.dotContinuation m base) (r'.dotContinuation m base) := by
  refine .seq (consumeOperator_follows _) fun applied => ?_
  exact .ite (.seq h.typeArguments_follows fun _ => finished_follows m (by grind) fun _ _ h => h)
    (.seq wordIdentifier_follows fun _ => finished_follows m (by grind) fun _ _ h => h)

theorem indexContinuation_follows (m : Mark) (base : Expr) (optional : Bool)
    (hm : places m ⊆ known) : Follows refused known (r.indexContinuation m base optional)
      (r'.indexContinuation m base optional) := by
  refine .seq (h.expr_follows _) fun key => ?_
  exact .seq (expect_follows _) fun _ => finished_follows m (by grind) fun _ _ h => h

theorem callContinuation_follows (m : Mark) (base : Expr) (optional : Bool)
    (hm : places m ⊆ known) : Follows refused known (r.callContinuation m base optional)
      (r'.callContinuation m base optional) :=
  .seq h.arguments_follows fun _ => finished_follows m (by grind) fun _ _ h => h

theorem identifierPrimary_follows (allowTyped : Bool) :
    Follows refused known (r.identifierPrimary allowTyped) (r'.identifierPrimary allowTyped) := by
  refine .seq previous_follows fun t => ?_
  have hm : places (Mark.ofSpan t.span) ⊆ places t ++ known := by grind
  refine .branch (consume_follows _) (.pure false (List.nil_subset _)) fun isTyped => ?_
  refine .ite (.seq (h.typeExpr _) fun type => finished_follows _ (by grind) fun _ _ h => h) ?_
  refine .seq (at?_follows .string) fun behind => ?_
  refine .ite ?_ ?_
  · refine .seq next_follows fun _ => ?_
    refine .seq previous_follows fun source => ?_
    exact .seq h.optAnnotation_follows fun type => finished_follows _ (by grind) fun _ _ h => h
  refine .seq (finish_follows _ (by grind)) fun span => ?_
  refine .seq (consume_follows _) fun atArrow => ?_
  refine .ite ?_ (.pure _ (by grind))
  refine .seq (arrowParams_follows _ (by grind)) fun params => ?_
  exact h.arrowFunction_follows _ params none (by grind)

theorem parensItems_follows :
    ∀ fuel items known, places items ⊆ known →
      Follows refused known (r.parensItems fuel items) (r'.parensItems fuel items)
  | 0, _, _, _ => exhausted_follows
  | fuel + 1, items, known, hitems => by
    refine .seq (consume_follows _) fun atRest => .ite (.pure _ (by grind)) ?_
    refine .seq (h.assignmentExpr_follows true) fun e => ?_
    refine .seq (consume_follows _) fun more => ?_
    exact .ite (parensItems_follows fuel _ _ (by grind)) (.pure _ (by grind))

theorem restArrowFunction_follows (m : Mark) (items : List Expr) (hm : places m ⊆ known)
    (hitems : places items ⊆ known) :
    Follows refused known (r.restArrowFunction m items) (r'.restArrowFunction m items) := by
  refine .seq (arrowParams_follows items hitems) fun params => ?_
  refine .seq h.restParam_follows fun rest => ?_
  refine .seq (expect_follows _) fun _ => ?_
  refine .seq h.optAnnotation_follows fun result => ?_
  refine .seq (expect_follows _) fun _ => ?_
  exact h.arrowFunction_follows m _ result (by grind)

theorem parensOrArrow_follows (m : Mark) (hm : places m ⊆ known) :
    Follows refused known (r.parensOrArrow m) (r'.parensOrArrow m) := by
  refine .seq (consume_follows _) fun atOnce => ?_
  refine .ite (.seq (expect_follows _) fun _ => h.arrowFunction_follows m _ none (by grind)) ?_
  refine .seq (h.loop (fun fuel => h.parensItems_follows fuel _ _ (List.nil_subset _))
    (r'.parensItems_shortens _)) fun ⟨items, atRest⟩ => ?_
  refine .ite (h.restArrowFunction_follows m items (by grind) (by grind)) ?_
  refine .seq (expect_follows _) fun _ => ?_
  refine .seq (consume_follows _) fun typed => ?_
  refine .ite ?_ ?_
  · refine .seq (arrowParams_follows items (by grind)) fun params => ?_
    refine .seq (h.typeExpr _) fun result => ?_
    exact .seq (expect_follows _) fun _ => h.arrowFunction_follows m params _ (by grind)
  refine .seq (consume_follows _) fun atArrow => ?_
  refine .ite ?_ ?_
  · refine .seq (arrowParams_follows items (by grind)) fun params => ?_
    exact h.arrowFunction_follows m params none (by grind)
  · exact .seq (parensContent_follows items (by grind)) fun content =>
      finished_follows m (by grind) fun _ _ h => h

theorem parensPrimary_follows (m : Mark) (level : Precedence) (hm : places m ⊆ known) :
    Follows refused known (r.parensPrimary m level) (r'.parensPrimary m level) := by
  refine .ite ?_ (h.parensOrArrow_follows m hm)
  refine .seq (h.expr_follows _) fun e => ?_
  exact .seq (expect_follows _) fun _ => finished_follows m (by grind) fun _ _ h => h

theorem objectKey_follows : Follows refused known r.objectKey r'.objectKey := by
  refine .seq (consume_follows _) fun computed => .ite ?_ ?_
  · refine .seq (h.assignmentExpr_follows true) fun key => ?_
    exact .seq (expect_follows _) fun _ => .pure key (by grind)
  refine .seq (consume_follows _) fun number => .ite ?_ ?_
  · exact .seq previous_follows fun t => .pure _ (List.subset_append_of_subset_left _ fun _ h => h)
  refine .seq (expect_follows _) fun _ => ?_
  exact .seq previous_follows fun t => .pure _ (List.subset_append_of_subset_left _ fun _ h => h)

theorem objectField_follows : Follows refused known r.objectField r'.objectField := by
  have hname : ∀ t : Token, places (Expr.string t.span t.text) = places t := fun t => rfl
  refine .seq consumeIdentifier_follows fun named => .ite ?_ ?_
  · refine .seq previous_follows fun t => ?_
    refine .seq (consume_follows _) fun valued => ?_
    exact .ite (.seq (h.assignmentExpr_follows true) fun _ => .pure _ (by grind)) (.pure _ (by grind))
  refine .seq h.objectKey_follows fun key => ?_
  refine .seq (expect_follows _) fun _ => ?_
  exact .seq (h.assignmentExpr_follows true) fun _ => .pure _ (by grind)

theorem objectItem_follows : Follows refused known r.objectItem r'.objectItem := by
  refine .seq mark_follows fun m => ?_
  refine .seq (consume_follows _) fun isSpread => .ite ?_ ?_
  · exact .seq (h.assignmentExpr_follows true) fun e => finished_follows m (by grind) fun _ _ h => h
  refine .seq h.objectField_follows fun ⟨key, value⟩ => ?_
  exact .seq (finish_follows m (by grind)) fun span => .pure _ (by grind)

theorem objectInitializer_follows (m : Mark) (hm : places m ⊆ known) :
    Follows refused known (r.objectInitializer m) (r'.objectInitializer m) := by
  refine .seq (h.separatedUntil_follows _ fun _ => h.objectItem_follows) fun fields => ?_
  refine .seq (expect_follows _) fun _ => ?_
  refine .seq h.optAnnotation_follows fun type => ?_
  exact .seq (finish_follows m (by grind)) fun span => .pure _ (by grind)

theorem arrayItem_follows : Follows refused known r.arrayItem r'.arrayItem := by
  refine .seq mark_follows fun m => ?_
  refine .seq (consume_follows _) fun isSpread => ?_
  refine .ite ?_ (h.assignmentExpr_follows true)
  refine .seq (h.assignmentExpr_follows true) fun e => ?_
  exact .seq (finish_follows m (by grind)) fun span => .pure _ (by grind)

theorem arrayItems_follows :
    ∀ fuel known, Follows refused known (r.arrayItems fuel) (r'.arrayItems fuel)
  | 0, _ => exhausted_follows
  | fuel + 1, known => by
    have ih := arrayItems_follows fuel
    refine .seq (consume_follows _) fun hole => .ite (.seq (ih _) fun _ => .pure _ (by grind)) ?_
    refine .seq (at?_follows .rightBracket) fun closed => .ite (.pure _ (List.nil_subset _)) ?_
    refine .seq h.arrayItem_follows fun item => ?_
    refine .seq (consume_follows _) fun more => ?_
    exact .ite (.seq (ih _) fun _ => .pure _ (by grind)) (.pure _ (by grind))

theorem arrayInitializer_follows (m : Mark) (hm : places m ⊆ known) :
    Follows refused known (r.arrayInitializer m) (r'.arrayInitializer m) := by
  refine .seq (h.loop (fun fuel => h.arrayItems_follows fuel _) r'.arrayItems_shortens) fun items => ?_
  refine .seq (expect_follows _) fun _ => ?_
  refine .seq h.optAnnotation_follows fun type => ?_
  exact .seq (finish_follows m (by grind)) fun span => .pure _ (by grind)

theorem newBase_follows :
    ∀ fuel base known, places base ⊆ known →
      Follows refused known (r.newBase fuel base) (r'.newBase fuel base)
  | 0, _, _, _ => exhausted_follows
  | fuel + 1, base, known, hbase => by
    have hm : places (Mark.ofSpan base.span) ⊆ known := by grind
    refine .seq (consume_follows _) fun dotted => .ite ?_ ?_
    · refine .seq (h.dotContinuation_follows _ base (by grind)) fun longer => ?_
      exact newBase_follows fuel longer _ (by grind)
    refine .seq get_follows fun s => .ite ?_ (.pure base (by grind))
    refine .seq next_follows fun _ => ?_
    refine .seq (h.indexContinuation_follows _ base false (by grind)) fun longer => ?_
    exact newBase_follows fuel longer _ (by grind)

theorem newExpr_follows (m : Mark) (hm : places m ⊆ known) :
    Follows refused known (r.newExpr m) (r'.newExpr m) := by
  refine .seq (h.primary_follows false) fun first => ?_
  refine .seq (h.loop (fun fuel => h.newBase_follows fuel first _ (by grind)) (r'.newBase_shortens first))
    fun base => ?_
  refine .seq (consume_follows _) fun called => ?_
  exact .branch h.arguments_follows (.pure [] (List.nil_subset _)) fun arguments =>
    finished_follows m (by grind) fun _ _ h => h

theorem simplePrimary?_follows (m : Mark) (hm : places m ⊆ known) :
    Follows refused known (r.simplePrimary? m) (r'.simplePrimary? m) := by
  refine .seq (consumeKeyword_follows _) fun _ => .ite ?_ ?_
  · refine .seq (expect_follows _) fun _ => ?_
    refine .seq (h.typeExpr _) fun type => ?_
    exact .seq (expect_follows _) fun _ => finished_follows m (by grind) fun _ _ h => h
  refine .seq (consumeKeyword_follows _) fun _ => .ite (finished_follows m (by grind) fun _ _ h =>
    h) ?_
  refine .seq (consumeKeyword_follows _) fun _ => .ite ?_ ?_
  · refine .seq (expect_follows _) fun _ => ?_
    exact .seq (expectContextKeyword_follows _) fun _ => finished_follows m (by grind) fun _ _ h =>
      h
  refine .seq (consumeKeyword_follows _) fun _ => .ite (finished_follows m (by grind) fun _ _ h =>
    h) ?_
  have hliteral : ∀ {known : List Place} {f : Span → Token → Expr}, places m ⊆ known →
      (∀ span t, places (some (f span t)) ⊆ places span) →
      Follows refused known (do return some (f (← finish m) (← previous)))
        (do return some (f (← finish m) (← previous))) := fun hm hf =>
    .seq (finish_follows m hm) fun span => .seq previous_follows fun t =>
      .pure _ (List.Subset.trans (hf span t) (by grind))
  refine .seq (consume_follows _) fun _ => .ite (hliteral (by grind) fun _ _ _ h => h) ?_
  refine .seq (consume_follows _) fun _ => .ite (hliteral (by grind) fun _ _ _ h => h) ?_
  refine .seq (consumeKeyword_follows _) fun _ => .ite (finished_follows m (by grind) fun _ _ h =>
    h) ?_
  refine .seq (consumeKeyword_follows _) fun _ => .ite (finished_follows m (by grind) fun _ _ h =>
    h) ?_
  intro s hs hknown
  rw [token_bind]
  split
  · rename_i hslash
    have hregular : Meets refused s (regularExpression m s) _ :=
      regularExpression_meets m (by grind) hs hknown hslash
    refine Follows.bind_meets hs hregular fun e t _ _ ht he => ?_
    exact Follows.pure (some e) (List.Subset.refl _) t ht (by simpa using he)
  · refine (?_ : Follows refused _ _ _) s hs hknown
    exact .seq (consumeKeyword_follows _) fun _ => .ite (finished_follows m (by grind) fun _ _ h =>
      h) (.pure none (List.nil_subset _))

theorem optPrimaryRule_follows (allowTyped : Bool) (level : Precedence) :
    Follows refused known (r.optPrimaryRule allowTyped level)
      (r'.optPrimaryRule allowTyped level) := by
  refine .seq mark_follows fun m => ?_
  refine .seq consumeIdentifier_follows fun _ => ?_
  refine .ite (.seq (h.identifierPrimary_follows allowTyped) fun _ => .pure _ (by grind)) ?_
  refine .seq (h.simplePrimary?_follows m (by grind)) fun found => ?_
  cases found with
  | some e => exact .pure _ (by grind)
  | none =>
    refine .seq (consume_follows _) fun _ => ?_
    refine .ite (.seq (h.parensPrimary_follows m level (by grind)) fun _ => .pure _ (by grind)) ?_
    refine .seq (consume_follows _) fun _ => ?_
    refine .ite (.seq (h.objectInitializer_follows m (by grind)) fun _ => .pure _ (by grind)) ?_
    refine .seq (consume_follows _) fun _ => ?_
    refine .ite (.seq (h.arrayInitializer_follows m (by grind)) fun _ => .pure _ (by grind)) ?_
    refine .seq (consumeKeyword_follows _) fun _ => ?_
    refine .ite (.seq (h.newExpr_follows m (by grind)) fun _ => .pure _ (by grind)) ?_
    refine .seq (atOperator?_follows _) fun atNode => ?_
    exact .ite (.seq (h.nodeRule_follows true) fun _ =>
      .pure _ (by grind)) (.pure none (List.nil_subset _))

theorem castContinuation_follows (m : Mark) (base : Expr) (hm : places m ⊆ known) :
    Follows refused known (r.castContinuation m base) (r'.castContinuation m base) := by
  refine .seq (consume_follows _) fun strict => ?_
  refine .ite (.seq (consume_follows _) fun _ => ?_) ?_
  · exact .seq (h.typeExpr _) fun right => finished_follows m (by grind) fun _ _ h => h
  · exact .seq (h.typeExpr _) fun right => finished_follows m (by grind) fun _ _ h => h

theorem listContinuation_follows (allowIn : Bool) (m : Mark) (base : Expr)
    (hm : places m ⊆ known) : Follows refused known (r.listContinuation allowIn m base)
      (r'.listContinuation allowIn m base) :=
  .seq (h.separated_follows fun _ => h.assignmentExpr_follows allowIn) fun _ =>
    finished_follows m (by grind) fun _ _ h => h

theorem conditionalContinuation_follows (allowIn : Bool) (m : Mark) (base : Expr)
    (hm : places m ⊆ known) : Follows refused known (r.conditionalContinuation allowIn m base)
      (r'.conditionalContinuation allowIn m base) := by
  refine .seq (h.expr_follows _) fun consequent => ?_
  refine .seq (expect_follows _) fun _ => ?_
  exact .seq (h.assignmentExpr_follows allowIn) fun alternative =>
    finished_follows m (by grind) fun _ _ h => h

theorem optionalContinuation_follows (m : Mark) (base : Expr) (hm : places m ⊆ known) :
    Follows refused known (r.optionalContinuation m base) (r'.optionalContinuation m base) := by
  refine .seq (consume_follows _) fun called => ?_
  refine .ite (h.callContinuation_follows m base true (by grind)) ?_
  refine .seq (consume_follows _) fun indexed => ?_
  refine .ite (h.indexContinuation_follows m base true (by grind)) ?_
  exact .seq wordIdentifier_follows fun id => finished_follows m (by grind) fun _ _ h => h

theorem continueWith_follows (allowIn : Bool) (m : Mark) (base : Expr) (compound : Option Operator)
    (way : Continuation) (hm : places m ⊆ known) (hbase : places base ⊆ known) :
    Follows refused known (r.continueWith allowIn m base compound way)
      (r'.continueWith allowIn m base compound way) := by
  cases way with
  | binary rule => exact .seq (h.expr_follows _) fun _ =>
      finished_follows m (by grind) fun _ _ h => h
  | within => exact .seq (h.expr_follows _) fun _ => finished_follows m (by grind) fun _ _ h => h
  | behind op => exact finished_follows m (by grind) fun _ _ h => h
  | cast => exact h.castContinuation_follows m base hm
  | typeTest op => exact .seq (h.typeExpr _) fun _ => finished_follows m (by grind) fun _ _ h => h
  | assign =>
    refine .seq (assignmentTarget_follows base hbase) fun left => ?_
    refine .seq (h.assignmentExpr_follows allowIn) fun right => ?_
    refine .seq (finish_follows m (by grind)) fun span => ?_
    cases left with
    | expression target => exact .pure _ (by grind)
    | pattern target => exact .pure _ (by grind)
  | compoundAssign =>
    refine .seq (h.assignmentExpr_follows allowIn) fun right => ?_
    exact .seq (finish_follows m (by grind)) fun span => .pure _ (by grind)
  | conditional => exact h.conditionalContinuation_follows allowIn m base hm
  | list => exact h.listContinuation_follows allowIn m base hm
  | dot => exact h.dotContinuation_follows m base hm
  | index => exact h.indexContinuation_follows m base false hm
  | call => exact h.callContinuation_follows m base false hm
  | optionalChain => exact h.optionalContinuation_follows m base hm

theorem continuations_follows (allowIn : Bool) (level : Precedence) :
    ∀ fuel base known, places base ⊆ known →
      Follows refused known (r.continuations allowIn level fuel base)
        (r'.continuations allowIn level fuel base)
  | 0, _, _, _ => exhausted_follows
  | fuel + 1, base, known, hbase => by
    refine .seq get_follows fun s => ?_
    cases continuation? allowIn level s with
    | none => exact .pure base (by grind)
    | some way =>
      refine .seq next_follows fun _ => ?_
      refine .seq (h.continueWith_follows allowIn _ base _ way (by grind) (by grind)) fun longer => ?_
      exact continuations_follows allowIn level fuel longer _ (by grind)

theorem continued_follows (base : Expr) (allowIn : Bool) (level : Precedence)
    (hbase : places base ⊆ known) :
    Follows refused known (r.continued base allowIn level) (r'.continued base allowIn level) := by
  unfold continued
  exact h.loop (fun fuel => h.continuations_follows allowIn level fuel base _ hbase)
    (r'.continuations_shortens allowIn level base)

theorem unaryExpr_follows (rule : OperatorRule) (allowIn : Bool) :
    Follows refused known (r.unaryExpr rule allowIn) (r'.unaryExpr rule allowIn) := by
  refine .seq mark_follows fun m => ?_
  refine .seq next_follows fun _ => ?_
  refine .seq (h.expr_follows _) fun operand => ?_
  refine .seq (finish_follows m (by grind)) fun span => ?_
  exact .seq (noteUse_follows _ span (by grind)) fun _ => .pure _ (by grind)

theorem operand?_follows (mode : ExprMode) :
    Follows refused known (r.operand? mode) (r'.operand? mode) := by
  refine .seq (h.optPrimaryRule_follows _ _) fun found => ?_
  cases found with
  | some e => exact .pure _ (by grind)
  | none =>
    refine .seq token_follows fun t => ?_
    cases (OperatorRule.front? t).filter (mode.level ≤ ·.level) with
    | some rule => exact .seq (h.unaryExpr_follows rule _) fun _ => .pure _ (by grind)
    | none => exact .ite (.seq h.functionExpr_follows fun _ =>
        .pure _ (by grind)) (.pure none (List.nil_subset _))

theorem optExprRule_follows (mode : ExprMode) :
    Follows refused known (r.optExprRule mode) (r'.optExprRule mode) := by
  refine .seq (h.operand?_follows mode) fun found => ?_
  cases found with
  | none => exact .pure none (List.nil_subset _)
  | some base => exact .seq (h.continued_follows base _ _ (by grind)) fun _ => .pure _ (by grind)

theorem exprRule_follows (mode : ExprMode) :
    Follows refused known (r.exprRule mode) (r'.exprRule mode) := by
  refine .seq (h.optExprRule_follows mode) fun found => ?_
  cases found with
  | none => exact unexpected_follows
  | some e => exact .pure e (by grind)

end ActionSyntax.Alike
