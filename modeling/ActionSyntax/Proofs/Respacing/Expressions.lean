import ActionSyntax.Proofs.Respacing.Functions
import ActionSyntax.Proofs.Shadows.Expressions

/-!
How nodes and expressions are read where a gap is exchanged.
-/

namespace ActionSyntax

set_option autoImplicit false

open Parse Rules

section Tokens

variable {t u : Token} {allowIn : Bool} {level : Precedence}

namespace Token.Twin

variable (h : t.Twin u)
include h

theorem front? : OperatorRule.front? t = OperatorRule.front? u := by
  unfold OperatorRule.front?
  rw [h.kind, h.operator, h.text]

theorem between? : OperatorRule.between? t = OperatorRule.between? u := by
  unfold OperatorRule.between?
  rw [h.kind, h.operator]

theorem behind? : OperatorRule.behind? t = OperatorRule.behind? u := by
  unfold OperatorRule.behind?
  rw [h.kind, h.operator]

theorem beginsRegularExpression :
    Rules.beginsRegularExpression t = Rules.beginsRegularExpression u := by
  simp only [Rules.beginsRegularExpression, h.isOperator, h.isCompoundAssignment]

end Token.Twin

/-- What goes on with an expression shows in the view of the state. -/
theorem continuation?_view {s s' : ParserState} (h : s.view.Like s'.view) :
    continuation? allowIn level s = continuation? allowIn level s' := by
  have htoken : s.token.Twin s'.token := h.token
  have hline : s.onSameLine = s'.onSameLine := h.onSameLine
  have hcontinues : s.continues = s'.continues := h.continues
  unfold continuation?
  simp only [htoken.between?, htoken.behind?, htoken.isKeyword, htoken.isContextKeyword, htoken.kind,
    hline, hcontinues]

end Tokens

namespace RulesRespace

variable {F : Fork} {r : Rules}

section Values

theorem parensContent_respaces {items items' : List Expr} (h : Matches items items') :
    Respaces F Matches (parensContent items) (parensContent items') := by
  match items, items', h with
  | [], [], _ => exact unexpected_respaces
  | [single], [single'], hsingle => exact .pure (by simpa using hsingle)
  | first :: second :: rest, first' :: second' :: rest', hall => exact .pure (by simpa using hall)
  | [], _ :: _, hno => simp at hno
  | _ :: _, [], hno => simp at hno
  | [_], _ :: _ :: _, hno => simp at hno
  | _ :: _ :: _, [_], hno => simp at hno

theorem assignmentTarget_respaces {e e' : Expr} (h : Matches e e') :
    Respaces F Matches (assignmentTarget e) (assignmentTarget e') := by
  have hinit : e.isInitializer = e'.isInitializer := by
    have hbare : e.bare = e'.bare := h
    rw [← e.isInitializer_bare, hbare, e'.isInitializer_bare]
  rw [assignmentTarget_eq, assignmentTarget_eq, hinit]
  refine .ite (.matched (asPattern_respaces h) fun pattern pattern' hmatch => .pure ?_) (.pure ?_)
  · simp_all
  · simp_all

end Values

theorem noteUse_respaces (op : Operator) (span span' : Span) :
    Respaces F Eq (noteUse op span) (noteUse op span') where
  before {c s t} hcst := by
    obtain ⟨hview, hlike⟩ := F.before_view hcst
    have hfunctions : c.functions = s.functions := congrArg View.functions hview
    have hfunctions' : s.functions = t.functions := hlike.functions
    rw [noteUse_eq, noteUse_eq, noteUse_eq, hfunctions, ← hfunctions']
    cases useOutcome op s.functions with
    | inl id => exact (syntaxError_respaces id span span').before hcst
    | inr functions => exact .kept rfl (F.before_functions hcst functions)
  beyond {s t} hst := by
    have hfunctions : s.functions = t.functions := (F.beyond_view hst).functions
    rw [noteUse_eq, noteUse_eq, ← hfunctions]
    cases useOutcome op s.functions with
    | inl id => exact (syntaxError_respaces id span span').beyond hst
    | inr functions => exact .ok rfl (F.beyond_functions hst functions)
  astray {c} hc := by
    rw [noteUse_eq]
    cases useOutcome op c.functions with
    | inl id => exact (syntaxError_respaces id span span').astray hc
    | inr functions => exact .ok (F.astray_functions hc functions)

theorem regularExpression_respaces (m m' : Mark) :
    Respaces F Matches (regularExpression m) (regularExpression m') := by
  refine .seq regular_respaces fun _ => ?_
  refine .seq next_respaces fun _ => ?_
  refine previous_respaces fun t t' ht => ?_
  exact finished_respaces m m' fun span span' => by simp [ht.text, ht.flags]

theorem tagName_respaces : ∀ (fuel : Nat) {base base' : Expr}, Matches base base' →
    Respaces F Matches (r.tagName fuel base) (r.tagName fuel base')
  | 0, _, _, _ => exhausted_respaces
  | fuel + 1, base, base', hbase => by
    refine .seq (consume_respaces _) fun longer => ?_
    refine .ite ?_ (.pure hbase)
    refine .matched identifier_respaces fun id id' hid => ?_
    refine finish_respaces _ _ fun span span' => ?_
    exact tagName_respaces fuel (by simp_all)

variable (h : RulesRespace F r)
include h

section Nodes

theorem bracedExpr_respaces : Respaces F Matches r.bracedExpr r.bracedExpr :=
  .matched (h.expr_respaces _) fun _ _ he => .seq (expect_respaces _) fun _ => .pure he

theorem nodeChild?_respaces : Respaces F Matches r.nodeChild? r.nodeChild? := by
  refine .seq (consume_respaces _) fun closes => .ite (.pure rfl) ?_
  refine .seq (at?_respaces .leftBrace) fun isSpread => ?_
  refine .ite ?_ (.matched h.node fun e e' he => .pure (by simp_all))
  refine mark_respaces fun m m' => ?_
  refine .seq next_respaces fun _ => ?_
  refine .matched h.bracedExpr_respaces fun e e' he => ?_
  exact finished_respaces m m' fun span span' => by simp_all

theorem nodeChildren_respaces : Respaces F Matches r.nodeChildren r.nodeChildren :=
  collectWhile_respaces h.nodeChild?_respaces _

theorem attributeValue_respaces :
    Respaces F Matches r.attributeValue r.attributeValue :=
  .seq (consume_respaces _) fun _ =>
    .ite h.bracedExpr_respaces (h.primary_respaces false)

theorem optAttributeValue_respaces :
    Respaces F Matches r.optAttributeValue r.optAttributeValue := by
  refine .seq (consume_respaces _) fun present => ?_
  exact .ite (.matched h.attributeValue_respaces fun e e' he => .pure (by simp_all)) (.pure rfl)

theorem nodeAttribute?_respaces :
    Respaces F Matches r.nodeAttribute? r.nodeAttribute? := by
  refine .seq (atOperator?_respaces _) fun closes => .ite (.pure rfl) ?_
  refine .seq (atOperator?_respaces _) fun ends => .ite (.pure rfl) ?_
  refine mark_respaces fun m m' => ?_
  refine .matched identifier_respaces fun id id' hid => ?_
  refine .matched h.optAttributeValue_respaces fun value value' hvalue => ?_
  exact finished_respaces m m' fun span span' => by simp_all

omit h in
theorem closingName_respaces : Respaces F Eq r.closingName r.closingName := by
  refine .seq expectName_respaces fun _ => ?_
  refine .matched (collectWhile_respaces (α := String) ?_ _) fun _ _ _ => .pure rfl
  refine .seq (consume_respaces _) fun longer => ?_
  exact .ite (.map expectName_respaces (fun name => ⟨name, rfl⟩) fun _ _ heq => by simp [heq])
    (.pure rfl)

theorem nodeBody_respaces : Respaces F Matches r.nodeBody r.nodeBody := by
  refine .seq (consumeOperator_respaces _) fun closes => ?_
  refine .ite (.seq (expectOperator_respaces _) fun _ => .pure rfl) ?_
  refine .seq (expectOperator_respaces _) fun _ => ?_
  refine .matched h.nodeChildren_respaces fun children children' hchildren => ?_
  refine .seq closingName_respaces fun _ => ?_
  exact .seq (expectOperator_respaces _) fun _ => .pure (by simp_all)

theorem nodeRule_respaces (outermost : Bool) :
    Respaces F Matches (r.nodeRule outermost) (r.nodeRule outermost) := by
  refine mark_respaces fun m m' => ?_
  refine .seq (expectOperator_respaces _) fun _ => ?_
  have rest : ∀ isList : Bool, Respaces F Matches
      (do
        if isList then
          let children ← r.nodeChildren
          expectOperator .greater
          return Expr.nodeList (← finish m) children
        let first ← identifier
        let id ← r.tagName r.rounds (.identifier first)
        let attributes ← collectWhile r.nodeAttribute? r.rounds
        let children ← r.nodeBody
        return Expr.node (← finish m) id attributes children)
      (do
        if isList then
          let children ← r.nodeChildren
          expectOperator .greater
          return Expr.nodeList (← finish m') children
        let first ← identifier
        let id ← r.tagName r.rounds (.identifier first)
        let attributes ← collectWhile r.nodeAttribute? r.rounds
        let children ← r.nodeBody
        return Expr.node (← finish m') id attributes children) := by
    rintro isList
    refine .ite ?_ ?_
    · refine .matched h.nodeChildren_respaces fun children children' hchildren => ?_
      exact .seq (expectOperator_respaces _) fun _ =>
        finished_respaces m m' fun span span' => by simp_all
    · refine .matched identifier_respaces fun first first' hfirst => ?_
      refine .matched (tagName_respaces _ (by simp_all)) fun id id' hid => ?_
      refine .matched (collectWhile_respaces h.nodeAttribute?_respaces _)
        fun attributes attributes' hattributes => ?_
      refine .matched h.nodeBody_respaces fun children children' hchildren => ?_
      exact finished_respaces m m' fun span span' => by simp_all
  exact .ite (.seq (consumeOperator_respaces _) rest) (.seq (.pure rfl) rest)

end Nodes

section Operands

theorem arguments_respaces : Respaces F Matches r.arguments r.arguments :=
  .matched (separatedUntil_respaces _ (h.assignmentExpr_respaces true) _)
    fun _ _ hitems => .seq (expect_respaces _) fun _ => .pure hitems

theorem dotContinuation_respaces (m m' : Mark) {base base' : Expr} (hbase : Matches base base') :
    Respaces F Matches (r.dotContinuation m base) (r.dotContinuation m' base') := by
  refine .seq (consumeOperator_respaces _) fun applied => .ite ?_ ?_
  · refine .matched h.typeArguments_respaces fun arguments arguments' hmatch => ?_
    exact finished_respaces m m' fun span span' => by simp_all
  · refine .matched wordIdentifier_respaces fun id id' hid => ?_
    exact finished_respaces m m' fun span span' => by simp_all

theorem indexContinuation_respaces (m m' : Mark) {base base' : Expr} (optional : Bool)
    (hbase : Matches base base') : Respaces F Matches (r.indexContinuation m base optional)
      (r.indexContinuation m' base' optional) := by
  refine .matched (h.expr_respaces _) fun key key' hkey => ?_
  exact .seq (expect_respaces _) fun _ =>
    finished_respaces m m' fun span span' => by simp_all

theorem callContinuation_respaces (m m' : Mark) {base base' : Expr} (optional : Bool)
    (hbase : Matches base base') : Respaces F Matches (r.callContinuation m base optional)
      (r.callContinuation m' base' optional) :=
  .matched h.arguments_respaces fun items items' hitems =>
    finished_respaces m m' fun span span' => by simp_all

theorem identifierPrimary_respaces (allowTyped : Bool) :
    Respaces F Matches (r.identifierPrimary allowTyped) (r.identifierPrimary allowTyped) := by
  refine previous_respaces fun t t' ht => ?_
  have hembed : Respaces F Matches
      (do
        let source := (← previous).text
        let type ← r.optAnnotation
        return Expr.embed (← finish (Mark.ofSpan t.span)) source type)
      (do
        let source := (← previous).text
        let type ← r.optAnnotation
        return Expr.embed (← finish (Mark.ofSpan t'.span)) source type) := by
    refine previous_respaces fun source source' hsource => ?_
    refine .matched h.optAnnotation_respaces fun type type' htype => ?_
    exact finished_respaces _ _ fun span span' => by simp_all [hsource.text]
  have rest : ∀ isTyped : Bool, Respaces F Matches
      (do
        if isTyped then
          let type ← r.typeExpr
          return Expr.identifier
            { span := ← finish (Mark.ofSpan t.span), name := t.text, type := some type }
        if t.isContextKeyword "embed" && (← at? .string) then
          next
          let source := (← previous).text
          let type ← r.optAnnotation
          return .embed (← finish (Mark.ofSpan t.span)) source type
        let id := Expr.identifier { span := ← finish (Mark.ofSpan t.span), name := t.text }
        if ← consume .arrow then
          let params ← arrowParams [id]
          r.arrowFunction (Mark.ofSpan t.span) params none
        else return id)
      (do
        if isTyped then
          let type ← r.typeExpr
          return Expr.identifier
            { span := ← finish (Mark.ofSpan t'.span), name := t'.text, type := some type }
        if t'.isContextKeyword "embed" && (← at? .string) then
          next
          let source := (← previous).text
          let type ← r.optAnnotation
          return .embed (← finish (Mark.ofSpan t'.span)) source type
        let id := Expr.identifier { span := ← finish (Mark.ofSpan t'.span), name := t'.text }
        if ← consume .arrow then
          let params ← arrowParams [id]
          r.arrowFunction (Mark.ofSpan t'.span) params none
        else return id) := by
    intro isTyped
    refine .ite ?_ ?_
    · refine .matched h.typeExpr fun type type' htype => ?_
      exact finished_respaces _ _ fun span span' => by simp_all [ht.text]
    refine .seq (at?_respaces _) fun atString => ?_
    refine .ite_iff (by rw [ht.isContextKeyword]) (.seq next_respaces fun _ => hembed) ?_
    refine finish_respaces _ _ fun span span' => ?_
    refine .seq (consume_respaces _) fun atArrow => ?_
    refine .ite ?_ (.pure (by simp [ht.text]))
    refine .matched (arrowParams_respaces (by simp [ht.text])) fun params params' hparams => ?_
    exact h.arrowFunction_respaces _ _ hparams rfl
  exact .ite (.seq (consume_respaces _) rest)
    (.seq (.pure rfl) rest)

theorem parensItems_respaces : ∀ (fuel : Nat) {items items' : List Expr}, Matches items items' →
    Respaces F Matches (r.parensItems fuel items) (r.parensItems fuel items')
  | 0, _, _, _ => exhausted_respaces
  | fuel + 1, items, items', hitems => by
    refine .seq (consume_respaces _) fun atRest =>
      .ite (.pure (by simp_all)) ?_
    refine .matched (h.assignmentExpr_respaces true) fun e e' he => ?_
    refine .seq (consume_respaces _) fun more => ?_
    have hmore : Matches (items ++ [e]) (items' ++ [e']) := by simp_all
    exact .ite (parensItems_respaces fuel hmore) (.pure (by simp_all))

theorem restArrowFunction_respaces (m m' : Mark) {items items' : List Expr}
    (hitems : Matches items items') : Respaces F Matches (r.restArrowFunction m items)
      (r.restArrowFunction m' items') := by
  refine .matched (arrowParams_respaces hitems) fun params params' hparams => ?_
  refine .matched h.restParam_respaces fun rest rest' hrest => ?_
  refine .seq (expect_respaces _) fun _ => ?_
  refine .matched h.optAnnotation_respaces fun result result' hresult => ?_
  refine .seq (expect_respaces _) fun _ => ?_
  exact h.arrowFunction_respaces m m' (by simp_all) hresult

theorem parensOrArrow_respaces (m m' : Mark) :
    Respaces F Matches (r.parensOrArrow m) (r.parensOrArrow m') := by
  refine .seq (consume_respaces _) fun atOnce => ?_
  refine .ite (.seq (expect_respaces _) fun _ => h.arrowFunction_respaces m m' rfl rfl) ?_
  refine .matched (h.parensItems_respaces _ rfl)
    fun ⟨items, atRest⟩ ⟨items', atRest'⟩ hmatch => ?_
  obtain ⟨hitems, rfl⟩ : Matches items items' ∧ atRest = atRest' := by simpa using hmatch
  refine .ite (h.restArrowFunction_respaces m m' hitems) ?_
  refine .seq (expect_respaces _) fun _ => ?_
  refine .seq (consume_respaces _) fun typed => .ite ?_ ?_
  · refine .matched (arrowParams_respaces hitems) fun params params' hparams => ?_
    refine .matched h.typeExpr fun result result' hresult => ?_
    exact .seq (expect_respaces _) fun _ =>
      h.arrowFunction_respaces m m' hparams (by simp_all)
  refine .seq (consume_respaces _) fun atArrow => .ite ?_ ?_
  · refine .matched (arrowParams_respaces hitems) fun params params' hparams => ?_
    exact h.arrowFunction_respaces m m' hparams rfl
  · exact .matched (parensContent_respaces hitems) fun content content' hcontent =>
      finished_respaces m m' fun span span' => by simp_all

theorem parensPrimary_respaces (m m' : Mark) (level : Precedence) :
    Respaces F Matches (r.parensPrimary m level) (r.parensPrimary m' level) := by
  refine .ite ?_ (h.parensOrArrow_respaces m m')
  refine .matched (h.expr_respaces _) fun e e' he => ?_
  exact .seq (expect_respaces _) fun _ =>
    finished_respaces m m' fun span span' => by simp_all

theorem objectKey_respaces : Respaces F Matches r.objectKey r.objectKey := by
  refine .seq (consume_respaces _) fun computed => .ite ?_ ?_
  · refine .matched (h.assignmentExpr_respaces true) fun key key' hkey => ?_
    exact .seq (expect_respaces _) fun _ => .pure hkey
  refine .seq (consume_respaces _) fun number => .ite ?_ ?_
  · exact previous_respaces fun t t' ht => .pure (by simp [ht.number])
  refine .seq (expect_respaces _) fun _ => ?_
  exact previous_respaces fun t t' ht => .pure (by simp [ht.text])

theorem objectField_respaces : Respaces F Matches r.objectField r.objectField := by
  refine .seq consumeIdentifier_respaces fun named => .ite ?_ ?_
  · refine previous_respaces fun t t' ht => ?_
    refine .seq (consume_respaces _) fun valued => ?_
    exact .ite (.matched (h.assignmentExpr_respaces true) fun value value' hvalue =>
      .pure (by simp_all [ht.text])) (.pure (by simp [ht.text]))
  refine .matched h.objectKey_respaces fun key key' hkey => ?_
  refine .seq (expect_respaces _) fun _ => ?_
  exact .matched (h.assignmentExpr_respaces true) fun value value' hvalue => .pure (by simp_all)

theorem objectItem_respaces : Respaces F Matches r.objectItem r.objectItem := by
  refine mark_respaces fun m m' => ?_
  refine .seq (consume_respaces _) fun isSpread => .ite ?_ ?_
  · refine .matched (h.assignmentExpr_respaces true) fun e e' he => ?_
    exact finished_respaces m m' fun span span' => by simp_all
  refine .matched h.objectField_respaces fun ⟨key, value⟩ ⟨key', value'⟩ hfield => ?_
  exact finished_respaces m m' fun span span' => by simp_all

theorem objectInitializer_respaces (m m' : Mark) :
    Respaces F Matches (r.objectInitializer m) (r.objectInitializer m') := by
  refine .matched (separatedUntil_respaces _ h.objectItem_respaces _)
    fun fields fields' hfields => ?_
  refine .seq (expect_respaces _) fun _ => ?_
  refine .matched h.optAnnotation_respaces fun type type' htype => ?_
  exact finished_respaces m m' fun span span' => by simp_all

theorem arrayItem_respaces : Respaces F Matches r.arrayItem r.arrayItem := by
  refine mark_respaces fun m m' => ?_
  refine .seq (consume_respaces _) fun isSpread => ?_
  refine .ite ?_ (h.assignmentExpr_respaces true)
  refine .matched (h.assignmentExpr_respaces true) fun e e' he => ?_
  exact finished_respaces m m' fun span span' => by simp_all

theorem arrayItems_respaces : ∀ fuel : Nat,
    Respaces F Matches (r.arrayItems fuel) (r.arrayItems fuel)
  | 0 => exhausted_respaces
  | fuel + 1 => by
    have ih := arrayItems_respaces fuel
    refine .seq (consume_respaces _) fun hole =>
      .ite (.matched ih fun rest rest' hrest => .pure (by simp_all)) ?_
    refine .seq (at?_respaces .rightBracket) fun closed => .ite (.pure rfl) ?_
    refine .matched h.arrayItem_respaces fun item item' hitem => ?_
    refine .seq (consume_respaces _) fun more => ?_
    exact .ite (.matched ih fun rest rest' hrest => .pure (by simp_all)) (.pure (by simp_all))

theorem arrayInitializer_respaces (m m' : Mark) :
    Respaces F Matches (r.arrayInitializer m) (r.arrayInitializer m') := by
  refine .matched (h.arrayItems_respaces _) fun items items' hitems => ?_
  refine .seq (expect_respaces _) fun _ => ?_
  refine .matched h.optAnnotation_respaces fun type type' htype => ?_
  exact finished_respaces m m' fun span span' => by simp_all

theorem newBase_respaces : ∀ (fuel : Nat) {base base' : Expr}, Matches base base' →
    Respaces F Matches (r.newBase fuel base) (r.newBase fuel base')
  | 0, _, _, _ => exhausted_respaces
  | fuel + 1, base, base', hbase => by
    refine .seq (consume_respaces _) fun dotted => .ite ?_ ?_
    · exact .matched (h.dotContinuation_respaces _ _ hbase) fun longer longer' hlonger =>
        newBase_respaces fuel hlonger
    have indexed : Respaces F Matches
        (next >>= fun _ => r.indexContinuation (Mark.ofSpan base.span) base false >>= r.newBase fuel)
        (next >>= fun _ => r.indexContinuation (Mark.ofSpan base'.span) base' false >>= r.newBase fuel) :=
      .seq next_respaces fun _ => .matched (h.indexContinuation_respaces _ _ false hbase)
        fun longer longer' hlonger => newBase_respaces fuel hlonger
    refine of_view
      (fun v => if v.token.kind == .leftBracket && v.continues then
        next >>= fun _ => r.indexContinuation (Mark.ofSpan base.span) base false >>= r.newBase fuel
        else pure base)
      (fun v => if v.token.kind == .leftBracket && v.continues then
        next >>= fun _ => r.indexContinuation (Mark.ofSpan base'.span) base' false >>= r.newBase fuel
        else pure base') (fun _ => rfl) (fun _ => rfl) fun v w h => ?_
    rw [h.token.kind, h.continues]
    exact .ite indexed (.pure hbase)

theorem newExpr_respaces (m m' : Mark) :
    Respaces F Matches (r.newExpr m) (r.newExpr m') := by
  refine .matched (h.primary_respaces false) fun first first' hfirst => ?_
  refine .matched (h.newBase_respaces _ hfirst) fun base base' hbase => ?_
  refine .seq (consume_respaces _) fun called => ?_
  have rest : ∀ items items' : List Expr, Matches items items' → Respaces F Matches
      (finish m >>= fun span => Pure.pure (Expr.new span base items))
      (finish m' >>= fun span => Pure.pure (Expr.new span base' items')) := fun items items' hitems =>
    finished_respaces m m' fun span span' => by simp_all
  exact .ite (.matched h.arguments_respaces rest) (rest [] [] rfl)

theorem simplePrimary?_respaces (m m' : Mark) :
    Respaces F Matches (r.simplePrimary? m) (r.simplePrimary? m') := by
  have plain : ∀ e : Span → Expr, (∀ span span', Matches (e span) (e span')) →
      Respaces F Matches (finish m >>= fun span => Pure.pure (some (e span)))
        (finish m' >>= fun span => Pure.pure (some (e span))) := fun e he =>
    finished_respaces m m' fun span span' => by simpa using he span span'
  have literal : ∀ e : Span → Token → Expr,
      (∀ span span' (t t' : Token), t.Twin t' → Matches (e span t) (e span' t')) →
        Respaces F Matches
          (finish m >>= fun span => previous >>= fun t => Pure.pure (some (e span t)))
          (finish m' >>= fun span => previous >>= fun t => Pure.pure (some (e span t))) :=
    fun e he => finish_respaces m m' fun span span' => previous_respaces fun t t' ht =>
      .pure (by simpa using he span span' t t' ht)
  refine .seq (consumeKeyword_respaces _) fun _ => .ite ?_ ?_
  · refine .seq (expect_respaces _) fun _ => ?_
    refine .matched h.typeExpr fun type type' htype => ?_
    exact .seq (expect_respaces _) fun _ =>
      finished_respaces m m' fun span span' => by simp_all
  refine .seq (consumeKeyword_respaces _) fun _ => .ite (plain _ fun _ _ => rfl) ?_
  refine .seq (consumeKeyword_respaces _) fun _ => .ite ?_ ?_
  · refine .seq (expect_respaces _) fun _ => ?_
    exact .seq (expectContextKeyword_respaces _) fun _ => plain _ fun _ _ => rfl
  refine .seq (consumeKeyword_respaces _) fun _ => .ite (plain _ fun _ _ => rfl) ?_
  refine .seq (consume_respaces _) fun _ =>
    .ite (literal (fun span t => .string span t.text) fun _ _ _ _ ht => by simp [ht.text]) ?_
  refine .seq (consume_respaces _) fun _ =>
    .ite (literal (fun span t => .number span t.number) fun _ _ _ _ ht => by simp [ht.number]) ?_
  refine .seq (consumeKeyword_respaces _) fun _ => .ite (plain _ fun _ _ => rfl) ?_
  refine .seq (consumeKeyword_respaces _) fun _ => .ite (plain _ fun _ _ => rfl) ?_
  have rest : Respaces F Matches
      (do
        if ← consumeKeyword "super" then return some (Expr.super (← finish m))
        return none)
      (do
        if ← consumeKeyword "super" then return some (Expr.super (← finish m'))
        return none) :=
    .seq (consumeKeyword_respaces _) fun _ => .ite (plain _ fun _ _ => rfl) (.pure rfl)
  refine token_respaces fun t t' ht => ?_
  rw [ht.beginsRegularExpression]
  exact .ite (.matched (regularExpression_respaces m m') fun e e' he => .pure (by simp_all)) rest

theorem optPrimaryRule_respaces (allowTyped : Bool) (level : Precedence) :
    Respaces F Matches (r.optPrimaryRule allowTyped level)
      (r.optPrimaryRule allowTyped level) := by
  have given : ∀ {x x' : Parse Expr}, Respaces F Matches x x' →
      Respaces F Matches (x >>= fun e => Pure.pure (some e))
        (x' >>= fun e => Pure.pure (some e)) := fun hx =>
    .matched hx fun e e' he => .pure (by simp_all)
  refine mark_respaces fun m m' => ?_
  refine .seq consumeIdentifier_respaces fun _ =>
    .ite (given (h.identifierPrimary_respaces allowTyped)) ?_
  refine .matched (h.simplePrimary?_respaces m m') fun found found' hfound => ?_
  cases found <;> cases found' <;> simp at hfound
  case some.some e e' => exact .pure (by simp_all)
  refine .seq (consume_respaces _) fun _ =>
    .ite (given (h.parensPrimary_respaces m m' level)) ?_
  refine .seq (consume_respaces _) fun _ =>
    .ite (given (h.objectInitializer_respaces m m')) ?_
  refine .seq (consume_respaces _) fun _ =>
    .ite (given (h.arrayInitializer_respaces m m')) ?_
  refine .seq (consumeKeyword_respaces _) fun _ => .ite (given (h.newExpr_respaces m m')) ?_
  exact .seq (atOperator?_respaces _) fun atNode => .ite (given (h.nodeRule_respaces true)) (.pure rfl)

end Operands

section Continuations

theorem castContinuation_respaces (m m' : Mark) {base base' : Expr} (hbase : Matches base base') :
    Respaces F Matches (r.castContinuation m base) (r.castContinuation m' base') := by
  refine .seq (consume_respaces _) fun strict => ?_
  have rest : Respaces F Matches
      (do
        let right ← r.typeExpr
        return Expr.typeBinary (← finish m) (if strict then .asTypeStrict else .asType) base right)
      (do
        let right ← r.typeExpr
        return Expr.typeBinary (← finish m') (if strict then .asTypeStrict else .asType) base'
          right) :=
    .matched h.typeExpr fun right right' hright =>
      finished_respaces m m' fun span span' => by simp_all
  exact .ite (.seq (consume_respaces _) fun _ => rest) rest

theorem listContinuation_respaces (allowIn : Bool)
    (m m' : Mark) {base base' : Expr} (hbase : Matches base base') :
    Respaces F Matches (r.listContinuation allowIn m base)
      (r.listContinuation allowIn m' base') :=
  .matched (separated_respaces (h.assignmentExpr_respaces allowIn) _)
    fun rest rest' hrest => finished_respaces m m' fun span span' => by simp_all

theorem conditionalContinuation_respaces (allowIn : Bool) (m m' : Mark) {base base' : Expr}
    (hbase : Matches base base') : Respaces F Matches
      (r.conditionalContinuation allowIn m base) (r.conditionalContinuation allowIn m' base') := by
  refine .matched (h.expr_respaces _) fun consequent consequent' hconsequent => ?_
  refine .seq (expect_respaces _) fun _ => ?_
  refine .matched (h.assignmentExpr_respaces allowIn) fun alternative alternative' halternative => ?_
  exact finished_respaces m m' fun span span' => by simp_all

theorem optionalContinuation_respaces (m m' : Mark) {base base' : Expr}
    (hbase : Matches base base') : Respaces F Matches (r.optionalContinuation m base)
      (r.optionalContinuation m' base') := by
  refine .seq (consume_respaces _) fun called =>
    .ite (h.callContinuation_respaces m m' true hbase) ?_
  refine .seq (consume_respaces _) fun indexed =>
    .ite (h.indexContinuation_respaces m m' true hbase) ?_
  exact .matched wordIdentifier_respaces fun id id' hid =>
    finished_respaces m m' fun span span' => by simp_all

theorem continueWith_respaces (allowIn : Bool) (m m' : Mark) {base base' : Expr}
    (compound : Option Operator) (way : Continuation) (hbase : Matches base base') :
    Respaces F Matches (r.continueWith allowIn m base compound way)
      (r.continueWith allowIn m' base' compound way) := by
  have operand : ∀ {level : Precedence} {f f' : Span → Expr → Expr},
      (∀ span span' right right', Matches right right' →
        Matches (f span right) (f' span' right')) →
      Respaces F Matches
        (r.expr { allowIn, level } >>= fun right => finish m >>= fun span =>
          Pure.pure (f span right))
        (r.expr { allowIn, level } >>= fun right => finish m' >>= fun span =>
          Pure.pure (f' span right)) := fun hf =>
    .matched (h.expr_respaces _) fun right right' hright =>
      finished_respaces m m' fun span span' => hf span span' right right' hright
  cases way with
  | binary rule => exact operand fun _ _ _ _ hright => by simp_all
  | within => exact operand fun _ _ _ _ hright => by simp_all
  | behind op => exact finished_respaces m m' fun span span' => by simp_all
  | cast => exact h.castContinuation_respaces m m' hbase
  | typeTest op =>
    exact .matched h.typeExpr fun right right' hright =>
      finished_respaces m m' fun span span' => by simp_all
  | assign =>
    refine .matched (assignmentTarget_respaces hbase) fun left left' hleft => ?_
    exact operand fun _ _ _ _ hright => by simp_all
  | compoundAssign => exact operand fun _ _ _ _ hright => by simp_all
  | conditional => exact h.conditionalContinuation_respaces allowIn m m' hbase
  | list => exact h.listContinuation_respaces allowIn m m' hbase
  | dot => exact h.dotContinuation_respaces m m' hbase
  | index => exact h.indexContinuation_respaces m m' false hbase
  | call => exact h.callContinuation_respaces m m' false hbase
  | optionalChain => exact h.optionalContinuation_respaces m m' hbase

theorem continuations_respaces (allowIn : Bool) (level : Precedence) : ∀ (fuel : Nat) {base base' : Expr},
    Matches base base' → Respaces F Matches (r.continuations allowIn level fuel base)
      (r.continuations allowIn level fuel base')
  | 0, _, _, _ => exhausted_respaces
  | fuel + 1, base, base', hbase => by
    refine get_respaces (fun s s' hview => ?_) fun s t hlike => ?_
    · have htoken : s.token = s'.token := congrArg View.token hview
      rw [continuation?_view (hview ▸ .refl _ : s.view.Like s'.view), htoken]
    · rw [continuation?_view hlike, show s.token.operator = t.token.operator from hlike.token.operator]
      cases continuation? allowIn level t with
      | none => exact .pure hbase
      | some way =>
        refine .seq next_respaces fun _ => ?_
        exact .matched (h.continueWith_respaces allowIn _ _ _ way hbase) fun longer longer' hlonger =>
          continuations_respaces allowIn level fuel hlonger

theorem continued_respaces {base base' : Expr} (allowIn : Bool) (level : Precedence)
    (hbase : Matches base base') :
    Respaces F Matches (r.continued base allowIn level) (r.continued base' allowIn level) :=
  h.continuations_respaces allowIn level _ hbase

end Continuations

section Beginnings

theorem unaryExpr_respaces (rule : OperatorRule) (allowIn : Bool) :
    Respaces F Matches (r.unaryExpr rule allowIn) (r.unaryExpr rule allowIn) := by
  refine mark_respaces fun m m' => ?_
  refine .seq next_respaces fun _ => ?_
  refine .matched (h.expr_respaces _) fun operand operand' hoperand => ?_
  refine finish_respaces m m' fun span span' => ?_
  exact .seq (noteUse_respaces rule.operator span span') fun _ => .pure (by simp_all)

theorem operand?_respaces (mode : ExprMode) :
    Respaces F Matches (r.operand? mode) (r.operand? mode) := by
  refine .matched (h.optPrimaryRule_respaces _ _) fun found found' hfound => ?_
  cases found <;> cases found' <;> simp at hfound
  case some.some e e' => exact .pure (by simp_all)
  refine token_respaces fun t t' ht => ?_
  rw [ht.front?, ht.isKeyword]
  cases (OperatorRule.front? t').filter (mode.level ≤ ·.level) with
  | some rule => exact .matched (h.unaryExpr_respaces rule _) fun e e' he => .pure (by simp_all)
  | none =>
    exact .ite (.matched h.functionExpr_respaces fun e e' he => .pure (by simp_all)) (.pure rfl)

theorem optExprRule_respaces (mode : ExprMode) :
    Respaces F Matches (r.optExprRule mode) (r.optExprRule mode) := by
  refine .matched (h.operand?_respaces mode) fun found found' hfound => ?_
  cases found <;> cases found' <;> simp at hfound
  · exact .pure rfl
  · exact .matched (h.continued_respaces _ _ (by simpa using hfound)) fun e e' he => .pure (by simp_all)

theorem exprRule_respaces (mode : ExprMode) :
    Respaces F Matches (r.exprRule mode) (r.exprRule mode) := by
  refine .matched (h.optExprRule_respaces mode) fun found found' hfound => ?_
  cases found <;> cases found' <;> simp at hfound
  · exact unexpected_respaces
  · exact .pure (by simpa using hfound)

end Beginnings

end RulesRespace

end ActionSyntax
