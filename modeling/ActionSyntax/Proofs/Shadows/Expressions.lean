import ActionSyntax.Grammar.Expressions
import ActionSyntax.Proofs.Reads.Expressions
import ActionSyntax.Proofs.Shadows.Functions

/-!
How nodes and expressions are read in the shadow of each other. Whether a token goes on with an
expression depends on how lines are laid out, so the pairing has to be a layered one.
-/

namespace ActionSyntax

set_option autoImplicit false

open Parse Rules

/-- What is taken apart when it is assigned to. -/
def Expr.isInitializer : Expr → Bool
  | .array .. | .object .. => true
  | _ => false

theorem Expr.isInitializer_bare (e : Expr) : e.bare.isInitializer = e.isInitializer := by
  cases e <;> rfl

theorem Rules.assignmentTarget_eq (e : Expr) : assignmentTarget e =
    if e.isInitializer then do return .pattern (← asPattern e) else return .expression e := by
  cases e <;> rfl

/-- What comes of an operator within functions: a problem, or other notes on them. -/
def Rules.useOutcome : Operator → List FunctionUse → ProblemId ⊕ List FunctionUse
  | .await, use :: outer =>
    if use.usesYield then .inl .awaitMustntAppearInGenerator
    else .inr ({ use with usesAwait := true } :: outer)
  | .yield, use :: outer =>
    if use.usesAwait then .inl .yieldMustntAppearInAsyncFunction
    else .inr ({ use with usesYield := true } :: outer)
  | .yield, [] => .inl .yieldUnexpectedHere
  | _, functions => .inr functions

theorem Rules.noteUse_eq (op : Operator) (span : Span) (s : ParserState) :
    noteUse op span s = (useOutcome op s.functions).elim (syntaxError · span s)
      fun functions => .ok () { s with functions } := by
  unfold noteUse
  rw [get_bind]
  generalize hs : s.functions = functions
  split
  · rw [useOutcome]
    split <;> rfl
  · rw [useOutcome]
    split <;> rfl
  · rfl
  · rename_i hawait hyield halone
    rw [useOutcome.eq_4 _ _ hawait hyield halone, ← hs]
    rfl

section Tokens

variable {t u : Token} {s s' : ParserState} {allowIn : Bool} {level : Precedence}

namespace Token.Like

variable (h : t.Like u) (hkind : t.kind = u.kind)
include h hkind

theorem front? : OperatorRule.front? t = OperatorRule.front? u := by
  unfold OperatorRule.front?
  rw [hkind, h.operator, h.text]

theorem between? : OperatorRule.between? t = OperatorRule.between? u := by
  unfold OperatorRule.between?
  rw [hkind, h.operator]

theorem behind? : OperatorRule.behind? t = OperatorRule.behind? u := by
  unfold OperatorRule.behind?
  rw [hkind, h.operator]

end Token.Like

/-- A text ends here, or a mark closes. -/
def TokenKind.isOver (k : TokenKind) : Bool := k == .endOfProgram || k.closes

namespace TokenKind

variable {k : TokenKind}

theorem isOver_of_closes (h : k.closes = true) : k.isOver = true := by simp [isOver, h]

end TokenKind

section Over

variable (h : t.kind.isOver = true)
include h

theorem front?_over : OperatorRule.front? t = none := by
  unfold OperatorRule.front?
  cases hk : t.kind <;> rw [hk] at h <;> first | rfl | cases h

theorem between?_over : OperatorRule.between? t = none := by
  unfold OperatorRule.between?
  cases hk : t.kind <;> rw [hk] at h
  all_goals first | rfl | cases h

theorem behind?_over : OperatorRule.behind? t = none := by
  unfold OperatorRule.behind?
  cases hk : t.kind <;> rw [hk] at h <;> first | rfl | cases h

theorem isKeyword_over (word : String) : t.isKeyword word = false := by
  have hkind : (t.kind == .keyword) = false := by
    cases hk : t.kind <;> rw [hk] at h <;> first | rfl | cases h
  simp [Token.isKeyword, hkind]

theorem isContextKeyword_over (word : String) : t.isContextKeyword word = false := by
  have hkind : (t.kind == .identifier) = false := by
    cases hk : t.kind <;> rw [hk] at h <;> first | rfl | cases h
  simp [Token.isContextKeyword, hkind]

end Over

/-- Nothing goes on where a text ends or a mark closes, but a list behind a comma. -/
theorem continuation?_over (h : s.token.kind.isOver = true)
    (hcomma : s.token.kind = .comma → ¬ level ≤ .list) : continuation? allowIn level s = none := by
  unfold continuation?
  simp only [between?_over h, behind?_over h, isKeyword_over h, isContextKeyword_over h,
    Option.filter_none, Bool.and_false, Bool.false_and, Bool.false_eq_true, if_false]
  cases hk : s.token.kind <;> rw [hk] at h
  case comma => exact if_neg (hcomma hk)
  all_goals first | rfl | cases h

theorem continuation?_list (h : continuation? allowIn level s = some .list) : level ≤ .list := by
  unfold continuation? at h
  dsimp only at h
  split at h
  · cases h
  split at h
  · cases h
  split at h
  · cases h
  repeat' split at h
  all_goals first | assumption | cases h

/-- The operand behind an operator is no list. -/
theorem front?_operandLevel {rule : OperatorRule} (h : OperatorRule.front? t = some rule) :
    rule.operandLevel ≠ .list := by
  unfold OperatorRule.front? at h
  repeat' split at h
  all_goals cases h
  all_goals exact nofun

theorem Precedence.ne_list (h : .assignment < level) : level ≠ .list := by
  rintro rfl
  exact absurd h (by decide)

theorem binaryLevels?_operand : ∀ op levels, OperatorRule.binaryLevels? op = some levels →
    .assignment < levels.2 := by
  intro op levels h
  cases op <;> cases h <;> decide

/-- The operand behind an operator between two is tighter than an assignment. -/
theorem continuation?_binary {rule : OperatorRule}
    (h : continuation? allowIn level s = some (.binary rule)) : .assignment < rule.operandLevel := by
  have hbetween : OperatorRule.between? s.token = some rule := by
    unfold continuation? at h
    dsimp only at h
    split at h
    · rename_i found hfound
      cases h
      exact (Option.filter_eq_some_iff.mp hfound).1
    split at h
    · cases h
    split at h
    · cases h
    repeat' split at h
    all_goals cases h
  unfold OperatorRule.between? at hbetween
  split at hbetween
  · obtain ⟨levels, hlevels, rfl⟩ := Option.map_eq_some_iff.mp hbetween
    exact binaryLevels?_operand _ _ hlevels
  · cases hbetween

theorem continuation?_same {stops : TokenKind → Prop} {layered : Prop}
    (h : Sees stops layered s s') (hl : layered) (hkind : s.token.kind = s'.token.kind) :
    continuation? allowIn level s = continuation? allowIn level s' := by
  have hlike := h.token.like
  obtain ⟨hline, -, hcontinues⟩ := h.layout hl
  unfold continuation?
  simp only [hlike.between? hkind, hlike.behind? hkind, hlike.isKeyword, hlike.isContextKeyword,
    hkind, hline, hcontinues]

end Tokens

namespace RulesShadow

variable {P : Pairing} {tier : Tier} {r r' : Rules}

section Values

theorem parensContent_shadows {items items' : List Expr} (h : Matches items items') :
    Shadows P tier Matches (parensContent items) (parensContent items') := by
  match items, items', h with
  | [], [], _ => exact unexpected_shadows
  | [single], [single'], hsingle => exact .pure (by simpa using hsingle)
  | first :: second :: rest, first' :: second' :: rest', hall => exact .pure (by simpa using hall)
  | [], _ :: _, hno => simp at hno
  | _ :: _, [], hno => simp at hno
  | [_], _ :: _ :: _, hno => simp at hno
  | _ :: _ :: _, [_], hno => simp at hno

theorem assignmentTarget_shadows {e e' : Expr} (h : Matches e e') :
    Shadows P tier Matches (assignmentTarget e) (assignmentTarget e') := by
  have hinit : e.isInitializer = e'.isInitializer := by
    have hbare : e.bare = e'.bare := h
    rw [← e.isInitializer_bare, hbare, e'.isInitializer_bare]
  rw [assignmentTarget_eq, assignmentTarget_eq, hinit]
  refine .ite (.matched (asPattern_shadows h) fun pattern pattern' hmatch => .pure ?_) (.pure ?_)
  · simp_all
  · simp_all

end Values

/-- Notes on the functions around do not depend on where they are made. -/
theorem noteUse_shadows (hl : P.layered) (op : Operator) (span span' : Span) :
    Shadows P tier Eq (noteUse op span) (noteUse op span') where
  goes {s t} hst := by
    have hsees := P.sees hst
    rw [noteUse_eq, noteUse_eq, ← hsees.functions hl]
    cases useOutcome op s.functions with
    | inl id => exact (syntaxError_shadows id span span').goes hst
    | inr functions =>
      refine .ok rfl ?_
      have hnote := P.note hst functions s.superFound
      rwa [show ({ t with functions, superFound := s.superFound } : ParserState) =
        { t with functions } by rw [hsees.superFound hl]] at hnote
  stays {s a t} hs h := by
    rw [noteUse_eq] at h
    cases hout : useOutcome op s.functions with
    | inl id =>
      rw [hout] at h
      cases h
      exact hs.collect _
    | inr functions =>
      rw [hout] at h
      cases h
      exact hs.note functions s.superFound

theorem regularExpression_goes (m m' : Mark) {s t : ParserState} (hst : P.near s t)
    (hslash : beginsRegularExpression s.token = true) :
    P.Goes tier Matches (regularExpression m s) (regularExpression m' t) := by
  have htaken : ∀ tier, Shadows P tier Matches
      (previous >>= fun t => finish m >>= fun span =>
        pure (Expr.regularExpression span t.text t.flags))
      (previous >>= fun t => finish m' >>= fun span =>
        pure (Expr.regularExpression span t.text t.flags)) := fun tier =>
    previous_shadows fun _ _ ht => finished_shadows m m' fun _ _ => by simp [ht.text, ht.flags]
  refine Shadows.goes_bind ((P.regular hst hslash).mono (fun _ => .of_gone) fun _ _ => id)
    (fun {a b u v} hu _ _ huv => ?_) (fun hu hread => ?_)
  · have hkind : u.token.kind = .regularExpression := ParserState.scanRegular_kind hu
    exact next_goes_bind huv (P.same_kind huv (by simp [hkind])) (htaken tier)
  · exact (Shadows.seq next_shadows fun _ => htaken .wide : Shadows P .wide _ _ _).stays hu hread

theorem tagName_shadows : ∀ {fuel fuel' : Nat}, fuel ≤ fuel' → ∀ {base base' : Expr},
    Matches base base' → Shadows P tier Matches (r.tagName fuel base) (r'.tagName fuel' base')
  | 0, _, _, _, _, _ => exhausted_shadows
  | fuel + 1, fuel' + 1, hle, base, base', hbase => by
    refine .seq (consume_shadows (by decide) (Pairing.tells_kind rfl)) fun longer => ?_
    refine .ite ?_ (.pure hbase)
    refine .matched identifier_shadows fun id id' hid => ?_
    refine finish_shadows _ _ fun span span' => ?_
    exact tagName_shadows (Nat.le_of_succ_le_succ hle) (by simp_all)

variable (h : RulesShadow P r r')
include h

section Nodes

theorem bracedExpr_shadows : Shadows P tier Matches r.bracedExpr r'.bracedExpr :=
  .closed (h.expr_shadows (Or.inr (Or.inl rfl)))
    (fun e e' he => .seq (expect_shadows (by decide)) fun _ => .pure he)
    fun _ => (expect_starves (k := .rightBrace) (by decide)).seq

theorem nodeChild?_shadows : Shadows P .wide Matches r.nodeChild? r'.nodeChild? := by
  refine .seq (consume_shadows (by decide) (Or.inl rfl)) fun closes => .ite (.pure rfl) ?_
  refine .seq (at?_wide .leftBrace) fun isSpread => ?_
  refine .ite ?_ (.matched (h.node .wide) fun e e' he => .pure (by simp_all))
  refine mark_shadows fun m m' => ?_
  refine .seq next_shadows fun _ => ?_
  refine .matched h.bracedExpr_shadows fun e e' he => ?_
  exact finished_shadows m m' fun span span' => by simp_all

theorem nodeChildren_shadows : Shadows P .wide Matches r.nodeChildren r'.nodeChildren :=
  collectWhile_shadows h.nodeChild?_shadows h.rounds_le

theorem attributeValue_shadows :
    Shadows P tier Matches r.attributeValue r'.attributeValue :=
  .seq (consume_shadows (by decide) (Pairing.tells_kind rfl)) fun _ =>
    .ite h.bracedExpr_shadows (h.primary_shadows false)

theorem optAttributeValue_shadows :
    Shadows P tier Matches r.optAttributeValue r'.optAttributeValue := by
  refine .seq (consume_shadows (by decide) (Pairing.tells_kind rfl)) fun present => ?_
  exact .ite (.matched h.attributeValue_shadows fun e e' he => .pure (by simp_all)) (.pure rfl)

theorem nodeAttribute?_shadows :
    Shadows P tier Matches r.nodeAttribute? r'.nodeAttribute? := by
  refine .seq (atOperator?_shadows _) fun closes => .ite (.pure rfl) ?_
  refine .seq (atOperator?_shadows _) fun ends => .ite (.pure rfl) ?_
  refine mark_shadows fun m m' => ?_
  refine .matched identifier_shadows fun id id' hid => ?_
  refine .matched h.optAttributeValue_shadows fun value value' hvalue => ?_
  exact finished_shadows m m' fun span span' => by simp_all

theorem closingName_shadows : Shadows P tier Eq r.closingName r'.closingName := by
  refine .seq expectName_shadows fun _ => ?_
  refine .matched (collectWhile_shadows (α := String) ?_ h.rounds_le) fun _ _ _ => .pure rfl
  refine .seq (consume_shadows (by decide) (Pairing.tells_kind rfl)) fun longer => ?_
  exact .ite (.map expectName_shadows (fun name => ⟨name, rfl⟩) fun _ _ heq => by simp [heq])
    (.pure rfl)

omit h in
theorem closingName_starves : Starves r.closingName :=
  (Starves.seq (expect_starves (k := .identifier) (by decide))).seq

theorem nodeBody_shadows : Shadows P tier Matches r.nodeBody r'.nodeBody := by
  refine .seq (consumeOperator_shadows _) fun closes => ?_
  refine .ite (.seq (expectOperator_shadows _) fun _ => .pure rfl) ?_
  refine .seq (expectOperator_shadows _) fun _ => ?_
  refine .closed h.nodeChildren_shadows (fun children children' hchildren => ?_)
    fun _ => closingName_starves.seq
  refine .seq h.closingName_shadows fun _ => ?_
  exact .seq (expectOperator_shadows _) fun _ => .pure (by simp_all)

theorem nodeRule_shadows (outermost : Bool) :
    Shadows P tier Matches (r.nodeRule outermost) (r'.nodeRule outermost) := by
  refine mark_shadows fun m m' => ?_
  refine .seq (expectOperator_shadows _) fun _ => ?_
  have rest : ∀ isList : Bool, Shadows P tier Matches
      (do
        if isList then
          let children ← r.nodeChildren
          expectOperator .greater
          return Expr.nodeList (← finish m) children
        let first ← identifier
        let id ← r.tagName r.rounds (.identifier first)
        let attributes ← collectWhile r.nodeAttribute? r.rounds
        let children ← r.nodeBody
        return Expr.node (← finish m) id attributes children)
      (do
        if isList then
          let children ← r'.nodeChildren
          expectOperator .greater
          return Expr.nodeList (← finish m') children
        let first ← identifier
        let id ← r'.tagName r'.rounds (.identifier first)
        let attributes ← collectWhile r'.nodeAttribute? r'.rounds
        let children ← r'.nodeBody
        return Expr.node (← finish m') id attributes children) := by
    rintro isList
    refine .ite ?_ ?_
    · refine .closed h.nodeChildren_shadows (fun children children' hchildren => ?_)
        fun _ => (expectIf_starves (Setting.proper_operator .greater)).seq
      exact .seq (expectOperator_shadows _) fun _ =>
        finished_shadows m m' fun span span' => by simp_all
    · refine .matched identifier_shadows fun first first' hfirst => ?_
      refine .matched (tagName_shadows h.rounds_le (by simp_all)) fun id id' hid => ?_
      refine .matched (collectWhile_shadows h.nodeAttribute?_shadows h.rounds_le)
        fun attributes attributes' hattributes => ?_
      refine .matched h.nodeBody_shadows fun children children' hchildren => ?_
      exact finished_shadows m m' fun span span' => by simp_all
  exact .ite (.seq (consumeOperator_shadows _) rest) (.seq (.pure rfl) rest)

end Nodes

section Operands

theorem arguments_shadows : Shadows P tier Matches r.arguments r'.arguments :=
  .closed (separatedUntil_shadows _ (h.assignmentExpr_shadows true) h.rounds_le)
    (fun items items' hitems => .seq (expect_shadows (by decide)) fun _ => .pure hitems)
    fun _ => (expect_starves (k := .rightParen) (by decide)).seq

theorem dotContinuation_shadows (m m' : Mark) {base base' : Expr} (hbase : Matches base base') :
    Shadows P tier Matches (r.dotContinuation m base) (r'.dotContinuation m' base') := by
  refine .seq (consumeOperator_shadows _) fun applied => .ite ?_ ?_
  · refine .matched h.typeArguments_shadows fun arguments arguments' hmatch => ?_
    exact finished_shadows m m' fun span span' => by simp_all
  · refine .matched wordIdentifier_shadows fun id id' hid => ?_
    exact finished_shadows m m' fun span span' => by simp_all

theorem indexContinuation_shadows (m m' : Mark) {base base' : Expr} (optional : Bool)
    (hbase : Matches base base') : Shadows P tier Matches (r.indexContinuation m base optional)
      (r'.indexContinuation m' base' optional) := by
  refine .closed (h.expr_shadows (Or.inr (Or.inl rfl))) (fun key key' hkey => ?_)
    fun _ => (expect_starves (k := .rightBracket) (by decide)).seq
  exact .seq (expect_shadows (by decide)) fun _ =>
    finished_shadows m m' fun span span' => by simp_all

theorem callContinuation_shadows (m m' : Mark) {base base' : Expr} (optional : Bool)
    (hbase : Matches base base') : Shadows P tier Matches (r.callContinuation m base optional)
      (r'.callContinuation m' base' optional) :=
  .matched h.arguments_shadows fun items items' hitems =>
    finished_shadows m m' fun span span' => by simp_all

theorem identifierPrimary_shadows (allowTyped : Bool) :
    Shadows P tier Matches (r.identifierPrimary allowTyped) (r'.identifierPrimary allowTyped) := by
  refine previous_shadows fun t t' ht => ?_
  have hembed : ∀ tier, Shadows P tier Matches
      (do
        let source := (← previous).text
        let type ← r.optAnnotation
        return Expr.embed (← finish (Mark.ofSpan t.span)) source type)
      (do
        let source := (← previous).text
        let type ← r'.optAnnotation
        return Expr.embed (← finish (Mark.ofSpan t'.span)) source type) := by
    intro tier
    refine previous_shadows fun source source' hsource => ?_
    refine .matched h.optAnnotation_shadows fun type type' htype => ?_
    exact finished_shadows _ _ fun span span' => by simp_all [hsource.text]
  have rest : ∀ isTyped : Bool, Shadows P tier Matches
      (do
        if isTyped then
          let type ← r.typeExpr
          return Expr.identifier
            { span := ← finish (Mark.ofSpan t.span), name := t.text, type := some type }
        if t.isContextKeyword "embed" && (← at? .string) then
          next
          let source := (← previous).text
          let type ← r.optAnnotation
          return .embed (← finish (Mark.ofSpan t.span)) source type
        let id := Expr.identifier { span := ← finish (Mark.ofSpan t.span), name := t.text }
        if ← consume .arrow then
          let params ← arrowParams [id]
          r.arrowFunction (Mark.ofSpan t.span) params none
        else return id)
      (do
        if isTyped then
          let type ← r'.typeExpr
          return Expr.identifier
            { span := ← finish (Mark.ofSpan t'.span), name := t'.text, type := some type }
        if t'.isContextKeyword "embed" && (← at? .string) then
          next
          let source := (← previous).text
          let type ← r'.optAnnotation
          return .embed (← finish (Mark.ofSpan t'.span)) source type
        let id := Expr.identifier { span := ← finish (Mark.ofSpan t'.span), name := t'.text }
        if ← consume .arrow then
          let params ← arrowParams [id]
          r'.arrowFunction (Mark.ofSpan t'.span) params none
        else return id) := by
    intro isTyped
    refine .ite ?_ ?_
    · refine .matched (h.typeExpr tier) fun type type' htype => ?_
      exact finished_shadows _ _ fun span span' => by simp_all [ht.text]
    refine at?_next (by decide) rfl (ht.isContextKeyword "embed") (hembed tier) ?_
    refine finish_shadows _ _ fun span span' => ?_
    refine .seq (consume_shadows (by decide) (Pairing.tells_kind rfl)) fun atArrow => ?_
    refine .ite ?_ (.pure (by simp [ht.text]))
    refine .matched (arrowParams_shadows (by simp [ht.text])) fun params params' hparams => ?_
    exact h.arrowFunction_shadows _ _ hparams rfl
  exact .ite (.seq (consume_shadows (by decide) (Pairing.tells_kind rfl)) rest)
    (.seq (.pure rfl) rest)

theorem parensItems_shadows : ∀ {fuel fuel' : Nat}, fuel ≤ fuel' → ∀ {items items' : List Expr},
    Matches items items' → Shadows P .wide Matches (r.parensItems fuel items)
      (r'.parensItems fuel' items')
  | 0, _, _, _, _, _ => exhausted_shadows
  | fuel + 1, fuel' + 1, hle, items, items', hitems => by
    refine .seq (consume_shadows (by decide) (Or.inl rfl)) fun atRest =>
      .ite (.pure (by simp_all)) ?_
    refine .matched (h.assignmentExpr_shadows true) fun e e' he => ?_
    refine .seq (consume_shadows (by decide) (Or.inl rfl)) fun more => ?_
    have hmore : Matches (items ++ [e]) (items' ++ [e']) := by simp_all
    exact .ite (parensItems_shadows (Nat.le_of_succ_le_succ hle) hmore) (.pure (by simp_all))

theorem parensItems_starves (fuel : Nat) (items : List Expr) :
    Starves (r.parensItems fuel items) := by
  cases fuel with
  | zero => exact ⟨fun _ hread => by cases hread⟩
  | succ fuel => exact consume_starves (by decide) (h.assignmentExpr_starves true).seq

theorem restParam_starves : Starves r.restParam :=
  (h.variableBinding_starves true).seq

theorem restArrowFunction_shadows (m m' : Mark) {items items' : List Expr}
    (hitems : Matches items items') : Shadows P tier Matches (r.restArrowFunction m items)
      (r'.restArrowFunction m' items') := by
  refine .matched (arrowParams_shadows hitems) fun params params' hparams => ?_
  refine .matched h.restParam_shadows fun rest rest' hrest => ?_
  refine .seq (expect_shadows (by decide)) fun _ => ?_
  refine .matched h.optAnnotation_shadows fun result result' hresult => ?_
  refine .seq (expect_shadows (by decide)) fun _ => ?_
  exact h.arrowFunction_shadows m m' (by simp_all) hresult

theorem restArrowFunction_starves (m : Mark) (items : List Expr) :
    Starves (r.restArrowFunction m items) := by
  have hparams : Shadows P .wide Matches (arrowParams items) (arrowParams items) :=
    arrowParams_shadows (Matches.refl items)
  exact .after hparams.stays fun _ => h.restParam_starves.seq

theorem parensOrArrow_shadows (m m' : Mark) :
    Shadows P tier Matches (r.parensOrArrow m) (r'.parensOrArrow m') := by
  refine consume_closed (by decide) (fun atOnce => ?_) (h.parensItems_starves _ _).seq
  refine .ite (.seq (expect_shadows (by decide)) fun _ => h.arrowFunction_shadows m m' rfl rfl) ?_
  refine .closed (h.parensItems_shadows h.rounds_le rfl)
    (fun ⟨items, atRest⟩ ⟨items', atRest'⟩ hmatch => ?_)
    fun ⟨items, atRest⟩ => .ite (h.restArrowFunction_starves m items)
      (expect_starves (k := .rightParen) (by decide)).seq
  obtain ⟨hitems, rfl⟩ : Matches items items' ∧ atRest = atRest' := by simpa using hmatch
  refine .ite (h.restArrowFunction_shadows m m' hitems) ?_
  refine .seq (expect_shadows (by decide)) fun _ => ?_
  refine .seq (consume_shadows (by decide) (Pairing.tells_kind rfl)) fun typed => .ite ?_ ?_
  · refine .matched (arrowParams_shadows hitems) fun params params' hparams => ?_
    refine .matched (h.typeExpr tier) fun result result' hresult => ?_
    exact .seq (expect_shadows (by decide)) fun _ =>
      h.arrowFunction_shadows m m' hparams (by simp_all)
  refine .seq (consume_shadows (by decide) (Pairing.tells_kind rfl)) fun atArrow => .ite ?_ ?_
  · refine .matched (arrowParams_shadows hitems) fun params params' hparams => ?_
    exact h.arrowFunction_shadows m m' hparams rfl
  · exact .matched (parensContent_shadows hitems) fun content content' hcontent =>
      finished_shadows m m' fun span span' => by simp_all

theorem parensPrimary_shadows (m m' : Mark) (level : Precedence) :
    Shadows P tier Matches (r.parensPrimary m level) (r'.parensPrimary m' level) := by
  refine .ite ?_ (h.parensOrArrow_shadows m m')
  refine .closed (h.expr_shadows (Or.inr (Or.inl rfl))) (fun e e' he => ?_)
    fun _ => (expect_starves (k := .rightParen) (by decide)).seq
  exact .seq (expect_shadows (by decide)) fun _ =>
    finished_shadows m m' fun span span' => by simp_all

theorem objectKey_shadows : Shadows P tier Matches r.objectKey r'.objectKey := by
  refine .seq (consume_shadows (by decide) (Pairing.tells_kind rfl)) fun computed => .ite ?_ ?_
  · refine .matched (h.assignmentExpr_shadows true) fun key key' hkey => ?_
    exact .seq (expect_shadows (by decide)) fun _ => .pure hkey
  refine .seq (consume_shadows (by decide) (Pairing.tells_kind rfl)) fun number => .ite ?_ ?_
  · exact previous_shadows fun t t' ht => .pure (by simp [ht.number])
  refine .seq (expect_shadows (by decide)) fun _ => ?_
  exact previous_shadows fun t t' ht => .pure (by simp [ht.text])

theorem objectField_shadows : Shadows P tier Matches r.objectField r'.objectField := by
  refine .seq consumeIdentifier_shadows fun named => .ite ?_ ?_
  · refine previous_shadows fun t t' ht => ?_
    refine .seq (consume_shadows (by decide) (Pairing.tells_kind rfl)) fun valued => ?_
    exact .ite (.matched (h.assignmentExpr_shadows true) fun value value' hvalue =>
      .pure (by simp_all [ht.text])) (.pure (by simp [ht.text]))
  refine .matched h.objectKey_shadows fun key key' hkey => ?_
  refine .seq (expect_shadows (by decide)) fun _ => ?_
  exact .matched (h.assignmentExpr_shadows true) fun value value' hvalue => .pure (by simp_all)

theorem objectItem_shadows : Shadows P tier Matches r.objectItem r'.objectItem := by
  refine mark_shadows fun m m' => ?_
  refine .seq (consume_shadows (by decide) (Pairing.tells_kind rfl)) fun isSpread => .ite ?_ ?_
  · refine .matched (h.assignmentExpr_shadows true) fun e e' he => ?_
    exact finished_shadows m m' fun span span' => by simp_all
  refine .matched h.objectField_shadows fun ⟨key, value⟩ ⟨key', value'⟩ hfield => ?_
  exact finished_shadows m m' fun span span' => by simp_all

theorem objectInitializer_shadows (m m' : Mark) :
    Shadows P tier Matches (r.objectInitializer m) (r'.objectInitializer m') := by
  refine .closed (separatedUntil_shadows _ h.objectItem_shadows h.rounds_le)
    (fun fields fields' hfields => ?_) fun _ => (expect_starves (k := .rightBrace) (by decide)).seq
  refine .seq (expect_shadows (by decide)) fun _ => ?_
  refine .matched h.optAnnotation_shadows fun type type' htype => ?_
  exact finished_shadows m m' fun span span' => by simp_all

theorem arrayItem_shadows : Shadows P tier Matches r.arrayItem r'.arrayItem := by
  refine mark_shadows fun m m' => ?_
  refine .seq (consume_shadows (by decide) (Pairing.tells_kind rfl)) fun isSpread => ?_
  refine .ite ?_ (h.assignmentExpr_shadows true)
  refine .matched (h.assignmentExpr_shadows true) fun e e' he => ?_
  exact finished_shadows m m' fun span span' => by simp_all

theorem arrayItems_shadows : ∀ {fuel fuel' : Nat}, fuel ≤ fuel' →
    Shadows P .wide Matches (r.arrayItems fuel) (r'.arrayItems fuel')
  | 0, _, _ => exhausted_shadows
  | fuel + 1, fuel' + 1, hle => by
    have ih := arrayItems_shadows (Nat.le_of_succ_le_succ hle)
    refine .seq (consume_shadows (by decide) (Or.inl rfl)) fun hole =>
      .ite (.matched ih fun rest rest' hrest => .pure (by simp_all)) ?_
    refine .seq (at?_wide .rightBracket) fun closed => .ite (.pure rfl) ?_
    refine .matched h.arrayItem_shadows fun item item' hitem => ?_
    refine .seq (consume_shadows (by decide) (Or.inl rfl)) fun more => ?_
    exact .ite (.matched ih fun rest rest' hrest => .pure (by simp_all)) (.pure (by simp_all))

theorem arrayInitializer_shadows (m m' : Mark) :
    Shadows P tier Matches (r.arrayInitializer m) (r'.arrayInitializer m') := by
  refine .closed (h.arrayItems_shadows h.rounds_le) (fun items items' hitems => ?_)
    fun _ => (expect_starves (k := .rightBracket) (by decide)).seq
  refine .seq (expect_shadows (by decide)) fun _ => ?_
  refine .matched h.optAnnotation_shadows fun type type' htype => ?_
  exact finished_shadows m m' fun span span' => by simp_all

theorem newBase_shadows : ∀ {fuel fuel' : Nat}, fuel ≤ fuel' → ∀ {base base' : Expr},
    Matches base base' → Shadows P tier Matches (r.newBase fuel base) (r'.newBase fuel' base')
  | 0, _, _, _, _, _ => exhausted_shadows
  | fuel + 1, fuel' + 1, hle, base, base', hbase => by
    have hsub := Nat.le_of_succ_le_succ hle
    refine .seq (consume_shadows (by decide) (Pairing.tells_kind rfl)) fun dotted => .ite ?_ ?_
    · exact .matched (h.dotContinuation_shadows _ _ hbase) fun longer longer' hlonger =>
        newBase_shadows hsub hlonger
    refine takingIf_shadows (c := fun s => s.token.kind == .leftBracket && s.continues)

      (f := fun _ => r.indexContinuation _ base false >>= r.newBase fuel)

      (fun _ => rfl) (fun _ => rfl) (fun {s} hc => ?_) (fun hst heq => ?_)
      (fun {t} hstop => Or.inr ?_) ?_ (.pure hbase)
    · simp only [Bool.and_eq_true, beq_iff_eq] at hc
      rw [hc.1]
      decide
    · rw [heq, ((P.sees hst).layout h.layered).2.2]
    · have hne : t.token.kind ≠ .leftBracket := by
        intro hbracket
        have hcloses := P.closes hstop
        rw [hbracket] at hcloses
        cases hcloses
      simp [hne]
    · exact .matched (h.indexContinuation_shadows _ _ false hbase) fun longer longer' hlonger =>
        newBase_shadows hsub hlonger

theorem newExpr_shadows (m m' : Mark) :
    Shadows P tier Matches (r.newExpr m) (r'.newExpr m') := by
  refine .matched (h.primary_shadows false) fun first first' hfirst => ?_
  refine .matched (h.newBase_shadows h.rounds_le hfirst) fun base base' hbase => ?_
  refine .seq (consume_shadows (by decide) (Pairing.tells_kind rfl)) fun called => ?_
  have rest : ∀ items items' : List Expr, Matches items items' → Shadows P tier Matches
      (finish m >>= fun span => Pure.pure (Expr.new span base items))
      (finish m' >>= fun span => Pure.pure (Expr.new span base' items')) := fun items items' hitems =>
    finished_shadows m m' fun span span' => by simp_all
  exact .ite (.matched h.arguments_shadows rest) (rest [] [] rfl)

theorem simplePrimary?_shadows (m m' : Mark) :
    Shadows P tier Matches (r.simplePrimary? m) (r'.simplePrimary? m') := by
  have plain : ∀ e : Span → Expr, (∀ span span', Matches (e span) (e span')) →
      Shadows P tier Matches (finish m >>= fun span => Pure.pure (some (e span)))
        (finish m' >>= fun span => Pure.pure (some (e span))) := fun e he =>
    finished_shadows m m' fun span span' => by simpa using he span span'
  have literal : ∀ e : Span → Token → Expr,
      (∀ span span' (t t' : Token), t.Like t' → Matches (e span t) (e span' t')) →
        Shadows P tier Matches
          (finish m >>= fun span => previous >>= fun t => Pure.pure (some (e span t)))
          (finish m' >>= fun span => previous >>= fun t => Pure.pure (some (e span t))) :=
    fun e he => finish_shadows m m' fun span span' => previous_shadows fun t t' ht =>
      .pure (by simpa using he span span' t t' ht)
  refine .seq (consumeKeyword_shadows _) fun _ => .ite ?_ ?_
  · refine .seq (expect_shadows (by decide)) fun _ => ?_
    refine .matched (h.typeExpr tier) fun type type' htype => ?_
    exact .seq (expect_shadows (by decide)) fun _ =>
      finished_shadows m m' fun span span' => by simp_all
  refine .seq (consumeKeyword_shadows _) fun _ => .ite (plain _ fun _ _ => rfl) ?_
  refine .seq (consumeKeyword_shadows _) fun _ => .ite ?_ ?_
  · refine .seq (expect_shadows (by decide)) fun _ => ?_
    exact .seq (expectContextKeyword_shadows _) fun _ => plain _ fun _ _ => rfl
  refine .seq (consumeKeyword_shadows _) fun _ => .ite (plain _ fun _ _ => rfl) ?_
  refine .seq (consume_shadows (by decide) (Pairing.tells_kind rfl)) fun _ =>
    .ite (literal (fun span t => .string span t.text) fun _ _ _ _ ht => by simp [ht.text]) ?_
  refine .seq (consume_shadows (by decide) (Pairing.tells_kind rfl)) fun _ =>
    .ite (literal (fun span t => .number span t.number) fun _ _ _ _ ht => by simp [ht.number]) ?_
  refine .seq (consumeKeyword_shadows _) fun _ => .ite (plain _ fun _ _ => rfl) ?_
  refine .seq (consumeKeyword_shadows _) fun _ => .ite (plain _ fun _ _ => rfl) ?_
  have rest : Shadows P tier Matches
      (do
        if ← consumeKeyword "super" then return some (Expr.super (← finish m))
        return none)
      (do
        if ← consumeKeyword "super" then return some (Expr.super (← finish m'))
        return none) :=
    .seq (consumeKeyword_shadows _) fun _ => .ite (plain _ fun _ _ => rfl) (.pure rfl)
  refine ⟨fun {s t} hst => ?_, fun {s a t} hs hread => ?_⟩
  · have hlike := (P.sees hst).token.like
    have hsame : beginsRegularExpression s.token = beginsRegularExpression t.token := by
      simp only [beginsRegularExpression, hlike.isOperator, hlike.isCompoundAssignment]
    rw [token_bind, token_bind, ← hsame]
    split
    · rename_i hslash
      refine Shadows.goes_bind (regularExpression_goes m m' hst hslash)
        (fun _ _ he huv => .ok (by simpa using he) huv) fun hu hread => ?_
      cases hread
      exact hu.rests
    · exact rest.goes hst
  · have hslash : beginsRegularExpression s.token = false := by
      simp [beginsRegularExpression, Token.isOperator, Token.isCompoundAssignment, hs.kind]
    rw [token_bind, hslash] at hread
    exact rest.stays hs hread

theorem optPrimaryRule_shadows (allowTyped : Bool) (level : Precedence) :
    Shadows P tier Matches (r.optPrimaryRule allowTyped level)
      (r'.optPrimaryRule allowTyped level) := by
  have given : ∀ {x x' : Parse Expr}, Shadows P tier Matches x x' →
      Shadows P tier Matches (x >>= fun e => Pure.pure (some e))
        (x' >>= fun e => Pure.pure (some e)) := fun hx =>
    .matched hx fun e e' he => .pure (by simp_all)
  refine mark_shadows fun m m' => ?_
  refine .seq consumeIdentifier_shadows fun _ =>
    .ite (given (h.identifierPrimary_shadows allowTyped)) ?_
  refine .matched (h.simplePrimary?_shadows m m') fun found found' hfound => ?_
  cases found <;> cases found' <;> simp at hfound
  case some.some e e' => exact .pure (by simp_all)
  refine .seq (consume_shadows (by decide) (Pairing.tells_kind rfl)) fun _ =>
    .ite (given (h.parensPrimary_shadows m m' level)) ?_
  refine .seq (consume_shadows (by decide) (Pairing.tells_kind rfl)) fun _ =>
    .ite (given (h.objectInitializer_shadows m m')) ?_
  refine .seq (consume_shadows (by decide) (Pairing.tells_kind rfl)) fun _ =>
    .ite (given (h.arrayInitializer_shadows m m')) ?_
  refine .seq (consumeKeyword_shadows _) fun _ => .ite (given (h.newExpr_shadows m m')) ?_
  exact .seq (atOperator?_shadows _) fun atNode => .ite (given (h.nodeRule_shadows true)) (.pure rfl)

end Operands

section Continuations

theorem castContinuation_shadows (m m' : Mark) {base base' : Expr} (hbase : Matches base base') :
    Shadows P tier Matches (r.castContinuation m base) (r'.castContinuation m' base') := by
  refine .seq (consume_shadows (by decide) (Pairing.tells_kind rfl)) fun strict => ?_
  have rest : Shadows P tier Matches
      (do
        let right ← r.typeExpr
        return Expr.typeBinary (← finish m) (if strict then .asTypeStrict else .asType) base right)
      (do
        let right ← r'.typeExpr
        return Expr.typeBinary (← finish m') (if strict then .asTypeStrict else .asType) base'
          right) :=
    .matched (h.typeExpr tier) fun right right' hright =>
      finished_shadows m m' fun span span' => by simp_all
  exact .ite (.seq (consume_shadows (by decide) (Pairing.tells_kind rfl)) fun _ => rest) rest

theorem listContinuation_shadows (hcomma : P.Tells tier fun t => t.kind == .comma) (allowIn : Bool)
    (m m' : Mark) {base base' : Expr} (hbase : Matches base base') :
    Shadows P tier Matches (r.listContinuation allowIn m base)
      (r'.listContinuation allowIn m' base') :=
  .matched (separated_shadows hcomma (h.assignmentExpr_shadows allowIn) h.rounds_le)
    fun rest rest' hrest => finished_shadows m m' fun span span' => by simp_all

theorem conditionalContinuation_shadows (allowIn : Bool) (m m' : Mark) {base base' : Expr}
    (hbase : Matches base base') : Shadows P tier Matches
      (r.conditionalContinuation allowIn m base) (r'.conditionalContinuation allowIn m' base') := by
  refine .matched (h.expr_shadows (Or.inl (by simp))) fun consequent consequent' hconsequent => ?_
  refine .seq (expect_shadows (by decide)) fun _ => ?_
  refine .matched (h.assignmentExpr_shadows allowIn) fun alternative alternative' halternative => ?_
  exact finished_shadows m m' fun span span' => by simp_all

theorem optionalContinuation_shadows (m m' : Mark) {base base' : Expr}
    (hbase : Matches base base') : Shadows P tier Matches (r.optionalContinuation m base)
      (r'.optionalContinuation m' base') := by
  refine .seq (consume_shadows (by decide) (Pairing.tells_kind rfl)) fun called =>
    .ite (h.callContinuation_shadows m m' true hbase) ?_
  refine .seq (consume_shadows (by decide) (Pairing.tells_kind rfl)) fun indexed =>
    .ite (h.indexContinuation_shadows m m' true hbase) ?_
  exact .matched wordIdentifier_shadows fun id id' hid =>
    finished_shadows m m' fun span span' => by simp_all

theorem continueWith_shadows (allowIn : Bool) (m m' : Mark) {base base' : Expr}
    (compound : Option Operator) {way : Continuation} (hbase : Matches base base')
    (hlist : way = .list → P.Tells tier fun t => t.kind == .comma)
    (hbinary : ∀ rule, way = .binary rule → rule.operandLevel ≠ .list) :
    Shadows P tier Matches (r.continueWith allowIn m base compound way)
      (r'.continueWith allowIn m' base' compound way) := by
  have operand : ∀ {level : Precedence} {f f' : Span → Expr → Expr}, level ≠ .list →
      (∀ span span' right right', Matches right right' →
        Matches (f span right) (f' span' right')) →
      Shadows P tier Matches
        (r.expr { allowIn, level } >>= fun right => finish m >>= fun span =>
          Pure.pure (f span right))
        (r'.expr { allowIn, level } >>= fun right => finish m' >>= fun span =>
          Pure.pure (f' span right)) := fun hlevel hf =>
    .matched (h.expr_shadows (Or.inl hlevel)) fun right right' hright =>
      finished_shadows m m' fun span span' => hf span span' right right' hright
  cases way with
  | binary rule => exact operand (hbinary rule rfl) fun _ _ _ _ hright => by simp_all
  | within => exact operand (by simp) fun _ _ _ _ hright => by simp_all
  | behind op => exact finished_shadows m m' fun span span' => by simp_all
  | cast => exact h.castContinuation_shadows m m' hbase
  | typeTest op =>
    exact .matched (h.typeExpr tier) fun right right' hright =>
      finished_shadows m m' fun span span' => by simp_all
  | assign =>
    refine .matched (assignmentTarget_shadows hbase) fun left left' hleft => ?_
    exact operand (by simp) fun _ _ _ _ hright => by simp_all
  | compoundAssign => exact operand (by simp) fun _ _ _ _ hright => by simp_all
  | conditional => exact h.conditionalContinuation_shadows allowIn m m' hbase
  | list => exact h.listContinuation_shadows (hlist rfl) allowIn m m' hbase
  | dot => exact h.dotContinuation_shadows m m' hbase
  | index => exact h.indexContinuation_shadows m m' false hbase
  | call => exact h.callContinuation_shadows m m' false hbase
  | optionalChain => exact h.optionalContinuation_shadows m m' hbase

omit h in
theorem continuations_some {allowIn : Bool} {level : Precedence} {fuel : Nat} {base : Expr}
    {s : ParserState} {way : Continuation} (hway : continuation? allowIn level s = some way) :
    r.continuations allowIn level (fuel + 1) base s = (next >>= fun _ =>
      r.continueWith allowIn (Mark.ofSpan base.span) base s.token.operator way >>=
        r.continuations allowIn level fuel) s := by
  rw [continuations, get_bind, hway]

omit h in
theorem continuations_none {allowIn : Bool} {level : Precedence} {fuel : Nat} {base : Expr}
    {s : ParserState} (hway : continuation? allowIn level s = none) :
    r.continuations allowIn level (fuel + 1) base s = (Pure.pure base : Parse Expr) s := by
  rw [continuations, get_bind, hway]

/-- Whatever goes on with an expression in the first text does so in the second. -/
theorem continuations_shadows (allowIn : Bool) {level : Precedence}
    (hlevel : level ≠ .list ∨ P.Tells tier fun t => t.kind == .comma) :
    ∀ {fuel fuel' : Nat}, fuel ≤ fuel' → ∀ {base base' : Expr}, Matches base base' →
      Shadows P tier Matches (r.continuations allowIn level fuel base)
        (r'.continuations allowIn level fuel' base')
  | 0, _, _, _, _, _ => exhausted_shadows
  | fuel + 1, fuel' + 1, hle, base, base', hbase => by
    have least : level ≤ .list → level = .list := by cases level <;> decide
    refine taking_shadows (γ := Continuation × Option Operator)
      (fun s => (continuation? allowIn level s).map fun way => (way, s.token.operator))
      (fun t => (continuation? allowIn level t).map fun way => (way, t.token.operator))
      (fun way => r.continueWith allowIn (Mark.ofSpan base.span) base way.2 way.1 >>=
        r.continuations allowIn level fuel)
      (fun way => r'.continueWith allowIn (Mark.ofSpan base'.span) base' way.2 way.1 >>=
        r'.continuations allowIn level fuel')
      (y := Pure.pure base) (fun {s way} hc => ?_) (fun {s} hc => ?_)
      (fun {t way} hc => ?_) (fun {t} hc => ?_) (fun {s way} hc => ?_) (fun {s t} hst heq => ?_)
      (fun {t} hstop => ?_) (fun way s hc => ?_) (.pure hbase)
    · obtain ⟨way, hway, rfl⟩ := Option.map_eq_some_iff.mp hc
      exact continuations_some hway
    · exact continuations_none (Option.map_eq_none_iff.mp hc)
    · obtain ⟨way, hway, rfl⟩ := Option.map_eq_some_iff.mp hc
      exact continuations_some hway
    · exact continuations_none (Option.map_eq_none_iff.mp hc)
    · obtain ⟨way, hway, -⟩ := Option.map_eq_some_iff.mp hc
      exact Setting.Sound.continuation?_proper hway
    · have hsees := P.sees hst
      rw [continuation?_same hsees h.layered heq, hsees.token.like.operator]
    · have hover := TokenKind.isOver_of_closes (P.closes hstop)
      rcases hlevel with hlevel | rfl | hcomma
      · rw [continuation?_over hover fun _ hle => hlevel (least hle)]
        exact Or.inr rfl
      · exact Or.inl rfl
      · have hne : t.token.kind ≠ .comma := beq_eq_false_iff_ne.mp (hcomma _ hstop)
        rw [continuation?_over hover fun hkind => absurd hkind hne]
        exact Or.inr rfl
    · obtain ⟨way, hway, rfl⟩ := Option.map_eq_some_iff.mp hc
      refine .matched (h.continueWith_shadows allowIn _ _ _ hbase ?_ ?_) fun longer longer' hlonger =>
        continuations_shadows allowIn hlevel (Nat.le_of_succ_le_succ hle) hlonger
      · rintro rfl
        exact hlevel.resolve_left fun hne => hne (least (continuation?_list hway))
      · rintro rule rfl
        exact Precedence.ne_list (continuation?_binary hway)

theorem continued_shadows {base base' : Expr} (allowIn : Bool) {level : Precedence}
    (hlevel : level ≠ .list ∨ P.Tells tier fun t => t.kind == .comma) (hbase : Matches base base') :
    Shadows P tier Matches (r.continued base allowIn level) (r'.continued base' allowIn level) :=
  h.continuations_shadows allowIn hlevel h.rounds_le hbase

end Continuations

section Beginnings

variable {rule : OperatorRule} {allowIn : Bool}

/-- What stands behind an operator in front. -/
theorem unaryOperand_shadows (hrule : rule.operandLevel ≠ .list) (m m' : Mark) :
    Shadows P tier Matches
      (r.expr { allowIn, level := rule.operandLevel } >>= fun operand => finish m >>= fun span =>
        noteUse rule.operator span >>= fun _ => Pure.pure (Expr.unary span rule.operator operand))
      (r'.expr { allowIn, level := rule.operandLevel } >>= fun operand => finish m' >>= fun span =>
        noteUse rule.operator span >>= fun _ => Pure.pure (Expr.unary span rule.operator operand)) :=
  .matched (h.expr_shadows (Or.inl hrule)) fun operand operand' hoperand =>
    finish_shadows m m' fun span span' =>
      .seq (noteUse_shadows h.layered rule.operator span span') fun _ => .pure (by simp_all)

theorem unaryExpr_goes (hrule : rule.operandLevel ≠ .list) {s t : ParserState} (hst : P.near s t)
    (hkind : s.token.kind = t.token.kind) :
    P.Goes tier Matches (r.unaryExpr rule allowIn s) (r'.unaryExpr rule allowIn t) := by
  unfold unaryExpr
  rw [mark_bind, mark_bind]
  exact next_goes_bind hst hkind (h.unaryOperand_shadows hrule _ _)

theorem operand?_shadows (mode : ExprMode) :
    Shadows P tier Matches (r.operand? mode) (r'.operand? mode) := by
  refine .matched (h.optPrimaryRule_shadows _ _) fun found found' hfound => ?_
  cases found <;> cases found' <;> simp at hfound
  case some.some e e' => exact .pure (by simp_all)
  show Shadows P tier Matches (Parse.token >>= _) (Parse.token >>= _)
  refine ⟨fun {s t} hst => ?_, fun {s a t} hs hread => ?_⟩
  · obtain heq | ⟨hend, hstop⟩ := P.same_or_ended hst
    · have hlike := (P.sees hst).token.like
      rw [token_bind, token_bind, ← hlike.front? heq, ← hlike.isKeyword]
      cases hrule : (OperatorRule.front? s.token).filter (mode.level ≤ ·.level) with
      | some rule =>
        have hlevel := front?_operandLevel (Option.filter_eq_some_iff.mp hrule).1
        exact Shadows.goes_bind (h.unaryExpr_goes hlevel hst heq)
          (fun _ _ he huv => .ok (by simp_all) huv) fun hu hread => by
            cases hread
            exact hu.rests
      | none =>
        have given : Shadows P tier Matches (r.functionExpr >>= fun e => Pure.pure (some e))
            (r'.functionExpr >>= fun e => Pure.pure (some e)) :=
          .matched h.functionExpr_shadows fun e e' he => .pure (by simpa using he)
        exact (Shadows.ite given (.pure rfl)).goes hst
    · have hover : s.token.kind.isOver = true := by rw [hend.kind]; rfl
      have hover' := TokenKind.isOver_of_closes (P.closes hstop)
      rw [token_bind, token_bind, front?_over hover, front?_over hover', isKeyword_over hover,
        isKeyword_over hover', Bool.and_false]
      exact .ok rfl hst
  · have hover : s.token.kind.isOver = true := by rw [hs.kind]; rfl
    rw [token_bind, front?_over hover, isKeyword_over hover, Bool.and_false] at hread
    cases hread
    exact hs.rests

theorem optExprRule_shadows {mode : ExprMode}
    (hlevel : mode.level ≠ .list ∨ P.Tells tier fun t => t.kind == .comma) :
    Shadows P tier Matches (r.optExprRule mode) (r'.optExprRule mode) := by
  refine .matched (h.operand?_shadows mode) fun found found' hfound => ?_
  cases found <;> cases found' <;> simp at hfound
  · exact .pure rfl
  · exact .matched (h.continued_shadows _ hlevel (by simpa using hfound)) fun e e' he =>
      .pure (by simp_all)

theorem exprRule_shadows {mode : ExprMode}
    (hlevel : mode.level ≠ .list ∨ P.Tells tier fun t => t.kind == .comma) :
    Shadows P tier Matches (r.exprRule mode) (r'.exprRule mode) := by
  refine .matched (h.optExprRule_shadows hlevel) fun found found' hfound => ?_
  cases found <;> cases found' <;> simp at hfound
  · exact unexpected_shadows
  · exact .pure (by simpa using hfound)

end Beginnings

end RulesShadow

end ActionSyntax
