import ActionSyntax.Grammar.Expressions
import ActionSyntax.Proofs.Reads.Functions

/-!
How nodes and expressions are read.
-/

namespace ActionSyntax.Setting.Sound

set_option autoImplicit false

open Parse Rules

variable {S : Setting} {r : Rules} {n : Nat}

theorem parensContent_reads (items : List Expr) : S.Reads n never (parensContent items) := by
  unfold parensContent
  split
  · exact unexpected_reads
  · exact .pure _
  · exact .pure _

theorem assignmentTarget_reads (e : Expr) : S.Reads n never (assignmentTarget e) := by
  unfold assignmentTarget
  split
  · exact .seq (asPattern_reads _) fun _ => .pure _
  · exact .seq (asPattern_reads _) fun _ => .pure _
  · exact .pure _

theorem noteUse_reads (op : Operator) (span : Span) : S.Reads n never (noteUse op span) := by
  intro s hs
  unfold noteUse
  rw [get_bind]
  generalize hf : s.functions = functions
  split
  · split
    · exact syntaxError_reads _ _ s hs
    · exact ⟨.step (.use hf ⟨fun _ => rfl, id⟩), Nat.le_refl _⟩
  · split
    · exact syntaxError_reads _ _ s hs
    · exact ⟨.step (.use hf ⟨id, fun _ => rfl⟩), Nat.le_refl _⟩
  · exact syntaxError_reads _ _ s hs
  · exact .pure () s

theorem front?_proper {t : Token} {rule : OperatorRule} (h : OperatorRule.front? t = some rule) :
    t.kind ≠ .endOfProgram := by
  rintro hk
  simp [OperatorRule.front?, hk] at h

/-- The end of the text continues nothing. -/
theorem continuation?_proper {allowIn : Bool} {level : Precedence} {s : ParserState}
    {way : Continuation} (h : continuation? allowIn level s = some way) :
    s.token.kind ≠ .endOfProgram := by
  rintro hk
  simp [continuation?, OperatorRule.between?, OperatorRule.behind?, Token.isKeyword,
    Token.isContextKeyword, hk] at h

theorem regularExpression_ends (m : Mark) (s : ParserState) :
    S.Ends always s (regularExpression m s) := by
  refine Ends.bind_after (scanRegular_ends s) fun _ t hscan ht => ?_
  have hkind := ParserState.scanRegular_kind hscan
  refine Ends.bind_after (next_moved (by simp [hkind])) fun _ u _ hu => ?_
  refine Ends.weaken (c := never) ?_ fun _ hb => by simp_all
  exact .refl u

theorem tagName_reads :
    ∀ fuel base k, k ≤ fuel → S.Reads k never (r.tagName fuel base)
  | 0, _, _, hk => exhausted_reads hk
  | fuel + 1, base, k, hk => by
    refine .bool (consume_reads (by decide)) ?_ (.pure base)
    refine .seq identifier_reads fun id => ?_
    refine .seq (finish_reads _) fun span => ?_
    exact tagName_reads fuel _ _ (by omega)

variable (h : S.Sound n r)
include h

theorem bracedExpr_reads : S.Reads n always r.bracedExpr :=
  .paid (h.expr_reads _) fun _ => .seq (expect_reads (by decide)) fun _ => .pure _

theorem nodeChild?_reads : S.Reads n Option.isSome r.nodeChild? := by
  refine .bool (consume_reads (by decide)) (.pure none) ?_
  refine .look (at?_reads .leftBrace) fun isSpread => ?_
  split
  · refine .look mark_reads fun m => ?_
    refine .look next_reads fun _ => ?_
    refine .paid h.bracedExpr_reads fun e => ?_
    exact .seq (finish_reads m) fun _ => .pure _
  · exact .paid h.node fun _ => .pure _

theorem nodeChildren_reads : S.Reads n never r.nodeChildren :=
  h.collectWhile_reads h.nodeChild?_reads

theorem attributeValue_reads : S.Reads n never r.attributeValue := by
  refine .seq (consume_reads (by decide)) fun braced => ?_
  split
  · exact h.bracedExpr_reads.never_of
  · exact (h.primary_reads false).never_of

theorem optAttributeValue_reads : S.Reads n never r.optAttributeValue := by
  refine .seq (consume_reads (by decide)) fun present => ?_
  split
  · exact .seq h.attributeValue_reads fun _ => .pure _
  · exact .pure none

theorem nodeAttribute?_reads : S.Reads n Option.isSome r.nodeAttribute? := by
  refine .look (atOperator?_reads _) fun closes => ?_
  split
  · exact .pure_none
  refine .look (atOperator?_reads _) fun ends => ?_
  split
  · exact .pure_none
  refine .look mark_reads fun m => ?_
  refine .paid identifier_reads fun id => ?_
  refine .seq h.optAttributeValue_reads fun value => ?_
  exact .seq (finish_reads m) fun _ => .pure _

theorem closingName_reads : S.Reads n never r.closingName := by
  refine .seq expectName_reads fun _ => ?_
  refine .seq (h.collectWhile_reads ?_) fun _ => .pure ()
  exact .bool (consume_reads (by decide)) (.map expectName_reads nofun) .pure_none

theorem nodeBody_reads : S.Reads n never r.nodeBody := by
  refine .seq (consumeOperator_reads _) fun closes => ?_
  split
  · exact .seq (expectOperator_reads _) fun _ => .pure none
  refine .seq (expectOperator_reads _) fun _ => ?_
  refine .seq h.nodeChildren_reads fun children => ?_
  refine .seq h.closingName_reads fun _ => ?_
  exact .seq (expectOperator_reads _) fun _ => .pure _

theorem nodeRule_reads (outermost : Bool) : S.Reads (n + 1) always (r.nodeRule outermost) := by
  refine .look mark_reads fun m => ?_
  refine .moved (expectOperator_reads _) fun _ => ?_
  refine .branch (consumeOperator_reads _).never_of (.pure false) ?_
  rintro (_ | _)
  · refine .seq identifier_reads fun first => ?_
    refine .seq (tagName_reads _ _ n (h.rounds_le (by omega))) fun id => ?_
    refine .seq (h.collectWhile_reads h.nodeAttribute?_reads) fun attributes => ?_
    refine .seq h.nodeBody_reads fun children => ?_
    exact .seq (finish_reads m) fun _ => .pure _
  · refine .seq h.nodeChildren_reads fun children => ?_
    refine .seq (expectOperator_reads _) fun _ => ?_
    exact .seq (finish_reads m) fun _ => .pure _

theorem arguments_reads : S.Reads n never r.arguments := by
  refine .seq (h.separatedUntil_reads _ (h.assignmentExpr_reads true)) fun items => ?_
  exact .seq (expect_reads (by decide)) fun _ => .pure _

theorem dotContinuation_reads (m : Mark) (base : Expr) :
    S.Reads n never (r.dotContinuation m base) := by
  refine .seq (consumeOperator_reads _) fun applied => ?_
  split
  · exact .seq h.typeArguments_reads fun _ => .seq (finish_reads m) fun _ => .pure _
  · exact .seq wordIdentifier_reads fun _ => .seq (finish_reads m) fun _ => .pure _

theorem indexContinuation_reads (m : Mark) (base : Expr) (optional : Bool) :
    S.Reads n never (r.indexContinuation m base optional) := by
  refine .seq (h.expr_reads _) fun key => ?_
  refine .seq (expect_reads (by decide)) fun _ => ?_
  exact .seq (finish_reads m) fun _ => .pure _

theorem callContinuation_reads (m : Mark) (base : Expr) (optional : Bool) :
    S.Reads n never (r.callContinuation m base optional) :=
  .seq h.arguments_reads fun _ => .seq (finish_reads m) fun _ => .pure _

theorem identifierPrimary_reads (allowTyped : Bool) :
    S.Reads n never (r.identifierPrimary allowTyped) := by
  refine .seq previous_reads fun t => ?_
  refine .branch (consume_reads (by decide)).never_of (.pure false) fun isTyped => ?_
  refine .ite (.seq h.typeExpr fun type => .seq (finish_reads _) fun _ => .pure _) ?_
  refine .seq (at?_reads .string) fun behind => ?_
  refine .ite ?_ ?_
  · refine .seq next_reads fun _ => ?_
    refine .seq previous_reads fun source => ?_
    refine .seq h.optAnnotation_reads fun type => ?_
    exact .seq (finish_reads _) fun _ => .pure _
  refine .seq (finish_reads _) fun span => ?_
  refine .seq (consume_reads (by decide)) fun atArrow => ?_
  refine .ite ?_ (.pure _)
  exact .seq (arrowParams_reads _) fun params => h.arrowFunction_reads _ params none

theorem parensItems_reads :
    ∀ fuel items k, k ≤ n → k ≤ fuel → S.Reads k never (r.parensItems fuel items)
  | 0, _, _, _, hk => exhausted_reads hk
  | fuel + 1, items, k, hn, hk => by
    refine .seq (consume_reads (by decide)) fun atRest => ?_
    refine .ite (.pure _) ?_
    refine .moved ((h.assignmentExpr_reads true).mono hn) fun e => ?_
    refine .seq (consume_reads (by decide)) fun more => ?_
    refine .ite ?_ (.pure _)
    exact parensItems_reads fuel _ _ (by omega) (by omega)

theorem restArrowFunction_reads (m : Mark) (items : List Expr) :
    S.Reads n never (r.restArrowFunction m items) := by
  refine .seq (arrowParams_reads items) fun params => ?_
  refine .seq h.restParam_reads fun rest => ?_
  refine .seq (expect_reads (by decide)) fun _ => ?_
  refine .seq h.optAnnotation_reads fun result => ?_
  refine .seq (expect_reads (by decide)) fun _ => ?_
  exact h.arrowFunction_reads m _ result

theorem parensOrArrow_reads (m : Mark) : S.Reads n never (r.parensOrArrow m) := by
  refine .seq (consume_reads (by decide)) fun atOnce => ?_
  refine .ite (.seq (expect_reads (by decide)) fun _ => h.arrowFunction_reads m _ none) ?_
  refine .seq (h.parensItems_reads _ _ n (Nat.le_refl n) (h.rounds_le (by omega)))
    fun ⟨items, atRest⟩ => ?_
  refine .ite (h.restArrowFunction_reads m items) ?_
  refine .seq (expect_reads (by decide)) fun _ => ?_
  refine .seq (consume_reads (by decide)) fun typed => ?_
  refine .ite ?_ ?_
  · refine .seq (arrowParams_reads items) fun params => ?_
    refine .seq h.typeExpr fun result => ?_
    exact .seq (expect_reads (by decide)) fun _ => h.arrowFunction_reads m params _
  refine .seq (consume_reads (by decide)) fun atArrow => ?_
  refine .ite (.seq (arrowParams_reads items) fun params => h.arrowFunction_reads m params none) ?_
  refine .seq (parensContent_reads items) fun content => ?_
  exact .seq (finish_reads m) fun _ => .pure _

theorem parensPrimary_reads (m : Mark) (level : Precedence) :
    S.Reads n never (r.parensPrimary m level) := by
  refine .ite ?_ (h.parensOrArrow_reads m)
  refine .seq (h.expr_reads _) fun e => ?_
  refine .seq (expect_reads (by decide)) fun _ => ?_
  exact .seq (finish_reads m) fun _ => .pure _

theorem objectKey_reads : S.Reads n always r.objectKey := by
  refine .bool (consume_reads (by decide)) ?_ ?_
  · refine .mono ?_ (Nat.sub_le n 1)
    refine .seq (h.assignmentExpr_reads true) fun key => ?_
    exact .seq (expect_reads (by decide)) fun _ => .pure key
  refine .bool (consume_reads (by decide)) (.seq previous_reads fun _ => .pure _) ?_
  exact .paid (expect_reads (by decide)) fun _ => .seq previous_reads fun _ => .pure _

theorem objectField_reads : S.Reads n always r.objectField := by
  refine .bool consumeIdentifier_reads ?_ ?_
  · refine .mono ?_ (Nat.sub_le n 1)
    refine .seq previous_reads fun t => ?_
    refine .seq (consume_reads (by decide)) fun valued => ?_
    exact .ite (.seq (h.assignmentExpr_reads true) fun _ => .pure _) (.pure _)
  refine .paid h.objectKey_reads fun key => ?_
  refine .seq (expect_reads (by decide)) fun _ => ?_
  exact .seq (h.assignmentExpr_reads true) fun _ => .pure _

theorem objectItem_reads : S.Reads n always r.objectItem := by
  refine .look mark_reads fun m => ?_
  refine .bool (consume_reads (by decide)) ?_ ?_
  · refine .mono ?_ (Nat.sub_le n 1)
    exact .seq (h.assignmentExpr_reads true) fun e => .seq (finish_reads m) fun _ => .pure _
  refine .paid h.objectField_reads fun ⟨key, value⟩ => ?_
  exact .seq (finish_reads m) fun _ => .pure _

theorem objectInitializer_reads (m : Mark) : S.Reads n never (r.objectInitializer m) := by
  refine .seq (h.separatedUntil_reads _ h.objectItem_reads) fun fields => ?_
  refine .seq (expect_reads (by decide)) fun _ => ?_
  refine .seq h.optAnnotation_reads fun type => ?_
  exact .seq (finish_reads m) fun _ => .pure _

theorem arrayItem_reads : S.Reads n always r.arrayItem := by
  refine .look mark_reads fun m => ?_
  refine .bool (consume_reads (by decide)) ?_ (h.assignmentExpr_reads true)
  refine .mono ?_ (Nat.sub_le n 1)
  exact .seq (h.assignmentExpr_reads true) fun e => .seq (finish_reads m) fun _ => .pure _

theorem arrayItems_reads :
    ∀ fuel k, k ≤ n → k ≤ fuel → S.Reads k never (r.arrayItems fuel)
  | 0, _, _, hk => exhausted_reads hk
  | fuel + 1, k, hn, hk => by
    have ih := fun k => arrayItems_reads fuel k
    refine .bool (consume_reads (by decide)) (.seq (ih _ (by omega) (by omega)) fun _ => .pure _) ?_
    refine .seq (at?_reads .rightBracket) fun closed => ?_
    refine .ite (.pure _) ?_
    refine .moved (h.arrayItem_reads.mono hn) fun item => ?_
    refine .seq (consume_reads (by decide)) fun more => ?_
    exact .ite (.seq (ih _ (by omega) (by omega)) fun _ => .pure _) (.pure _)

theorem arrayInitializer_reads (m : Mark) : S.Reads n never (r.arrayInitializer m) := by
  refine .seq (h.arrayItems_reads _ n (Nat.le_refl n) (h.rounds_le (by omega))) fun items => ?_
  refine .seq (expect_reads (by decide)) fun _ => ?_
  refine .seq h.optAnnotation_reads fun type => ?_
  exact .seq (finish_reads m) fun _ => .pure _

theorem newBase_reads :
    ∀ fuel base k, k ≤ n → k ≤ fuel → S.Reads k never (r.newBase fuel base)
  | 0, _, _, _, hk => exhausted_reads hk
  | fuel + 1, base, k, hn, hk => by
    refine .bool (consume_reads (by decide)) ?_ ?_
    · refine .seq ((h.dotContinuation_reads _ base).mono (by omega)) fun longer => ?_
      exact newBase_reads fuel longer _ (by omega) (by omega)
    refine .inspect fun s hs => ?_
    split
    · rename_i hcont
      refine next_then (by rintro hk; simp [hk] at hcont) hs ?_
      refine .seq ((h.indexContinuation_reads _ base false).mono (by omega)) fun longer => ?_
      exact newBase_reads fuel longer _ (by omega) (by omega)
    · exact .pure base s

theorem newExpr_reads (m : Mark) : S.Reads n never (r.newExpr m) := by
  refine .seq (h.primary_reads false) fun first => ?_
  refine .seq (h.newBase_reads _ first n (Nat.le_refl n) (h.rounds_le (by omega))) fun base => ?_
  refine .seq (consume_reads (by decide)) fun called => ?_
  refine .branch h.arguments_reads (.pure []) fun arguments => ?_
  exact .seq (finish_reads m) fun _ => .pure _

theorem simplePrimary?_reads (m : Mark) :
    S.Reads (n + 1) Option.isSome (r.simplePrimary? m) := by
  refine .bool (consumeKeyword_reads _) ?_ ?_
  · refine .seq (expect_reads (by decide)) fun _ => ?_
    refine .seq h.typeExpr fun type => ?_
    refine .seq (expect_reads (by decide)) fun _ => ?_
    exact .seq (finish_reads m) fun _ => .pure _
  refine .bool (consumeKeyword_reads _) (.seq (finish_reads m) fun _ => .pure _) ?_
  refine .bool (consumeKeyword_reads _) ?_ ?_
  · refine .seq (expect_reads (by decide)) fun _ => ?_
    refine .seq (expectContextKeyword_reads _) fun _ => ?_
    exact .seq (finish_reads m) fun _ => .pure _
  refine .bool (consumeKeyword_reads _) (.seq (finish_reads m) fun _ => .pure _) ?_
  refine .bool (consume_reads (by decide)) (.seq (finish_reads m) fun _ =>
    .seq previous_reads fun _ => .pure _) ?_
  refine .bool (consume_reads (by decide)) (.seq (finish_reads m) fun _ =>
    .seq previous_reads fun _ => .pure _) ?_
  refine .bool (consumeKeyword_reads _) (.seq (finish_reads m) fun _ => .pure _) ?_
  refine .bool (consumeKeyword_reads _) (.seq (finish_reads m) fun _ => .pure _) ?_
  refine .inspectToken fun s hs => ?_
  split
  · refine Ends.bind_after (regularExpression_ends m s) fun e t _ _ => ?_
    exact (Ends.pure (some e) t).weaken fun _ hb => by simp_all
  · refine Reads.bool (consumeKeyword_reads _) ?_ .pure_none s hs
    exact .seq (finish_reads m) fun _ => .pure _

theorem optPrimaryRule_reads (allowTyped : Bool) (level : Precedence) :
    S.Reads (n + 1) Option.isSome (r.optPrimaryRule allowTyped level) := by
  refine .look mark_reads fun m => ?_
  refine .bool consumeIdentifier_reads
    (.seq (h.identifierPrimary_reads allowTyped) fun _ => .pure _) ?_
  refine .option (h.simplePrimary?_reads m) (fun _ => .pure _) ?_
  refine .bool (consume_reads (by decide)) (.seq (h.parensPrimary_reads m level) fun _ => .pure _) ?_
  refine .bool (consume_reads (by decide)) (.seq (h.objectInitializer_reads m) fun _ => .pure _) ?_
  refine .bool (consume_reads (by decide)) (.seq (h.arrayInitializer_reads m) fun _ => .pure _) ?_
  refine .bool (consumeKeyword_reads _) (.seq (h.newExpr_reads m) fun _ => .pure _) ?_
  refine .look (atOperator?_reads _) fun atNode => ?_
  exact .ite (.paid (h.nodeRule_reads true) fun _ => .pure _) .pure_none

theorem castContinuation_reads (m : Mark) (base : Expr) :
    S.Reads n never (r.castContinuation m base) := by
  refine .seq (consume_reads (by decide)) fun strict => ?_
  refine .ite (.seq (consume_reads (by decide)) fun _ => ?_) ?_
  · exact .seq h.typeExpr fun right => .seq (finish_reads m) fun _ => .pure _
  · exact .seq h.typeExpr fun right => .seq (finish_reads m) fun _ => .pure _

theorem listContinuation_reads (allowIn : Bool) (m : Mark) (base : Expr) :
    S.Reads n never (r.listContinuation allowIn m base) := by
  refine .seq (h.separated_reads (h.assignmentExpr_reads allowIn)) fun rest => ?_
  exact .seq (finish_reads m) fun _ => .pure _

theorem conditionalContinuation_reads (allowIn : Bool) (m : Mark) (base : Expr) :
    S.Reads n never (r.conditionalContinuation allowIn m base) := by
  refine .seq (h.expr_reads _) fun consequent => ?_
  refine .seq (expect_reads (by decide)) fun _ => ?_
  refine .seq (h.assignmentExpr_reads allowIn) fun alternative => ?_
  exact .seq (finish_reads m) fun _ => .pure _

theorem optionalContinuation_reads (m : Mark) (base : Expr) :
    S.Reads n never (r.optionalContinuation m base) := by
  refine .seq (consume_reads (by decide)) fun called => ?_
  refine .ite (h.callContinuation_reads m base true) ?_
  refine .seq (consume_reads (by decide)) fun indexed => ?_
  refine .ite (h.indexContinuation_reads m base true) ?_
  exact .seq wordIdentifier_reads fun id => .seq (finish_reads m) fun _ => .pure _

theorem continueWith_reads (allowIn : Bool) (m : Mark) (base : Expr) (compound : Option Operator)
    (way : Continuation) : S.Reads n never (r.continueWith allowIn m base compound way) := by
  cases way with
  | binary rule => exact .seq (h.expr_reads _) fun _ => .seq (finish_reads m) fun _ => .pure _
  | within => exact .seq (h.expr_reads _) fun _ => .seq (finish_reads m) fun _ => .pure _
  | behind op => exact .seq (finish_reads m) fun _ => .pure _
  | cast => exact h.castContinuation_reads m base
  | typeTest op => exact .seq h.typeExpr fun _ => .seq (finish_reads m) fun _ => .pure _
  | assign =>
    refine .seq (assignmentTarget_reads base) fun left => ?_
    refine .seq (h.assignmentExpr_reads allowIn) fun right => ?_
    exact .seq (finish_reads m) fun _ => .pure _
  | compoundAssign =>
    exact .seq (h.assignmentExpr_reads allowIn) fun _ => .seq (finish_reads m) fun _ => .pure _
  | conditional => exact h.conditionalContinuation_reads allowIn m base
  | list => exact h.listContinuation_reads allowIn m base
  | dot => exact h.dotContinuation_reads m base
  | index => exact h.indexContinuation_reads m base false
  | call => exact h.callContinuation_reads m base false
  | optionalChain => exact h.optionalContinuation_reads m base

theorem continuations_reads (allowIn : Bool) (level : Precedence) :
    ∀ fuel base k, k ≤ n + 1 → k ≤ fuel →
      S.Reads k never (r.continuations allowIn level fuel base)
  | 0, _, _, _, hk => exhausted_reads hk
  | fuel + 1, base, k, hn, hk => by
    refine .inspect fun s hs => ?_
    cases hway : continuation? allowIn level s with
    | none => exact .pure base s
    | some way =>
      refine next_then (continuation?_proper hway) hs ?_
      refine .seq ((h.continueWith_reads allowIn _ base _ way).mono (by omega)) fun longer => ?_
      exact continuations_reads allowIn level fuel longer _ (by omega) (by omega)

theorem continued_reads (base : Expr) (allowIn : Bool) (level : Precedence) :
    S.Reads (n + 1) never (r.continued base allowIn level) :=
  h.continuations_reads allowIn level _ base _ (Nat.le_refl _) (h.rounds_le (Nat.le_refl _))

theorem unaryExpr_begins (rule : OperatorRule) (allowIn : Bool) :
    S.Begins n (r.unaryExpr rule allowIn) := by
  refine .mark_next fun m => ?_
  refine .seq (h.expr_reads _) fun operand => ?_
  refine .seq (finish_reads m) fun span => ?_
  exact .seq (noteUse_reads _ span) fun _ => .pure _

theorem operand?_reads (mode : ExprMode) :
    S.Reads (n + 1) Option.isSome (r.operand? mode) := by
  refine .option (h.optPrimaryRule_reads _ _) (fun _ => .pure _) ?_
  refine .inspectToken fun s hs => ?_
  cases hrule : (OperatorRule.front? s.token).filter (mode.level ≤ ·.level) with
  | none =>
    refine Reads.ite ?_ .pure_none s hs
    exact .paid h.functionExpr_reads fun _ => .pure _
  | some rule =>
    have hk := front?_proper (Option.filter_eq_some_iff.mp hrule).1
    refine Ends.bind_after ((h.unaryExpr_begins rule _).taken s hk hs) fun e t _ _ => ?_
    exact (Ends.pure (some e) t).weaken fun _ hb => by simp_all

theorem optExprRule_reads (mode : ExprMode) :
    S.Reads (n + 1) Option.isSome (r.optExprRule mode) := by
  refine .option (h.operand?_reads mode) (fun base => ?_) .pure_none
  exact .seq ((h.continued_reads base _ _).mono (Nat.le_succ n)) fun _ => .pure _

theorem exprRule_reads (mode : ExprMode) : S.Reads (n + 1) always (r.exprRule mode) :=
  .option (h.optExprRule_reads mode) (fun e => .pure e) unexpected_reads

end ActionSyntax.Setting.Sound
