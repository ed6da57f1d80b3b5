import ActionSyntax.Proofs.Elementary

/-!
Sound rules, and how their types are read. A reading that uses sound rules for what is nested inside
ends well even if one more token may come than these rules can take.
-/

namespace ActionSyntax.Setting

set_option autoImplicit false

open Parse Rules

/-- Each of the rules ends well while less than `n` tokens may still come. -/
structure Sound (S : Setting) (n : Nat) (r : Rules) : Prop where
  depth : n ≤ r.depth
  readFile : r.readFile = S.readFile
  typeExpr : S.Reads n always r.typeExpr
  optExpr : ∀ mode, S.Reads n Option.isSome (r.optExpr mode)
  optPrimary : ∀ allowTyped level, S.Reads n Option.isSome (r.optPrimary allowTyped level)
  node : S.Reads n always r.node
  block : ∀ context, S.Reads n always (r.block context)
  statement : ∀ context, S.Reads n always (r.statement context)
  included : ∀ context path s, S.Splices s (S.file path) (r.included context (S.file path) s)

namespace Sound

variable {S : Setting} {r : Rules} {n : Nat} (h : S.Sound n r)
include h

theorem rounds_le {k : Nat} (hk : k ≤ n + 1) : k ≤ r.rounds := by
  have := h.depth
  unfold rounds
  omega

section Items

variable {α : Type} {item : Parse α}

theorem separated_reads (hitem : S.Reads n always item) :
    S.Reads n always (separated item r.rounds) :=
  Setting.separated_reads hitem _ _ (Nat.le_refl n) (h.rounds_le (Nat.le_succ n))

theorem separatedUntil_reads (closing : TokenKind) (hitem : S.Reads n always item) :
    S.Reads n never (separatedUntil closing item r.rounds) :=
  Setting.separatedUntil_reads closing hitem _ _ (Nat.le_refl n) (h.rounds_le (Nat.le_succ n))

theorem collectWhile_reads {step : Parse (Option α)} (hstep : S.Reads n Option.isSome step) :
    S.Reads n never (collectWhile step r.rounds) :=
  Setting.collectWhile_reads hstep _ _ (Nat.le_refl n) (h.rounds_le (Nat.le_succ n))

end Items

theorem expr_reads (mode : ExprMode) : S.Reads n always (r.expr mode) :=
  .option (h.optExpr mode) (fun e => .pure e) unexpected_reads

theorem assignmentExpr_reads (allowIn : Bool) : S.Reads n always (r.assignmentExpr allowIn) :=
  h.expr_reads _

theorem optAnnotation_reads : S.Reads n never r.optAnnotation := by
  refine .seq (consume_reads (by decide)) ?_
  rintro (_ | _)
  · exact .pure none
  · exact .seq h.typeExpr fun type => .pure (some type)

theorem typedIdentifierFrom_reads (m : Mark) (name : String) :
    S.Reads n never (r.typedIdentifierFrom m name) :=
  .seq h.optAnnotation_reads fun _ => .seq (finish_reads m) fun _ => .pure _

theorem typedIdentifier_reads : S.Reads n always r.typedIdentifier :=
  .look mark_reads fun m => .paid expectName_reads fun name => h.typedIdentifierFrom_reads m name

theorem typeArguments_reads : S.Reads n always r.typeArguments :=
  .paid (h.separated_reads h.typeExpr) fun _ => .seq expectGreater_reads fun _ => .pure _

theorem functionTypeParam_reads : S.Reads n always r.functionTypeParam := by
  refine .look mark_reads fun m => ?_
  refine .paid expectName_reads fun name => ?_
  refine .seq (consume_reads (by decide)) fun optional => ?_
  exact .seq (h.typedIdentifierFrom_reads m name) fun _ => .pure _

theorem functionTypeParams_reads :
    ∀ fuel params k, k ≤ n → k ≤ fuel → S.Reads k never (r.functionTypeParams fuel params)
  | 0, _, _, _, hk => exhausted_reads hk
  | fuel + 1, params, k, hn, hk => by
    refine .seq (at?_reads .rightParen) ?_
    rintro (_ | _)
    · refine .bool (consume_reads (by decide)) ?_ ?_
      · exact .seq (h.typedIdentifier_reads.mono (by omega)) fun _ => .pure _
      · refine .moved (h.functionTypeParam_reads.mono hn) fun ⟨id, optional⟩ => ?_
        refine .seq token_reads fun t => ?_
        refine .optional (syntaxError_reads _ _) fun _ => ?_
        refine .seq (consume_reads (by decide)) fun more => ?_
        split
        · exact functionTypeParams_reads fuel _ _ (by omega) (by omega)
        · exact .pure _
    · exact .pure _

theorem functionType_reads (m : Mark) : S.Reads n never (r.functionType m) := by
  refine .seq (expect_reads (by decide)) fun _ => ?_
  refine .seq (h.functionTypeParams_reads _ {} n (Nat.le_refl n) (h.rounds_le (by omega))) fun _ => ?_
  refine .seq (expect_reads (by decide)) fun _ => ?_
  refine .seq h.optAnnotation_reads fun _ => ?_
  exact .seq (finish_reads m) fun _ => .pure _

omit h in
theorem convertTypeParam_reads (type : Option TypeExpr) (params : TypeParams) (e : TypeExpr) :
    S.Reads n never (convertTypeParam type params e) := by
  unfold convertTypeParam
  split
  · exact .pure _
  · exact .seq (syntaxError_reads _ _) fun _ => .pure _
  · exact .optional (syntaxError_reads _ _) fun _ => .pure _
  · exact .seq (syntaxError_reads _ _) fun _ => .pure _

omit h in
theorem convertTypeParams_reads (types : List TypeExpr) :
    S.Reads n never (convertTypeParams types) := by
  refine Reads.foldlM (fun params node => ?_) types ({} : TypeParams)
  split
  · exact convertTypeParam_reads _ _ _
  · exact convertTypeParam_reads _ _ _

theorem arrowType_reads (m : Mark) (params : TypeParams) :
    S.Reads n never (r.arrowType m params) :=
  .seq h.typeExpr fun _ => .seq (finish_reads m) fun _ => .pure _

theorem moreTypes_reads (ends : TokenKind → Bool) :
    ∀ fuel k, k ≤ n → k ≤ fuel → S.Reads k never (r.moreTypes ends fuel)
  | 0, _, _, hk => exhausted_reads hk
  | fuel + 1, k, hn, hk => by
    refine .bool (consume_reads (by decide)) ?_ (.pure _)
    refine .seq kind_reads fun kind => ?_
    split
    · exact .pure _
    · refine .seq (h.typeExpr.mono (by omega)) fun _ => ?_
      exact .seq (moreTypes_reads ends fuel _ (by omega) (by omega)) fun _ => .pure _

theorem moreTypes_rounds_reads (ends : TokenKind → Bool) :
    S.Reads n never (r.moreTypes ends r.rounds) :=
  h.moreTypes_reads ends _ n (Nat.le_refl n) (h.rounds_le (by omega))

theorem bracketType_reads (m : Mark) : S.Reads n never (r.bracketType m) := by
  refine .seq (consume_reads (by decide)) fun atRest => ?_
  split
  · refine .seq h.typeExpr fun _ => ?_
    exact .seq (expect_reads (by decide)) fun _ => .seq (finish_reads m) fun _ => .pure _
  refine .seq (consume_reads (by decide)) fun atOnce => ?_
  split
  · exact .seq (finish_reads m) fun _ => .pure _
  refine .seq h.typeExpr fun _ => ?_
  refine .seq (at?_reads .comma) fun more => ?_
  split
  · exact .seq (expect_reads (by decide)) fun _ => .seq (finish_reads m) fun _ => .pure _
  · refine .seq (h.moreTypes_rounds_reads _) fun _ => ?_
    exact .seq (expect_reads (by decide)) fun _ => .seq (finish_reads m) fun _ => .pure _

theorem restArrowType_reads (m : Mark) (params : TypeParams) :
    S.Reads n never (r.restArrowType m params) := by
  refine .seq h.typedIdentifier_reads fun _ => ?_
  refine .seq (expect_reads (by decide)) fun _ => ?_
  refine .seq (expect_reads (by decide)) fun _ => ?_
  exact h.arrowType_reads m _

theorem parensType_reads (m : Mark) : S.Reads n never (r.parensType m) := by
  refine .seq (consume_reads (by decide)) fun atOnce => ?_
  split
  · exact .seq (expect_reads (by decide)) fun _ => h.arrowType_reads m _
  refine .seq (consume_reads (by decide)) fun atRest => ?_
  split
  · exact h.restArrowType_reads m _
  refine .seq h.typeExpr fun first => ?_
  refine .seq (at?_reads .comma) fun more => ?_
  split
  · refine .seq (expect_reads (by decide)) fun _ => ?_
    refine .seq (consume_reads (by decide)) fun atArrow => ?_
    split
    · exact .seq (convertTypeParams_reads _) fun _ => h.arrowType_reads m _
    · exact .seq (finish_reads m) fun _ => .pure _
  refine .seq (h.moreTypes_rounds_reads _) fun rest => ?_
  refine .seq (consume_reads (by decide)) fun atRest => ?_
  split
  · exact .seq (convertTypeParams_reads _) fun _ => h.restArrowType_reads m _
  refine .seq (expect_reads (by decide)) fun _ => ?_
  refine .seq (consume_reads (by decide)) fun atArrow => ?_
  split
  · exact .seq (convertTypeParams_reads _) fun _ => h.arrowType_reads m _
  · exact .seq (finish_reads m) fun _ => .pure _

theorem nameType_reads (m : Mark) : S.Reads n never (r.nameType m) := by
  refine .seq (finish_reads m) fun _ => ?_
  refine .seq previous_reads fun _ => ?_
  refine .seq (consume_reads (by decide)) fun atArrow => ?_
  split
  · exact .seq (convertTypeParams_reads _) fun _ => h.arrowType_reads m _
  · exact .pure _

theorem typeHead_reads (m : Mark) : S.Reads (n + 1) always (r.typeHead m) := by
  refine .bool (consumeContextKeyword_reads _) (.seq (finish_reads m) fun _ => .pure _) ?_
  refine .bool (consume_reads (by decide)) (h.nameType_reads m) ?_
  refine .bool (consumeKeyword_reads _) (h.functionType_reads m) ?_
  refine .bool (consume_reads (by decide)) (h.bracketType_reads m) ?_
  refine .bool (consume_reads (by decide)) ?_ ?_
  · refine .seq (h.separatedUntil_reads _ h.typedIdentifier_reads) fun _ => ?_
    exact .seq (expect_reads (by decide)) fun _ => .seq (finish_reads m) fun _ => .pure _
  refine .bool (consume_reads (by decide)) (h.parensType_reads m) ?_
  refine .bool (consumeKeyword_reads _) (.seq (finish_reads m) fun _ => .pure _) ?_
  refine .bool (consumeOperator_reads _) (.seq (finish_reads m) fun _ => .pure _) ?_
  refine .bool (consumeKeyword_reads _) (.seq (finish_reads m) fun _ => .pure _) ?_
  exact .bool (consumeOperator_reads _) h.typeExpr.never_of unexpected_reads

theorem typeMember_reads (m : Mark) (base : TypeExpr) :
    S.Reads n never (r.typeMember m base) := by
  refine .seq (consumeOperator_reads _) fun applied => ?_
  split
  · exact .seq h.typeArguments_reads fun _ => .seq (finish_reads m) fun _ => .pure _
  · exact .seq wordIdentifier_reads fun _ => .seq (finish_reads m) fun _ => .pure _

theorem typeSuffix?_reads (base : TypeExpr) :
    S.Reads (n + 1) Option.isSome (r.typeSuffix? base) := by
  refine .bool (consume_reads (by decide)) (.seq (finish_reads _) fun _ => .pure _) ?_
  refine .bool (consume_reads (by decide)) (.seq (finish_reads _) fun _ => .pure _) ?_
  refine .bool (consume_reads (by decide)) (.seq (h.typeMember_reads _ base) fun _ => .pure _) ?_
  refine .bool (consume_reads (by decide)) (.seq h.typeExpr fun _ => .pure _) ?_
  exact .bool (consumeOperator_reads _) (.seq h.typeExpr fun _ => .pure _) .pure_none

theorem typeSuffixes_reads :
    ∀ fuel base k, k ≤ n + 1 → k ≤ fuel → S.Reads k never (r.typeSuffixes fuel base)
  | 0, _, _, _, hk => exhausted_reads hk
  | fuel + 1, base, k, hn, hk => by
    refine .option ((h.typeSuffix?_reads base).mono hn) (fun longer => ?_) (.pure base)
    exact typeSuffixes_reads fuel longer _ (by omega) (by omega)

theorem typeExprRule_reads : S.Reads (n + 1) always r.typeExprRule := by
  refine .look mark_reads fun m => ?_
  refine .paid (h.typeHead_reads m) fun head => ?_
  exact h.typeSuffixes_reads _ head _ (Nat.le_refl _) (h.rounds_le (Nat.le_refl _))

end Sound

end ActionSyntax.Setting
