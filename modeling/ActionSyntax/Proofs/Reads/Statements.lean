import ActionSyntax.Grammar.Statements
import ActionSyntax.Proofs.Reads.Expressions

/-!
How definitions and statements are read.
-/

namespace ActionSyntax.Setting.Sound

set_option autoImplicit false

open Parse Rules

variable {S : Setting} {r : Rules} {n : Nat}

section Jumps

theorem jump_begins : S.Begins n jump := by
  refine .mark_next fun m => ?_
  refine .seq get_reads fun s => ?_
  refine .branch consumeIdentifier_reads.never_of (.pure false) fun hasLabel => ?_
  refine .seq previous_reads fun name => ?_
  refine .seq endStatement_reads fun ended => ?_
  exact .seq (finish_reads m) fun _ => .pure _

theorem checkJump_reads (context : Context) (j : Jump) (legal : Bool) (id : ProblemId) :
    S.Reads n never (checkJump context j legal id) := by
  unfold checkJump
  split
  · exact .ite (.pure ()) (report_reads _ _ _ _)
  · exact .ite (.pure ()) (syntaxError_reads _ _)

theorem breakStatement_begins (context : Context) : S.Begins n (breakStatement context) :=
  .seq jump_begins fun j => .seq (checkJump_reads context j _ _) fun _ => .pure _

theorem continueStatement_begins (context : Context) : S.Begins n (continueStatement context) :=
  .seq jump_begins fun j => .seq (checkJump_reads context j _ _) fun _ => .pure _

end Jumps

section Checks

theorem restrictModifiers_reads (span : Span) (actual : Modifiers) (restricted : List Modifier) :
    S.Reads n never (restrictModifiers span actual restricted) :=
  .forM (fun _ => report_reads _ _ _ _) _

theorem checkContext_reads (allowed : Bool) (span : Span) :
    S.Reads n never (checkContext allowed span) := .ite (verifyError_reads _ _) (.pure ())

theorem checkBody_reads (attributes : Attributes) (common : FunctionCommon) (id : Identifier) :
    S.Reads n never (checkBody attributes common id) :=
  .ite (.ite (syntaxError_reads _ _) (.pure ())) (.ite (syntaxError_reads _ _) (.pure ()))

theorem checkMethod_reads (attributes : Attributes) (context : Context) (common : FunctionCommon)
    (id : Identifier) : S.Reads n never (checkMethod attributes context common id) :=
  .ite (.ite (syntaxError_reads _ _) (.pure ())) (checkBody_reads attributes common id)

theorem checkUses_reads (common : FunctionCommon) (id : Identifier) (mayYield : Bool) :
    S.Reads n never (checkUses common id mayYield) :=
  .ite (syntaxError_reads _ _) (.ite (syntaxError_reads _ _) (.pure ()))

theorem checkProxy_reads (attributes : Attributes) (context : Context) (common : FunctionCommon)
    (id : Identifier) (op : Operator) :
    S.Reads n never (checkProxy attributes context common id op) := by
  have rest : S.Reads n never (do
      checkUses common id (op == .iterateKeys || op == .iterateValues)
      restrictModifiers id.span attributes.modifiers [.final, .override, .static]
      if !hasProxyParameters op common then verifyError .proxyHasWrongNumParams id.span) := by
    refine .seq (checkUses_reads common id _) fun _ => ?_
    refine .seq (restrictModifiers_reads _ _ _) fun _ => ?_
    exact .ite (verifyError_reads _ _) (.pure ())
  exact .ite (.seq (checkBody_reads attributes common id) fun _ => rest)
    (.seq (checkContext_reads _ _) fun _ => rest)

theorem expressionStatement_reads (e : Expr) : S.Reads n never (expressionStatement e) :=
  .seq endStatement_reads fun _ => .seq (finish_reads _) fun _ => .pure _

theorem noteSuper_reads (context : Context) (span : Span) :
    S.Reads n never (noteSuper context span) := by
  refine .inspect fun s hs => ?_
  split
  · exact syntaxError_reads _ _ s hs
  · exact ⟨.step (.superFound s true), Nat.le_refl _⟩

theorem includedText_reads (path : String) (span : Span) :
    S.Reads n never (r.includedText path span) := by
  unfold includedText
  cases r.readFile path with
  | some text => exact .pure text
  | none => exact .seq (verifyError_reads _ _) fun _ => .pure ""

/-- A file that cannot be read counts as empty, and no function is entered for it. -/
theorem includedText_ok {path text : String} {span : Span} {s t : ParserState}
    (h : r.includedText path span s = .ok text t) :
    text = (r.readFile path).getD "" ∧ t.functions = s.functions := by
  unfold includedText at h
  cases hread : r.readFile path <;> rw [hread] at h <;> cases h <;> exact ⟨rfl, rfl⟩

end Checks

theorem access?_proper {t : Token} {access : Access} (h : Words.access? t = some access) :
    t.kind ≠ .endOfProgram := by
  rintro hk
  simp [Words.access?, hk] at h

theorem modifier?_proper {t : Token} {m : Modifier} (h : Words.modifier? t = some m) :
    t.kind ≠ .endOfProgram := by
  rintro hk
  simp [Words.modifier?, hk] at h

theorem definitionWord_reads {fuel k : Nat} {attributes : Attributes} {s t : ParserState}
    (ih : ∀ attributes, S.Reads (k - 1) never (definitionAttributes fuel attributes))
    (ht : t.token = s.token) (hs : S.Ready k t) :
    S.Ends never t
      ((match Words.modifier? s.token, Words.access? s.token with
        | some m, _ => do
          next
          definitionAttributes fuel { attributes with modifiers := attributes.modifiers.insert m }
        | none, some access => do
          next
          definitionAttributes fuel { attributes with access := some access }
        | none, none => return attributes : Parse Attributes) t) := by
  cases hm : Words.modifier? s.token with
  | some m => exact next_then (ht ▸ modifier?_proper hm) hs (ih _)
  | none =>
    cases ha : Words.access? s.token with
    | some access => exact next_then (ht ▸ access?_proper ha) hs (ih _)
    | none => exact .pure attributes t

theorem definitionAttributes_reads :
    ∀ fuel attributes k, k ≤ fuel → S.Reads k never (definitionAttributes fuel attributes)
  | 0, _, _, hk => exhausted_reads hk
  | fuel + 1, attributes, k, hk => by
    refine .inspect fun s hs => ?_
    have ih := fun attributes => definitionAttributes_reads fuel attributes (k - 1) (by omega)
    split
    · refine Ends.bind_after (syntaxError_reads _ _ s hs) fun _ t hreport ht => ?_
      have htoken : t.token = s.token := by
        cases hreport
        rfl
      exact (definitionWord_reads ih htoken (hs.after ht)).weaken fun _ hb => by simp_all
    · exact definitionWord_reads ih rfl hs

variable (h : S.Sound n r)
include h

theorem definedBinding_reads (isVariant : Bool) :
    S.Reads n always (r.definedBinding isVariant) := by
  refine .paid (h.variableBinding_reads true) fun binding => ?_
  exact .optional (verifyError_reads _ _) fun _ => .pure _

theorem variableDefinition_reads (attributes : Attributes) (context : Context) (m : Mark)
    (readOnly : Bool) : S.Reads n never (r.variableDefinition attributes context m readOnly) := by
  refine .seq (h.separated_reads (h.definedBinding_reads _)) fun bindings => ?_
  refine .seq endStatement_reads fun ended => ?_
  refine .seq (finish_reads m) fun span => ?_
  refine .branch (verifyError_reads _ _) (checkContext_reads _ _) fun _ => ?_
  exact .seq (restrictModifiers_reads _ _ _) fun _ => .pure _

theorem constructorDefinition_reads (attributes : Attributes) (m : Mark) (id : Identifier) :
    S.Reads n never (r.constructorDefinition attributes m id) := by
  refine .seq (h.functionParts_reads none _) fun parts => ?_
  refine .seq (finish_reads m) fun span => ?_
  refine .seq (checkBody_reads _ _ _) fun _ => ?_
  refine .seq (checkUses_reads _ _ _) fun _ => ?_
  exact .seq (restrictModifiers_reads _ _ _) fun _ => .pure _

theorem accessorDefinition_reads (attributes : Attributes) (context : Context) (m : Mark)
    (id : Identifier) (isGetter : Bool) :
    S.Reads n never (r.accessorDefinition attributes context m id isGetter) := by
  refine .seq (h.functionParts_reads none _) fun parts => ?_
  refine .seq (finish_reads m) fun span => ?_
  refine .seq (checkMethod_reads _ _ _ _) fun _ => ?_
  exact .seq (checkUses_reads _ _ _) fun _ => .pure _

theorem proxyDefinition_reads (attributes : Attributes) (context : Context) (m : Mark)
    (id : Identifier) : S.Reads n never (r.proxyDefinition attributes context m id) := by
  refine .seq (h.functionParts_reads none _) fun parts => ?_
  refine .seq (finish_reads m) fun span => ?_
  cases Words.proxyOperator? id.name with
  | some op => exact .seq (checkProxy_reads _ _ _ _ op) fun _ => .pure _
  | none => exact .seq (report_reads _ _ _ _) fun _ => .pure _

theorem functionDefinition_reads (attributes : Attributes) (context : Context) (m : Mark) :
    S.Reads n never (r.functionDefinition attributes context m) := by
  refine .seq identifier_reads fun id => ?_
  refine .seq previous_reads fun word => ?_
  refine .seq (at?_reads _) fun named => ?_
  refine .ite ?_ ?_
  · exact .seq identifier_reads fun id => h.accessorDefinition_reads attributes context m id _
  refine .ite (h.constructorDefinition_reads attributes m id) ?_
  refine .ite (h.proxyDefinition_reads attributes context m id) ?_
  refine .seq h.optGenerics_reads fun generics => ?_
  refine .seq (h.functionParts_reads generics _) fun parts => ?_
  refine .seq (finish_reads m) fun span => ?_
  exact .seq (checkMethod_reads _ _ _ _) fun _ => .pure _

theorem namespaceAlias_reads (attributes : Attributes) (context : Context) (m : Mark)
    (id : Identifier) : S.Reads n never (r.namespaceAlias attributes context m id) := by
  refine .seq (h.expr_reads _) fun e => ?_
  refine .seq endStatement_reads fun ended => ?_
  refine .seq (checkContext_reads _ _) fun _ => ?_
  refine .seq (restrictModifiers_reads _ _ _) fun _ => ?_
  exact .seq (finish_reads m) fun _ => .pure _

theorem namespaceDefinition_reads (attributes : Attributes) (context : Context) (m : Mark) :
    S.Reads n never (r.namespaceDefinition attributes context m) := by
  refine .seq identifier_reads fun id => ?_
  refine .seq (consume_reads (by decide)) fun aliased => ?_
  refine .ite (h.namespaceAlias_reads attributes context m id) ?_
  refine .seq (h.block _) fun block => ?_
  refine .seq (checkContext_reads _ _) fun _ => ?_
  refine .seq (restrictModifiers_reads _ _ _) fun _ => ?_
  exact .seq (finish_reads m) fun _ => .pure _

theorem classHeritage_reads :
    ∀ fuel heritage k, k ≤ n → k ≤ fuel → S.Reads k never (r.classHeritage fuel heritage)
  | 0, _, _, _, hk => exhausted_reads hk
  | fuel + 1, heritage, k, hn, hk => by
    have ih := fun heritage => classHeritage_reads fuel heritage (k - 1) (by omega) (by omega)
    refine .bool (consumeKeyword_reads _) ?_ ?_
    · refine .seq (h.typeExpr.mono (by omega)) fun type => ?_
      exact .optional (syntaxError_reads _ _) fun _ => ih _
    refine .bool (consumeKeyword_reads _) ?_ ?_
    · exact .seq ((h.separated_reads h.typeExpr).mono (by omega)) fun types => ih _
    exact .option ((h.boundsClause?_reads _).mono hn) (fun generics => ih _) (.pure _)

theorem interfaceHeritage_reads :
    ∀ fuel heritage k, k ≤ n → k ≤ fuel → S.Reads k never (r.interfaceHeritage fuel heritage)
  | 0, _, _, _, hk => exhausted_reads hk
  | fuel + 1, heritage, k, hn, hk => by
    have ih := fun heritage => interfaceHeritage_reads fuel heritage (k - 1) (by omega) (by omega)
    refine .bool (consumeKeyword_reads _) ?_ ?_
    · exact .seq ((h.separated_reads h.typeExpr).mono (by omega)) fun types => ih _
    exact .option ((h.boundsClause?_reads _).mono hn) (fun generics => ih _) (.pure _)

theorem classDefinition_reads (attributes : Attributes) (context : Context) (m : Mark) :
    S.Reads n never (r.classDefinition attributes context m) := by
  refine .seq identifier_reads fun id => ?_
  refine .seq h.optGenerics_reads fun generics => ?_
  refine .seq (h.classHeritage_reads _ _ n (Nat.le_refl n) (h.rounds_le (by omega)))
    fun heritage => ?_
  refine .seq (h.block _) fun block => ?_
  refine .seq (checkContext_reads _ _) fun _ => ?_
  refine .optional (verifyError_reads _ _) fun _ => ?_
  refine .optional (verifyError_reads _ _) fun _ => ?_
  refine .seq (restrictModifiers_reads _ _ _) fun _ => ?_
  exact .seq (finish_reads m) fun _ => .pure _

theorem interfaceDefinition_reads (attributes : Attributes) (context : Context) (m : Mark) :
    S.Reads n never (r.interfaceDefinition attributes context m) := by
  refine .seq identifier_reads fun id => ?_
  refine .seq h.optGenerics_reads fun generics => ?_
  refine .seq (h.interfaceHeritage_reads _ _ n (Nat.le_refl n) (h.rounds_le (by omega)))
    fun heritage => ?_
  refine .seq (h.block _) fun block => ?_
  refine .seq (checkContext_reads _ _) fun _ => ?_
  refine .seq (restrictModifiers_reads _ _ _) fun _ => ?_
  exact .seq (finish_reads m) fun _ => .pure _

theorem enumDefinition_reads (attributes : Attributes) (context : Context) (m : Mark) :
    S.Reads n never (r.enumDefinition attributes context m) := by
  refine .seq identifier_reads fun id => ?_
  refine .seq h.optAnnotation_reads fun numericType => ?_
  refine .seq (h.block _) fun block => ?_
  refine .seq (checkContext_reads _ _) fun _ => ?_
  refine .seq (restrictModifiers_reads _ _ _) fun _ => ?_
  exact .seq (finish_reads m) fun _ => .pure _

theorem boundsClauses_reads :
    ∀ fuel generics k, k ≤ n → k ≤ fuel → S.Reads k never (r.boundsClauses fuel generics)
  | 0, _, _, _, hk => exhausted_reads hk
  | fuel + 1, generics, k, hn, hk => by
    refine .option ((h.boundsClause?_reads _).mono hn) (fun longer => ?_) (.pure _)
    exact boundsClauses_reads fuel _ _ (by omega) (by omega)

theorem typeDefinition_reads (attributes : Attributes) (context : Context) (m : Mark) :
    S.Reads n never (r.typeDefinition attributes context m) := by
  refine .seq identifier_reads fun id => ?_
  refine .seq h.optGenerics_reads fun generics => ?_
  refine .seq (h.boundsClauses_reads _ _ n (Nat.le_refl n) (h.rounds_le (by omega)))
    fun generics => ?_
  refine .seq (expect_reads (by decide)) fun _ => ?_
  refine .seq h.typeExpr fun type => ?_
  refine .seq endStatement_reads fun ended => ?_
  refine .seq (checkContext_reads _ _) fun _ => ?_
  refine .seq (restrictModifiers_reads _ _ _) fun _ => ?_
  exact .seq (finish_reads m) fun _ => .pure _

theorem definition_reads (attributes : Attributes) (context : Context) (m : Mark) :
    S.Reads n never (r.definition attributes context m) := by
  refine .seq previous_reads fun keyword => ?_
  refine .ite (h.variableDefinition_reads attributes context m false) ?_
  refine .ite (h.variableDefinition_reads attributes context m true) ?_
  refine .ite (h.functionDefinition_reads attributes context m) ?_
  refine .ite (h.namespaceDefinition_reads attributes context m) ?_
  refine .ite (h.classDefinition_reads attributes context m) ?_
  refine .ite (h.interfaceDefinition_reads attributes context m) ?_
  refine .ite (h.enumDefinition_reads attributes context m) ?_
  exact .ite (h.typeDefinition_reads attributes context m) unexpected_reads

theorem modifiedDefinition_reads (attributes : Attributes) (context : Context) (m : Mark) :
    S.Reads n never (r.modifiedDefinition attributes context m) := by
  refine .seq (definitionAttributes_reads _ attributes n (h.rounds_le (by omega)))
    fun attributes => ?_
  refine .seq token_reads fun t => ?_
  exact .optional next_reads fun _ => h.definition_reads attributes context m

section Loops

theorem headExpr_reads : S.Reads n never r.headExpr := by
  refine .seq (expect_reads (by decide)) fun _ => ?_
  refine .seq (h.expr_reads _) fun e => ?_
  exact .seq (expect_reads (by decide)) fun _ => .pure e

theorem ifStatement_begins (context : Context) : S.Begins n (r.ifStatement context) := by
  refine .mark_next fun m => ?_
  refine .seq h.headExpr_reads fun test => ?_
  refine .seq (h.statement _) fun ⟨consequent, ended⟩ => ?_
  refine .branch (consumeKeyword_reads _).never_of (.pure false) fun hasElse => ?_
  refine .ite ?_ (.seq (finish_reads m) fun _ => .pure _)
  refine .seq (h.statement _) fun ⟨alternative, ended⟩ => ?_
  exact .seq (finish_reads m) fun _ => .pure _

theorem doStatement_begins (context : Context) : S.Begins n (r.doStatement context) := by
  refine .mark_next fun m => ?_
  refine .seq (h.statement _) fun ⟨body, ended⟩ => ?_
  refine .optional unexpected_reads fun _ => ?_
  refine .seq (expectKeyword_reads _) fun _ => ?_
  refine .seq h.headExpr_reads fun test => ?_
  exact .seq (finish_reads m) fun _ => .pure _

theorem whileStatement_begins (context : Context) : S.Begins n (r.whileStatement context) := by
  refine .mark_next fun m => ?_
  refine .seq h.headExpr_reads fun test => ?_
  refine .seq (h.statement _) fun ⟨body, ended⟩ => ?_
  exact .seq (finish_reads m) fun _ => .pure _

theorem forInRest_reads (context : Context) (m : Mark) (iteratesKeys : Bool) (left : ForBinding) :
    S.Reads n never (do
      let right ← r.expr {}
      expect .rightParen
      let (body, ended) ← r.statement context.loopBody
      return (.forIn (← finish m) iteratesKeys left right body, ended) : Parse Ended) := by
  refine .seq (h.expr_reads _) fun right => ?_
  refine .seq (expect_reads (by decide)) fun _ => ?_
  refine .seq (h.statement _) fun ⟨body, ended⟩ => ?_
  exact .seq (finish_reads m) fun _ => .pure _

theorem forInStatement_reads (context : Context) (m : Mark) (iteratesKeys : Bool)
    (left : ForBinding) : S.Reads n never (r.forInStatement context m iteratesKeys left) := by
  have rest := h.forInRest_reads context m iteratesKeys left
  rcases left with declaration | e
  · exact .optional (syntaxError_reads _ _) fun _ => rest
  · exact rest

theorem eachBinding_reads : S.Reads n never r.eachBinding := by
  refine .seq h.variableDeclaration?_reads fun found => ?_
  cases found with
  | some declaration => exact .pure _
  | none => exact .seq (h.expr_reads _) fun _ => .pure _

theorem forEachStatement_reads (context : Context) (m : Mark) :
    S.Reads n never (r.forEachStatement context m) := by
  refine .seq (expect_reads (by decide)) fun _ => ?_
  refine .seq h.eachBinding_reads fun left => ?_
  refine .seq (expectKeyword_reads _) fun _ => ?_
  exact h.forInStatement_reads context m false left

theorem forHead_reads : S.Reads n never r.forHead := by
  refine .seq h.variableDeclaration?_reads fun found => ?_
  cases found with
  | some declaration => exact .pure _
  | none =>
    refine .seq (h.optExpr _) fun e => ?_
    cases e with
    | some e => exact .pure _
    | none => exact .pure _

theorem forInit_reads (head : ForBinding) : S.Reads n never (r.forInit head) := by
  rcases head with declaration | e
  · exact .pure _
  · exact .seq ((h.continued_reads e _ _).mono (Nat.le_succ n)) fun _ => .pure _

theorem forRest_reads (context : Context) (m : Mark) (init : Option ForBinding) :
    S.Reads n never (r.forRest context m init) := by
  have optional : ∀ mode, S.Reads n never (some <$> r.expr mode) :=
    fun mode => .map (h.expr_reads mode) nofun
  refine .seq (expect_reads (by decide)) fun _ => ?_
  refine .seq (at?_reads _) fun untested => ?_
  refine .branch (.pure none) (optional _) fun test => ?_
  refine .seq (expect_reads (by decide)) fun _ => ?_
  refine .seq (at?_reads _) fun fixed => ?_
  refine .branch (.pure none) (optional _) fun update => ?_
  refine .seq (expect_reads (by decide)) fun _ => ?_
  refine .seq (h.statement _) fun ⟨body, ended⟩ => ?_
  exact .seq (finish_reads m) fun _ => .pure _

theorem forStatement_begins (context : Context) : S.Begins n (r.forStatement context) := by
  refine .mark_next fun m => ?_
  refine .seq (consumeContextKeyword_reads _) fun each => ?_
  refine .ite (h.forEachStatement_reads context m) ?_
  refine .seq (expect_reads (by decide)) fun _ => ?_
  refine .seq h.forHead_reads fun head => ?_
  cases head with
  | none => exact h.forRest_reads context m none
  | some head =>
    refine .seq (consumeKeyword_reads _) fun iterates => ?_
    refine .ite (h.forInStatement_reads context m true head) ?_
    exact .seq (h.forInit_reads head) fun init => h.forRest_reads context m _

theorem caseStatements_reads (context : Context) :
    ∀ fuel k, k ≤ n → k ≤ fuel → S.Reads k never (r.caseStatements context fuel)
  | 0, _, _, hk => exhausted_reads hk
  | fuel + 1, k, hn, hk => by
    refine .seq token_reads fun t => ?_
    refine .ite (.pure _) ?_
    refine .moved ((h.statement context).mono hn) fun ⟨first, ended⟩ => ?_
    refine .ite ?_ (.pure _)
    exact .seq (caseStatements_reads context fuel _ (by omega) (by omega)) fun _ => .pure _

theorem caseTest_reads : S.Reads n always r.caseTest := by
  refine .bool (consumeKeyword_reads _) ?_ ?_
  · exact Reads.mono (.map (h.expr_reads _) nofun) (Nat.sub_le n 1)
  · exact .paid (expectKeyword_reads _) fun _ => .pure none

theorem switchCases_reads (context : Context) :
    ∀ fuel k, k ≤ n → k ≤ fuel → S.Reads k never (r.switchCases context fuel)
  | 0, _, _, hk => exhausted_reads hk
  | fuel + 1, k, hn, hk => by
    refine .seq (at?_reads _) fun closed => ?_
    refine .ite (.pure _) ?_
    refine .seq mark_reads fun m => ?_
    refine .moved (h.caseTest_reads.mono hn) fun test => ?_
    refine .seq (expect_reads (by decide)) fun _ => ?_
    have hcase := h.caseStatements_reads context r.rounds n (Nat.le_refl n) (h.rounds_le (by omega))
    refine .seq (hcase.mono (by omega)) fun ⟨consequent, ended⟩ => ?_
    refine .seq (finish_reads m) fun span => ?_
    refine .ite ?_ (.pure _)
    exact .seq (switchCases_reads context fuel _ (by omega) (by omega)) fun _ => .pure _

theorem typeCaseHead?_reads : S.Reads n Option.isSome r.typeCaseHead? := by
  refine .bool (consumeKeyword_reads _) ?_ ?_
  · refine .mono ?_ (Nat.sub_le n 1)
    refine .seq (expect_reads (by decide)) fun _ => ?_
    refine .seq h.pattern_reads fun pattern => ?_
    exact .seq (expect_reads (by decide)) fun _ => .pure _
  · exact .bool (consumeKeyword_reads _) (.pure _) .pure_none

theorem typeCase?_reads (context : Context) :
    S.Reads n Option.isSome (r.typeCase? context) := by
  refine .look mark_reads fun m => ?_
  refine .option h.typeCaseHead?_reads (fun pattern => ?_) .pure_none
  refine .mono ?_ (Nat.sub_le n 1)
  exact .seq (h.block _) fun block => .seq (finish_reads m) fun _ => .pure _

theorem switchTypeStatement_reads (context : Context) (m : Mark) :
    S.Reads n never (r.switchTypeStatement context m) := by
  refine .seq h.headExpr_reads fun discriminant => ?_
  refine .seq (expect_reads (by decide)) fun _ => ?_
  refine .seq (h.collectWhile_reads (h.typeCase?_reads context)) fun cases => ?_
  refine .seq (expect_reads (by decide)) fun _ => ?_
  exact .seq (finish_reads m) fun _ => .pure _

theorem switchStatement_begins (context : Context) : S.Begins n (r.switchStatement context) := by
  refine .mark_next fun m => ?_
  refine .seq (consumeContextKeyword_reads _) fun onType => ?_
  refine .ite (h.switchTypeStatement_reads context m) ?_
  refine .seq h.headExpr_reads fun discriminant => ?_
  refine .seq (expect_reads (by decide)) fun _ => ?_
  refine .seq (h.switchCases_reads _ _ n (Nat.le_refl n) (h.rounds_le (by omega))) fun cases => ?_
  refine .seq (expect_reads (by decide)) fun _ => ?_
  exact .seq (finish_reads m) fun _ => .pure _

end Loops

theorem blockStatements_reads (context : Context) :
    ∀ fuel k, k ≤ n → k ≤ fuel → S.Reads k never (r.blockStatements context fuel)
  | 0, _, _, hk => exhausted_reads hk
  | fuel + 1, k, hn, hk => by
    refine .seq (at?_reads _) fun closed => ?_
    refine .ite (.pure _) ?_
    refine .moved ((h.statement context).mono hn) fun ⟨first, ended⟩ => ?_
    refine .ite ?_ (.pure _)
    exact .seq (blockStatements_reads context fuel _ (by omega) (by omega)) fun _ => .pure _

theorem blockRule_reads (context : Context) : S.Reads (n + 1) always (r.blockRule context) := by
  refine freshSuper_reads ?_
  refine .look mark_reads fun m => ?_
  refine .moved (expect_reads (by decide)) fun _ => ?_
  refine .seq (h.blockStatements_reads context _ n (Nat.le_refl n) (h.rounds_le (by omega)))
    fun statements => ?_
  refine .seq (expect_reads (by decide)) fun _ => ?_
  exact .seq (finish_reads m) fun _ => .pure _

theorem optExpressionStatement_reads :
    S.Reads (n + 1) Option.isSome r.optExpressionStatement := by
  refine .option (h.optExprRule_reads _) (fun e => ?_) .pure_none
  exact .seq (expressionStatement_reads e) fun _ => .pure _

theorem superStatement_begins (context : Context) : S.Begins n (r.superStatement context) := by
  refine .mark_next fun m => ?_
  refine .seq (consume_reads (by decide)) fun called => ?_
  refine .ite ?_ ?_
  · refine .seq h.arguments_reads fun arguments => ?_
    refine .seq endStatement_reads fun ended => ?_
    refine .seq (finish_reads m) fun span => ?_
    exact .seq (noteSuper_reads context span) fun _ => .pure _
  · refine .seq (finish_reads m) fun span => ?_
    refine .seq ((h.continued_reads _ _ _).mono (Nat.le_succ n)) fun e => ?_
    exact expressionStatement_reads e

omit h in
theorem importParts_reads : ∀ fuel k, k ≤ fuel → S.Reads k never (importParts fuel)
  | 0, _, hk => exhausted_reads hk
  | fuel + 1, k, hk => by
    refine .bool (consume_reads (by decide)) ?_ (.pure _)
    refine .seq (consumeOperator_reads _) fun all => ?_
    refine .ite (.pure _) ?_
    refine .seq (consumeOperator_reads _) fun allBelow => ?_
    refine .ite (.pure _) ?_
    refine .seq wordIdentifier_reads fun first => ?_
    exact .seq (importParts_reads fuel _ (by omega)) fun _ => .pure _

omit h in
theorem importHead_reads : S.Reads n never importHead := by
  refine .seq identifier_reads fun id => ?_
  refine .seq (at?_reads _) fun plain => ?_
  refine .ite (.pure _) ?_
  refine .seq (expect_reads (by decide)) fun _ => ?_
  refine .seq identifier_reads fun first => ?_
  refine .seq (at?_reads _) fun more => ?_
  exact .optional unexpected_reads fun _ => .pure _

theorem importStatement_begins : S.Begins n r.importStatement := by
  refine .mark_next fun m => ?_
  refine .seq (consume_reads (by decide)) fun onMeta => ?_
  refine .ite ?_ ?_
  · refine .seq (expectContextKeyword_reads _) fun _ => ?_
    refine .seq (finish_reads m) fun span => ?_
    refine .seq ((h.continued_reads _ _ _).mono (Nat.le_succ n)) fun e => ?_
    exact expressionStatement_reads e
  refine .seq importHead_reads fun ⟨localName, first⟩ => ?_
  refine .seq (importParts_reads _ n (h.rounds_le (by omega))) fun ⟨rest, ending⟩ => ?_
  refine .seq endStatement_reads fun ended => ?_
  exact .seq (finish_reads m) fun _ => .pure _

theorem returnStatement_begins : S.Begins n r.returnStatement := by
  refine .mark_next fun m => ?_
  refine .seq endStatement_reads fun ended => ?_
  refine .seq get_reads fun s => ?_
  refine .branch (h.optExpr _).never_of (.pure none) fun value => ?_
  refine .branch endStatement_reads (.pure ended) fun ended => ?_
  exact .seq (finish_reads m) fun _ => .pure _

theorem throwStatement_begins : S.Begins n r.throwStatement := by
  refine .mark_next fun m => ?_
  refine .seq (h.expr_reads _) fun e => ?_
  refine .seq endStatement_reads fun ended => ?_
  exact .seq (finish_reads m) fun _ => .pure _

theorem catchClause?_reads (context : Context) :
    S.Reads n Option.isSome (r.catchClause? context) := by
  refine .introduced "catch" fun m => ?_
  refine .seq (expect_reads (by decide)) fun _ => ?_
  refine .seq h.pattern_reads fun pattern => ?_
  refine .seq (expect_reads (by decide)) fun _ => ?_
  refine .seq (h.block _) fun block => ?_
  exact .seq (finish_reads m) fun _ => .pure _

theorem tryStatement_begins (context : Context) : S.Begins n (r.tryStatement context) := by
  refine .mark_next fun m => ?_
  refine .seq (h.block _) fun block => ?_
  refine .seq (h.collectWhile_reads (h.catchClause?_reads context)) fun catches => ?_
  refine .seq (consumeKeyword_reads _) fun hasLast => ?_
  refine .branch (.map (h.block _) nofun) (.pure none) fun last => ?_
  refine .seq (finish_reads m) fun span => ?_
  exact .optional (syntaxError_reads _ _) fun _ => .pure _

theorem useResourceStatement_reads (context : Context) (m : Mark) :
    S.Reads n never (r.useResourceStatement context m) := by
  refine .seq (expect_reads (by decide)) fun _ => ?_
  refine .seq (h.separatedUntil_reads _ (h.variableBinding_reads true)) fun bindings => ?_
  refine .seq (expect_reads (by decide)) fun _ => ?_
  refine .seq (h.block _) fun block => ?_
  exact .seq (finish_reads m) fun _ => .pure _

theorem useStatement_begins (context : Context) : S.Begins n (r.useStatement context) := by
  refine .mark_next fun m => ?_
  refine .seq (consumeContextKeyword_reads _) fun resource => ?_
  refine .ite (h.useResourceStatement_reads context m) ?_
  refine .seq (expectContextKeyword_reads _) fun _ => ?_
  refine .seq (h.expr_reads _) fun e => ?_
  refine .seq endStatement_reads fun ended => ?_
  exact .seq (finish_reads m) fun _ => .pure _

theorem withStatement_begins (context : Context) : S.Begins n (r.withStatement context) := by
  refine .mark_next fun m => ?_
  refine .seq h.headExpr_reads fun object => ?_
  refine .seq (h.statement _) fun ⟨body, ended⟩ => ?_
  exact .seq (finish_reads m) fun _ => .pure _

/-- What an inclusion hands over is noted at once. -/
theorem included_ends (context : Context) (span : Span) (source path : String) (ended : Bool)
    (s : ParserState) :
    S.Ends never s ((do
      let (child, statements) ← r.included context (S.file path)
      addIncluded child
      return (.includeSource span source child statements, ended) : Parse Ended) s) := by
  have hread := h.included context path s
  show S.Ends never s (EStateM.bind _ _ s)
  unfold EStateM.bind
  cases hresult : r.included context (S.file path) s with
  | error stop t =>
    rw [hresult] at hread
    obtain ⟨rfl, hreaches, he⟩ := hread
    exact ⟨hreaches, he⟩
  | ok value t =>
    rw [hresult] at hread
    obtain ⟨child, statements⟩ := value
    obtain ⟨stop, u, hreaches, hstop, rfl, rfl⟩ := hread
    exact ⟨hreaches.included hstop, Nat.le_refl _⟩

theorem includeStatement_reads (context : Context) (m : Mark) (source : String) :
    S.Reads n never (r.includeStatement context m source) := by
  refine .seq next_reads fun _ => ?_
  refine .seq endStatement_reads fun ended => ?_
  refine .seq (finish_reads m) fun span => ?_
  refine .inspect fun s hs => ?_
  refine Ends.bind_after (includedText_reads _ span s hs) fun text t htext _ => ?_
  obtain ⟨rfl, -⟩ := includedText_ok htext
  rw [h.readFile]
  exact (h.included_ends context span source _ ended t).weaken fun _ hb => by simp_all

theorem labeledStatement_reads (context : Context) (m : Mark) (label : String) :
    S.Reads n never (r.labeledStatement context m label) := by
  refine .seq (h.statement _) fun ⟨statement, ended⟩ => ?_
  exact .seq (finish_reads m) fun _ => .pure _

theorem identifierStatement_reads (context : Context) (m : Mark) :
    S.Reads n never (r.identifierStatement context m) := by
  refine .seq previous_reads fun label => ?_
  refine .seq (consume_reads (by decide)) fun labeled => ?_
  refine .ite (h.labeledStatement_reads context m _) ?_
  refine .inspect fun s hs => ?_
  dsimp only
  split
  · exact h.includeStatement_reads context m _ s hs
  split
  · exact h.definition_reads _ context m s hs
  generalize (Words.modifier? s.previous).filter _ = found
  cases found with
  | some modifier => exact h.modifiedDefinition_reads _ context m s hs
  | none =>
    refine Reads.seq (h.identifierPrimary_reads true) (fun first => ?_) s hs
    refine .seq ((h.continued_reads first _ _).mono (Nat.le_succ n)) fun e => ?_
    exact expressionStatement_reads e

theorem moreBrackets_reads :
    ∀ fuel read k, k ≤ n → k ≤ fuel → S.Reads k never (r.moreBrackets fuel read)
  | 0, _, _, _, hk => exhausted_reads hk
  | fuel + 1, read, k, hn, hk => by
    refine .seq get_reads fun s => ?_
    refine .ite ?_ (.pure _)
    refine .moved ((h.expr_reads _).mono hn) fun e => ?_
    exact moreBrackets_reads fuel _ _ (by omega) (by omega)

theorem bracketStatement_reads (context : Context) (m : Mark) :
    S.Reads (n + 1) always (r.bracketStatement context m) := by
  refine .moved (h.exprRule_reads _) fun first => ?_
  refine .seq (h.moreBrackets_reads _ _ n (Nat.le_refl n) (h.rounds_le (by omega))) fun all => ?_
  refine .seq token_reads fun t => ?_
  refine .ite (h.modifiedDefinition_reads _ context m) ?_
  split
  · exact expressionStatement_reads _
  · exact .seq (finish_reads m) fun span => expressionStatement_reads _

omit h in
theorem definitionAttributes_keyword {s : ParserState} (fuel : Nat)
    (hkind : s.token.kind = .keyword) :
    definitionAttributes (fuel + 1) {} s = match Words.access? s.token with
      | some access => (do next; definitionAttributes fuel { access := some access }) s
      | none => .ok {} s := by
  have hmodifier : Words.modifier? s.token = none := by simp [Words.modifier?, hkind]
  have hbegun : (!Modifiers.isEmpty {} || (none : Option Access).isSome) = false := rfl
  rw [definitionAttributes, get_bind]
  simp only [hmodifier, hbegun, Bool.false_and, Bool.false_eq_true, if_false]
  cases Words.access? s.token <;> rfl

/-- A reserved word that begins a definition is taken. -/
theorem modifiedDefinition_ends (context : Context) (m : Mark) {s : ParserState}
    (hkind : s.token.kind = .keyword) (hbegins : Words.beginsDefinition s.token)
    (hs : S.Ready (n + 1) s) : S.Ends always s (r.modifiedDefinition {} context m s) := by
  have hend : s.token.kind ≠ .endOfProgram := by simp [hkind]
  have rest : ∀ attributes, S.Reads n never (r.definition attributes context m) :=
    fun attributes => h.definition_reads attributes context m
  have hattributes : definitionAttributes r.rounds {} s = _ :=
    definitionAttributes_keyword (r.depth + 1) hkind
  unfold modifiedDefinition
  cases haccess : Words.access? s.token with
  | some access =>
    rw [haccess] at hattributes
    have hmoved : S.Ends always s (definitionAttributes r.rounds {} s) := by
      refine hattributes ▸ next_then hend hs ?_
      exact definitionAttributes_reads _ _ n (by have := h.depth; omega)
    refine Ends.bind_after hmoved fun attributes t _ ht => ?_
    refine Ends.weaken (c := never) ?_ fun _ hb => by simp_all
    refine Reads.seq token_reads (fun u => ?_) t (hs.moved ht)
    exact .optional next_reads fun _ => rest attributes
  | none =>
    rw [haccess] at hattributes
    have hstrict : Words.isStrictDefinition s.token := by
      simpa [Words.beginsDefinition, haccess] using hbegins
    have hkept : S.Ends never s (definitionAttributes r.rounds {} s) := hattributes ▸ .refl s
    refine Ends.bind_after hkept fun attributes t ht _ => ?_
    have hstate : t = s := by
      rw [hattributes] at ht
      cases ht
      rfl
    subst hstate
    rw [token_bind, if_pos (by simp [hstrict])]
    exact next_then hend hs (rest attributes)

theorem keywordStatement_ends (context : Context) (m : Mark) {s : ParserState}
    (hkind : s.token.kind = .keyword) (hs : S.Ready (n + 1) s) :
    S.Ends Option.isSome s (r.keywordStatement context m s.token s) := by
  have hend : s.token.kind ≠ .endOfProgram := by simp [hkind]
  have found : ∀ {x : Parse Ended}, S.Begins n x → S.Ends Option.isSome s ((some <$> x) s) :=
    fun hx => (hx.taken s hend hs).map fun _ _ => rfl
  unfold keywordStatement
  generalize s.token.text = word
  split
  · exact found (h.superStatement_begins context)
  · exact found h.importStatement_begins
  · exact found (h.ifStatement_begins context)
  · exact found (h.doStatement_begins context)
  · exact found (h.whileStatement_begins context)
  · exact found (breakStatement_begins context)
  · exact found (continueStatement_begins context)
  · exact found h.returnStatement_begins
  · exact found h.throwStatement_begins
  · exact found (h.tryStatement_begins context)
  · exact found (h.forStatement_begins context)
  · exact found (h.switchStatement_begins context)
  · exact found (h.useStatement_begins context)
  · exact found (h.withStatement_begins context)
  · split
    · rename_i hbegins
      exact (h.modifiedDefinition_ends context m hkind hbegins hs).map fun _ _ => rfl
    · exact h.optExpressionStatement_reads s hs

theorem optStatement_reads (context : Context) :
    S.Reads (n + 1) Option.isSome (r.optStatement context) := by
  refine .look mark_reads fun m => ?_
  refine .inspectToken fun s hs => ?_
  generalize hkind : s.token.kind = kind
  split
  · exact h.keywordStatement_ends context m hkind hs
  · refine next_then (by simp [hkind]) hs ?_
    exact .map (h.identifierStatement_reads context m) (by rintro _ ⟨⟩)
  · refine Reads.paid (h.blockRule_reads _) (fun block => ?_) s hs
    exact .pure _
  · exact next_then (by simp [hkind]) hs (.pure _)
  · exact (h.bracketStatement_reads context m s hs).map fun _ _ => rfl
  · exact h.optExpressionStatement_reads s hs

theorem statementRule_reads (context : Context) :
    S.Reads (n + 1) always (r.statementRule context) :=
  .option (h.optStatement_reads context) (fun found => .pure found) unexpected_reads

end ActionSyntax.Setting.Sound
