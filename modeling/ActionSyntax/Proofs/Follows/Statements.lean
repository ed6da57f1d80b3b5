import ActionSyntax.Grammar.Statements
import ActionSyntax.Proofs.Follows.Expressions

/-!
How definitions and statements are read, side by side.
-/

namespace ActionSyntax.Alike

set_option autoImplicit false

open Parse Rules

variable {refused : ParserState → Prop} {r r' : Rules} {known : List Place}

section Jumps

theorem jump_follows : Follows refused known jump jump := by
  refine .seq mark_follows fun m => ?_
  refine .seq next_follows fun _ => ?_
  refine .seq get_follows fun s => ?_
  refine .branch consumeIdentifier_follows (.pure false (List.nil_subset _)) fun hasLabel => ?_
  refine .seq previous_follows fun name => ?_
  exact .seq endStatement_follows fun ended => finished_follows m (by grind) fun _ _ h => h

theorem checkJump_follows (context : Context) (j : Jump) (legal : Bool) (id : ProblemId)
    (hj : places j ⊆ known) :
    Follows refused known (checkJump context j legal id) (checkJump context j legal id) := by
  unfold checkJump
  split
  · exact .ite (.pure () (List.nil_subset _)) (report_follows (by decide) _ _ _ (by grind))
  · exact .ite (.pure () (List.nil_subset _)) (syntaxError_follows _ _ (by grind))

theorem breakStatement_follows (context : Context) :
    Follows refused known (breakStatement context) (breakStatement context) :=
  .seq jump_follows fun j => .seq (checkJump_follows context j _ _ (by grind)) fun _ =>
    .pure _ (List.nil_subset _)

theorem continueStatement_follows (context : Context) :
    Follows refused known (continueStatement context) (continueStatement context) :=
  .seq jump_follows fun j => .seq (checkJump_follows context j _ _ (by grind)) fun _ =>
    .pure _ (List.nil_subset _)

end Jumps

section Checks

theorem restrictModifiers_follows (span : Span) (actual : Modifiers) (restricted : List Modifier)
    (hspan : places span ⊆ known) :
    Follows refused known (restrictModifiers span actual restricted)
      (restrictModifiers span actual restricted) :=
  .forM (fun _ => report_follows (by decide) _ _ _ hspan) _

theorem checkContext_follows (allowed : Bool) (span : Span)
    (hspan : places span ⊆ known) :
    Follows refused known (checkContext allowed span) (checkContext allowed span) :=
  .ite (verifyError_follows _ _ hspan) (.pure () (List.nil_subset _))

variable (attributes : Attributes) (context : Context) (common : FunctionCommon) (id : Identifier)
  (hid : places id ⊆ known)
include hid

theorem checkBody_follows : Follows refused known (checkBody attributes common id)
    (checkBody attributes common id) :=
  .ite (.ite (syntaxError_follows _ _ (by grind)) (.pure ()
    (List.nil_subset _))) (.ite (syntaxError_follows _ _ (by grind)) (.pure () (List.nil_subset _)))

theorem checkMethod_follows : Follows refused known (checkMethod attributes context common id)
    (checkMethod attributes context common id) :=
  .ite (.ite (syntaxError_follows _ _ (by grind)) (.pure ()
    (List.nil_subset _))) (checkBody_follows attributes common id (by grind))

theorem checkUses_follows (mayYield : Bool) :
    Follows refused known (checkUses common id mayYield) (checkUses common id mayYield) :=
  .ite (syntaxError_follows _ _ (by grind)) (.ite (syntaxError_follows _ _ (by grind)) (.pure ()
    (List.nil_subset _)))

theorem checkProxy_follows (op : Operator) :
    Follows refused known (checkProxy attributes context common id op)
      (checkProxy attributes context common id op) := by
  have rest : ∀ known, places id ⊆ known → Follows refused known (do
        checkUses common id (op == .iterateKeys || op == .iterateValues)
        restrictModifiers id.span attributes.modifiers [.final, .override, .static]
        if !hasProxyParameters op common then verifyError .proxyHasWrongNumParams id.span)
      (do
        checkUses common id (op == .iterateKeys || op == .iterateValues)
        restrictModifiers id.span attributes.modifiers [.final, .override, .static]
        if !hasProxyParameters op common then verifyError .proxyHasWrongNumParams id.span) := by
    intro known hid
    refine .seq (checkUses_follows common id hid _) fun _ => ?_
    refine .seq (restrictModifiers_follows _ _ _ (by grind)) fun _ => ?_
    exact .ite (verifyError_follows _ _ (by grind)) (.pure () (List.nil_subset _))
  exact .ite (.seq (checkBody_follows attributes common id (by grind)) fun _ => rest _ hid)
    (.seq (checkContext_follows _ _ (by grind)) fun _ => rest _ hid)

end Checks

theorem expressionStatement_follows (e : Expr) (he : places e ⊆ known) :
    Follows refused known (expressionStatement e) (expressionStatement e) :=
  .seq endStatement_follows fun _ => finished_follows _ (by grind) fun _ => List.nil_subset _

theorem noteSuper_follows (context : Context) (span : Span) (hspan : places span ⊆ known) :
    Follows refused known (noteSuper context span) (noteSuper context span) := by
  intro s hs hknown
  unfold noteSuper
  rw [get_bind]
  split
  · exact syntaxError_follows _ _ hspan s hs hknown
  · exact note_lands s.functions true rfl rfl

theorem definitionAttributes_follows :
    ∀ fuel attributes known, Follows refused known (definitionAttributes fuel attributes)
      (definitionAttributes fuel attributes)
  | 0, _, _ => exhausted_follows
  | fuel + 1, attributes, known => by
    refine .seq get_follows fun s => ?_
    refine .optional (syntaxError_follows _ _ (by grind)) ?_
    split
    · exact .seq next_follows fun _ => definitionAttributes_follows fuel _ _
    · exact .seq next_follows fun _ => definitionAttributes_follows fuel _ _
    · exact .pure _ (List.nil_subset _)

variable (h : Alike refused r r')
include h

section Definitions

theorem definedBinding_follows (isVariant : Bool) :
    Follows refused known (r.definedBinding isVariant) (r'.definedBinding isVariant) :=
  .seq (h.variableBinding_follows true) fun binding =>
    .optional (verifyError_follows _ _ (by grind)) (.pure _ (by grind))

theorem variableDefinition_follows (attributes : Attributes) (context : Context) (m : Mark)
    (readOnly : Bool) (hm : places m ⊆ known) :
    Follows refused known (r.variableDefinition attributes context m readOnly)
      (r'.variableDefinition attributes context m readOnly) := by
  refine .seq (h.separated_follows fun _ => h.definedBinding_follows _) fun bindings => ?_
  refine .seq endStatement_follows fun ended => ?_
  refine .seq (finish_follows m (by grind)) fun span => ?_
  refine .branch (verifyError_follows _ _ (by grind)) (checkContext_follows _ _ (by grind))
    fun _ => ?_
  exact .seq (restrictModifiers_follows _ _ _ (by grind)) fun _ => .pure _ (List.nil_subset _)

theorem constructorDefinition_follows (attributes : Attributes) (m : Mark) (id : Identifier)
    (hm : places m ⊆ known) (hid : places id ⊆ known) :
    Follows refused known (r.constructorDefinition attributes m id)
      (r'.constructorDefinition attributes m id) := by
  refine .seq (h.functionParts_follows none _) fun parts => ?_
  refine .seq (finish_follows m (by grind)) fun span => ?_
  refine .seq (checkBody_follows _ _ _ (by grind)) fun _ => ?_
  refine .seq (checkUses_follows _ _ (by grind) _) fun _ => ?_
  exact .seq (restrictModifiers_follows _ _ _ (by grind)) fun _ => .pure _ (List.nil_subset _)

theorem accessorDefinition_follows (attributes : Attributes) (context : Context) (m : Mark)
    (id : Identifier) (isGetter : Bool) (hm : places m ⊆ known) (hid : places id ⊆ known) :
    Follows refused known (r.accessorDefinition attributes context m id isGetter)
      (r'.accessorDefinition attributes context m id isGetter) := by
  refine .seq (h.functionParts_follows none _) fun parts => ?_
  refine .seq (finish_follows m (by grind)) fun span => ?_
  refine .seq (checkMethod_follows _ _ _ _ (by grind)) fun _ => ?_
  exact .seq (checkUses_follows _ _ (by grind) _) fun _ => .pure _ (List.nil_subset _)

theorem proxyDefinition_follows (attributes : Attributes) (context : Context) (m : Mark)
    (id : Identifier) (hm : places m ⊆ known) (hid : places id ⊆ known) :
    Follows refused known (r.proxyDefinition attributes context m id)
      (r'.proxyDefinition attributes context m id) := by
  refine .seq (h.functionParts_follows none _) fun parts => ?_
  refine .seq (finish_follows m (by grind)) fun span => ?_
  cases Words.proxyOperator? id.name with
  | some op =>
    exact .seq (checkProxy_follows _ _ _ _ (by grind) op) fun _ => .pure _ (List.nil_subset _)
  | none => exact .seq (report_follows (by decide) _ _ _ (by grind)) fun _ => .pure _ (List.nil_subset _)

theorem functionDefinition_follows (attributes : Attributes) (context : Context) (m : Mark)
    (hm : places m ⊆ known) : Follows refused known (r.functionDefinition attributes context m)
      (r'.functionDefinition attributes context m) := by
  refine .seq identifier_follows fun id => ?_
  refine .seq previous_follows fun word => ?_
  refine .seq (at?_follows _) fun named => ?_
  refine .ite ?_ ?_
  · refine .seq identifier_follows fun id => ?_
    exact h.accessorDefinition_follows attributes context m id _ (by grind) (by grind)
  refine .ite (h.constructorDefinition_follows attributes m id (by grind) (by grind)) ?_
  refine .ite (h.proxyDefinition_follows attributes context m id (by grind) (by grind)) ?_
  refine .seq h.optGenerics_follows fun generics => ?_
  refine .seq (h.functionParts_follows generics _) fun parts => ?_
  refine .seq (finish_follows m (by grind)) fun span => ?_
  exact .seq (checkMethod_follows _ _ _ _ (by grind)) fun _ => .pure _ (List.nil_subset _)

theorem namespaceAlias_follows (attributes : Attributes) (context : Context) (m : Mark)
    (id : Identifier) (hm : places m ⊆ known) (hid : places id ⊆ known) :
    Follows refused known (r.namespaceAlias attributes context m id)
      (r'.namespaceAlias attributes context m id) := by
  refine .seq (h.expr_follows _) fun e => ?_
  refine .seq endStatement_follows fun ended => ?_
  refine .seq (checkContext_follows _ _ (by grind)) fun _ => ?_
  exact .seq (restrictModifiers_follows _ _ _ (by grind)) fun _ =>
    finished_follows m (by grind) fun _ => List.nil_subset _

theorem namespaceDefinition_follows (attributes : Attributes) (context : Context) (m : Mark)
    (hm : places m ⊆ known) : Follows refused known (r.namespaceDefinition attributes context m)
      (r'.namespaceDefinition attributes context m) := by
  refine .seq identifier_follows fun id => ?_
  refine .seq (consume_follows _) fun aliased => ?_
  refine .ite (h.namespaceAlias_follows attributes context m id (by grind) (by grind)) ?_
  refine .seq (h.block _ _) fun block => ?_
  refine .seq (checkContext_follows _ _ (by grind)) fun _ => ?_
  exact .seq (restrictModifiers_follows _ _ _ (by grind)) fun _ =>
    finished_follows m (by grind) fun _ => List.nil_subset _

theorem classHeritage_follows :
    ∀ fuel heritage known, Follows refused known (r.classHeritage fuel heritage)
      (r'.classHeritage fuel heritage)
  | 0, _, _ => exhausted_follows
  | fuel + 1, heritage, known => by
    refine .seq (consumeKeyword_follows _) fun extending => .ite ?_ ?_
    · refine .seq (h.typeExpr _) fun type => ?_
      exact .optional (syntaxError_follows _ _ (by grind)) (classHeritage_follows fuel _ _)
    refine .seq (consumeKeyword_follows _) fun implementing => .ite ?_ ?_
    · exact .seq (h.separated_follows h.typeExpr) fun types => classHeritage_follows fuel _ _
    refine .seq (h.boundsClause?_follows _) fun found => ?_
    cases found with
    | none => exact .pure _ (List.nil_subset _)
    | some generics => exact classHeritage_follows fuel _ _

theorem interfaceHeritage_follows :
    ∀ fuel heritage known, Follows refused known (r.interfaceHeritage fuel heritage)
      (r'.interfaceHeritage fuel heritage)
  | 0, _, _ => exhausted_follows
  | fuel + 1, heritage, known => by
    refine .seq (consumeKeyword_follows _) fun extending => .ite ?_ ?_
    · exact .seq (h.separated_follows h.typeExpr) fun types => interfaceHeritage_follows fuel _ _
    refine .seq (h.boundsClause?_follows _) fun found => ?_
    cases found with
    | none => exact .pure _ (List.nil_subset _)
    | some generics => exact interfaceHeritage_follows fuel _ _

theorem classDefinition_follows (attributes : Attributes) (context : Context) (m : Mark)
    (hm : places m ⊆ known) : Follows refused known (r.classDefinition attributes context m)
      (r'.classDefinition attributes context m) := by
  refine .seq identifier_follows fun id => ?_
  refine .seq h.optGenerics_follows fun generics => ?_
  refine .seq (h.loop (fun fuel => h.classHeritage_follows fuel _ _) (r'.classHeritage_shortens _))
    fun heritage => ?_
  refine .seq (h.block _ _) fun block => ?_
  refine .seq (checkContext_follows _ _ (by grind)) fun _ => ?_
  refine .optional (verifyError_follows _ _ (by grind)) ?_
  refine .optional (verifyError_follows _ _ (by grind)) ?_
  exact .seq (restrictModifiers_follows _ _ _ (by grind)) fun _ =>
    finished_follows m (by grind) fun _ => List.nil_subset _

theorem interfaceDefinition_follows (attributes : Attributes) (context : Context) (m : Mark)
    (hm : places m ⊆ known) : Follows refused known (r.interfaceDefinition attributes context m)
      (r'.interfaceDefinition attributes context m) := by
  refine .seq identifier_follows fun id => ?_
  refine .seq h.optGenerics_follows fun generics => ?_
  refine .seq (h.loop (fun fuel => h.interfaceHeritage_follows fuel _ _) (r'.interfaceHeritage_shortens _))
    fun heritage => ?_
  refine .seq (h.block _ _) fun block => ?_
  refine .seq (checkContext_follows _ _ (by grind)) fun _ => ?_
  exact .seq (restrictModifiers_follows _ _ _ (by grind)) fun _ =>
    finished_follows m (by grind) fun _ => List.nil_subset _

theorem enumDefinition_follows (attributes : Attributes) (context : Context) (m : Mark)
    (hm : places m ⊆ known) : Follows refused known (r.enumDefinition attributes context m)
      (r'.enumDefinition attributes context m) := by
  refine .seq identifier_follows fun id => ?_
  refine .seq h.optAnnotation_follows fun numericType => ?_
  refine .seq (h.block _ _) fun block => ?_
  refine .seq (checkContext_follows _ _ (by grind)) fun _ => ?_
  exact .seq (restrictModifiers_follows _ _ _ (by grind)) fun _ =>
    finished_follows m (by grind) fun _ => List.nil_subset _

theorem boundsClauses_follows :
    ∀ fuel generics known, Follows refused known (r.boundsClauses fuel generics)
      (r'.boundsClauses fuel generics)
  | 0, _, _ => exhausted_follows
  | fuel + 1, generics, known => by
    refine .seq (h.boundsClause?_follows _) fun found => ?_
    cases found with
    | none => exact .pure _ (by cases generics <;> exact List.nil_subset _)
    | some longer => exact boundsClauses_follows fuel _ _

theorem typeDefinition_follows (attributes : Attributes) (context : Context) (m : Mark)
    (hm : places m ⊆ known) : Follows refused known (r.typeDefinition attributes context m)
      (r'.typeDefinition attributes context m) := by
  refine .seq identifier_follows fun id => ?_
  refine .seq h.optGenerics_follows fun first => ?_
  refine .seq (h.loop (fun fuel => h.boundsClauses_follows fuel _ _) (r'.boundsClauses_shortens _))
    fun generics => ?_
  refine .seq (expect_follows _) fun _ => ?_
  refine .seq (h.typeExpr _) fun type => ?_
  refine .seq endStatement_follows fun ended => ?_
  refine .seq (checkContext_follows _ _ (by grind)) fun _ => ?_
  exact .seq (restrictModifiers_follows _ _ _ (by grind)) fun _ =>
    finished_follows m (by grind) fun _ => List.nil_subset _

theorem definition_follows (attributes : Attributes) (context : Context) (m : Mark)
    (hm : places m ⊆ known) : Follows refused known (r.definition attributes context m)
      (r'.definition attributes context m) := by
  refine .seq previous_follows fun keyword => ?_
  have hm : places m ⊆ places keyword ++ known := by grind
  refine .ite (h.variableDefinition_follows attributes context m false hm) ?_
  refine .ite (h.variableDefinition_follows attributes context m true hm) ?_
  refine .ite (h.functionDefinition_follows attributes context m hm) ?_
  refine .ite (h.namespaceDefinition_follows attributes context m hm) ?_
  refine .ite (h.classDefinition_follows attributes context m hm) ?_
  refine .ite (h.interfaceDefinition_follows attributes context m hm) ?_
  refine .ite (h.enumDefinition_follows attributes context m hm) ?_
  exact .ite (h.typeDefinition_follows attributes context m hm) unexpected_follows

theorem modifiedDefinition_follows (attributes : Attributes) (context : Context) (m : Mark)
    (hm : places m ⊆ known) : Follows refused known (r.modifiedDefinition attributes context m)
      (r'.modifiedDefinition attributes context m) := by
  refine .seq (h.loop (fun fuel => definitionAttributes_follows fuel _ _) (definitionAttributes_shortens _))
    fun attributes => ?_
  refine .seq token_follows fun t => ?_
  exact .optional next_follows (h.definition_follows attributes context m (by grind))

end Definitions

section Loops

theorem headExpr_follows : Follows refused known r.headExpr r'.headExpr := by
  refine .seq (expect_follows _) fun _ => ?_
  refine .seq (h.expr_follows _) fun e => ?_
  exact .seq (expect_follows _) fun _ => .pure _ (by grind)

theorem ifStatement_follows (context : Context) :
    Follows refused known (r.ifStatement context) (r'.ifStatement context) := by
  refine .seq mark_follows fun m => ?_
  refine .seq next_follows fun _ => ?_
  refine .seq h.headExpr_follows fun test => ?_
  refine .seq (h.statement _ _) fun ⟨consequent, ended⟩ => ?_
  refine .branch (consumeKeyword_follows _) (.pure false (List.nil_subset _)) fun hasElse => ?_
  refine .ite ?_ (finished_follows m (by grind) fun _ => List.nil_subset _)
  exact .seq (h.statement _ _) fun ⟨alternative, ended⟩ => finished_follows m (by grind) fun _ =>
    List.nil_subset _

theorem doStatement_follows (context : Context) :
    Follows refused known (r.doStatement context) (r'.doStatement context) := by
  refine .seq mark_follows fun m => ?_
  refine .seq next_follows fun _ => ?_
  refine .seq (h.statement _ _) fun ⟨body, ended⟩ => ?_
  refine .optional unexpected_follows ?_
  refine .seq (expectKeyword_follows _) fun _ => ?_
  exact .seq h.headExpr_follows fun test => finished_follows m (by grind) fun _ => List.nil_subset _

theorem whileStatement_follows (context : Context) :
    Follows refused known (r.whileStatement context) (r'.whileStatement context) := by
  refine .seq mark_follows fun m => ?_
  refine .seq next_follows fun _ => ?_
  refine .seq h.headExpr_follows fun test => ?_
  exact .seq (h.statement _ _) fun ⟨body, ended⟩ => finished_follows m (by grind) fun _ =>
    List.nil_subset _

theorem forInRest_follows (context : Context) (m : Mark) (iteratesKeys : Bool) (left : ForBinding)
    (hm : places m ⊆ known) :
    Follows refused known (do
        let right ← r.expr {}
        expect .rightParen
        let (body, ended) ← r.statement context.loopBody
        return (.forIn (← finish m) iteratesKeys left right body, ended) : Parse Ended)
      (do
        let right ← r'.expr {}
        expect .rightParen
        let (body, ended) ← r'.statement context.loopBody
        return (.forIn (← finish m) iteratesKeys left right body, ended)) := by
  refine .seq (h.expr_follows _) fun right => ?_
  refine .seq (expect_follows _) fun _ => ?_
  exact .seq (h.statement _ _) fun ⟨body, ended⟩ => finished_follows m (by grind) fun _ =>
    List.nil_subset _

theorem forInStatement_follows (context : Context) (m : Mark) (iteratesKeys : Bool)
    (left : ForBinding) (hm : places m ⊆ known) (hleft : places left ⊆ known) :
    Follows refused known (r.forInStatement context m iteratesKeys left)
      (r'.forInStatement context m iteratesKeys left) := by
  rcases left with declaration | e
  · unfold forInStatement
    exact .ite (.seq (syntaxError_follows _ _ hleft) fun _ => h.forInRest_follows _ _ _ _ hm)
      (h.forInRest_follows _ _ _ _ hm)
  · exact h.forInRest_follows _ _ _ _ hm

theorem eachBinding_follows : Follows refused known r.eachBinding r'.eachBinding := by
  refine .seq h.variableDeclaration?_follows fun found => ?_
  cases found with
  | some declaration => exact .pure _ (by grind)
  | none => exact .seq (h.expr_follows _) fun _ => .pure _ (by grind)

theorem forEachStatement_follows (context : Context) (m : Mark) (hm : places m ⊆ known) :
    Follows refused known (r.forEachStatement context m) (r'.forEachStatement context m) := by
  refine .seq (expect_follows _) fun _ => ?_
  refine .seq h.eachBinding_follows fun left => ?_
  refine .seq (expectKeyword_follows _) fun _ => ?_
  exact h.forInStatement_follows context m false left (by grind) (by grind)

theorem forHead_follows : Follows refused known r.forHead r'.forHead := by
  refine .seq h.variableDeclaration?_follows fun found => ?_
  cases found with
  | some declaration => exact .pure _ (by grind)
  | none =>
    refine .seq (h.optExpr _ _) fun e => ?_
    cases e with
    | some e => exact .pure _ (by grind)
    | none => exact .pure _ (List.nil_subset _)

theorem forInit_follows (head : ForBinding) (hhead : places head ⊆ known) :
    Follows refused known (r.forInit head) (r'.forInit head) := by
  rcases head with declaration | e
  · exact .pure _ (by grind)
  · exact .seq (h.continued_follows e _ _ hhead) fun _ => .pure _ (by grind)

theorem forRest_follows (context : Context) (m : Mark) (init : Option ForBinding)
    (hm : places m ⊆ known) :
    Follows refused known (r.forRest context m init) (r'.forRest context m init) := by
  have optional : ∀ mode known, Follows refused known (some <$> r.expr mode)
      (some <$> r'.expr mode) := fun mode known => .map (h.expr_follows mode) (by grind)
  refine .seq (expect_follows _) fun _ => ?_
  refine .seq (at?_follows _) fun untested => ?_
  refine .branch (.pure none (List.nil_subset _)) (optional _ _) fun test => ?_
  refine .seq (expect_follows _) fun _ => ?_
  refine .seq (at?_follows _) fun fixed => ?_
  refine .branch (.pure none (List.nil_subset _)) (optional _ _) fun update => ?_
  refine .seq (expect_follows _) fun _ => ?_
  exact .seq (h.statement _ _) fun ⟨body, ended⟩ => finished_follows m (by grind) fun _ =>
    List.nil_subset _

theorem forStatement_follows (context : Context) :
    Follows refused known (r.forStatement context) (r'.forStatement context) := by
  refine .seq mark_follows fun m => ?_
  refine .seq next_follows fun _ => ?_
  refine .seq (consumeContextKeyword_follows _) fun each => ?_
  refine .ite (h.forEachStatement_follows context m (by grind)) ?_
  refine .seq (expect_follows _) fun _ => ?_
  refine .seq h.forHead_follows fun head => ?_
  cases head with
  | none => exact h.forRest_follows context m none (by grind)
  | some head =>
    refine .seq (consumeKeyword_follows _) fun iterates => ?_
    refine .ite (h.forInStatement_follows context m true head (by grind) (by grind)) ?_
    refine .seq (h.forInit_follows head (by grind)) fun init => ?_
    exact h.forRest_follows context m _ (by grind)

theorem caseStatements_follows (context : Context) :
    ∀ fuel known, Follows refused known (r.caseStatements context fuel)
      (r'.caseStatements context fuel)
  | 0, _ => exhausted_follows
  | fuel + 1, known => by
    refine .seq token_follows fun t => ?_
    refine .ite (.pure _ (List.nil_subset _)) ?_
    refine .seq (h.statement context _) fun ⟨first, ended⟩ => ?_
    refine .ite ?_ (.pure _ (List.nil_subset _))
    exact .seq (caseStatements_follows context fuel _) fun _ => .pure _ (by grind)

theorem caseTest_follows : Follows refused known r.caseTest r'.caseTest := by
  refine .seq (consumeKeyword_follows _) fun tests => ?_
  exact .ite (.map (h.expr_follows _) (by grind)) (.seq (expectKeyword_follows _) fun _ =>
    .pure none (List.nil_subset _))

theorem switchCases_follows (context : Context) :
    ∀ fuel known, Follows refused known (r.switchCases context fuel) (r'.switchCases context fuel)
  | 0, _ => exhausted_follows
  | fuel + 1, known => by
    refine .seq (at?_follows _) fun closed => ?_
    refine .ite (.pure _ (List.nil_subset _)) ?_
    refine .seq mark_follows fun m => ?_
    refine .seq h.caseTest_follows fun test => ?_
    refine .seq (expect_follows _) fun _ => ?_
    refine .seq (h.loop (fun fuel => h.caseStatements_follows context fuel _)
      (r'.caseStatements_shortens context)) fun ⟨consequent, ended⟩ => ?_
    refine .seq (finish_follows m (by grind)) fun span => ?_
    refine .ite ?_ (.pure _ (List.nil_subset _))
    exact .seq (switchCases_follows context fuel _) fun rest => .pure _ (by simp [places])

theorem typeCaseHead?_follows : Follows refused known r.typeCaseHead? r'.typeCaseHead? := by
  refine .seq (consumeKeyword_follows _) fun tests => .ite ?_ ?_
  · refine .seq (expect_follows _) fun _ => ?_
    refine .seq h.pattern_follows fun pattern => ?_
    exact .seq (expect_follows _) fun _ => .pure _ (List.nil_subset _)
  · exact .seq (consumeKeyword_follows _) fun _ =>
      .ite (.pure _ (List.nil_subset _)) (.pure _ (List.nil_subset _))

theorem typeCase?_follows (context : Context) :
    Follows refused known (r.typeCase? context) (r'.typeCase? context) := by
  refine .seq mark_follows fun m => ?_
  refine .seq h.typeCaseHead?_follows fun found => ?_
  cases found with
  | none => exact .pure none (List.nil_subset _)
  | some pattern => exact .seq (h.block _ _) fun block => finished_follows m (by grind) fun _ =>
      List.nil_subset _

theorem switchTypeStatement_follows (context : Context) (m : Mark) (hm : places m ⊆ known) :
    Follows refused known (r.switchTypeStatement context m)
      (r'.switchTypeStatement context m) := by
  refine .seq h.headExpr_follows fun discriminant => ?_
  refine .seq (expect_follows _) fun _ => ?_
  refine .seq (h.collectWhile_follows fun _ => h.typeCase?_follows context) fun cases => ?_
  exact .seq (expect_follows _) fun _ => finished_follows m (by grind) fun _ => List.nil_subset _

theorem switchStatement_follows (context : Context) :
    Follows refused known (r.switchStatement context) (r'.switchStatement context) := by
  refine .seq mark_follows fun m => ?_
  refine .seq next_follows fun _ => ?_
  refine .seq (consumeContextKeyword_follows _) fun onType => ?_
  refine .ite (h.switchTypeStatement_follows context m (by grind)) ?_
  refine .seq h.headExpr_follows fun discriminant => ?_
  refine .seq (expect_follows _) fun _ => ?_
  refine .seq (h.loop (fun fuel => h.switchCases_follows _ fuel _) (r'.switchCases_shortens _))
    fun cases => ?_
  exact .seq (expect_follows _) fun _ => finished_follows m (by grind) fun _ => List.nil_subset _

end Loops

section Statements

theorem blockStatements_follows (context : Context) :
    ∀ fuel known, Follows refused known (r.blockStatements context fuel)
      (r'.blockStatements context fuel)
  | 0, _ => exhausted_follows
  | fuel + 1, known => by
    refine .seq (at?_follows _) fun closed => ?_
    refine .ite (.pure _ (List.nil_subset _)) ?_
    refine .seq (h.statement context _) fun ⟨first, ended⟩ => ?_
    refine .ite ?_ (.pure _ (List.nil_subset _))
    exact .seq (blockStatements_follows context fuel _) fun _ => .pure _ (by grind)

theorem blockRule_follows (context : Context) :
    Follows refused known (r.blockRule context) (r'.blockRule context) := by
  refine freshSuper_follows ?_
  refine .seq mark_follows fun m => ?_
  refine .seq (expect_follows _) fun _ => ?_
  refine .seq (h.loop (fun fuel => h.blockStatements_follows context fuel _)
    (r'.blockStatements_shortens context)) fun statements => ?_
  exact .seq (expect_follows _) fun _ => finished_follows m (by grind) fun _ => List.nil_subset _

theorem optExpressionStatement_follows :
    Follows refused known r.optExpressionStatement r'.optExpressionStatement := by
  refine .seq (h.optExprRule_follows _) fun found => ?_
  cases found with
  | none => exact .pure none (List.nil_subset _)
  | some e =>
    exact .seq (expressionStatement_follows e (by grind)) fun _ => .pure _ (List.nil_subset _)

theorem superStatement_follows (context : Context) :
    Follows refused known (r.superStatement context) (r'.superStatement context) := by
  refine .seq mark_follows fun m => ?_
  refine .seq next_follows fun _ => ?_
  refine .seq (consume_follows _) fun called => .ite ?_ ?_
  · refine .seq h.arguments_follows fun arguments => ?_
    refine .seq endStatement_follows fun ended => ?_
    refine .seq (finish_follows m (by grind)) fun span => ?_
    exact .seq (noteSuper_follows context span (by grind)) fun _ => .pure _ (List.nil_subset _)
  · refine .seq (finish_follows m (by grind)) fun span => ?_
    refine .seq (h.continued_follows _ _ _ (List.subset_append_of_subset_left _ fun _ h => h))
      fun e => ?_
    exact expressionStatement_follows e (by grind)

omit h in
theorem importParts_follows :
    ∀ fuel known, Follows refused known (importParts fuel) (importParts fuel)
  | 0, _ => exhausted_follows
  | fuel + 1, known => by
    refine .seq (consume_follows _) fun more => .ite ?_ (.pure _ (List.nil_subset _))
    refine .seq (consumeOperator_follows _) fun all => .ite (.pure _ (List.nil_subset _)) ?_
    refine .seq (consumeOperator_follows _) fun allBelow => .ite (.pure _ (List.nil_subset _)) ?_
    refine .seq wordIdentifier_follows fun first => ?_
    exact .seq (importParts_follows fuel _) fun ⟨rest, ending⟩ => .pure _ (by grind)

omit h in
theorem importHead_follows : Follows refused known importHead importHead := by
  refine .seq identifier_follows fun id => ?_
  refine .seq (at?_follows _) fun plain => .ite (.pure _ (by grind)) ?_
  refine .seq (expect_follows _) fun _ => ?_
  refine .seq identifier_follows fun first => ?_
  refine .seq (at?_follows _) fun more => ?_
  exact .optional unexpected_follows (.pure _ (by grind))

theorem importStatement_follows :
    Follows refused known r.importStatement r'.importStatement := by
  refine .seq mark_follows fun m => ?_
  refine .seq next_follows fun _ => ?_
  refine .seq (consume_follows _) fun onMeta => .ite ?_ ?_
  · refine .seq (expectContextKeyword_follows _) fun _ => ?_
    refine .seq (finish_follows m (by grind)) fun span => ?_
    refine .seq (h.continued_follows _ _ _ (List.subset_append_of_subset_left _ fun _ h => h))
      fun e => ?_
    exact expressionStatement_follows e (by grind)
  refine .seq importHead_follows fun ⟨localName, first⟩ => ?_
  refine .seq (h.loop (fun fuel => importParts_follows fuel _) importParts_shortens) fun ⟨rest, ending⟩ => ?_
  exact .seq endStatement_follows fun ended => finished_follows m (by grind) fun _ =>
    List.nil_subset _

theorem returnStatement_follows :
    Follows refused known r.returnStatement r'.returnStatement := by
  refine .seq mark_follows fun m => ?_
  refine .seq next_follows fun _ => ?_
  refine .seq endStatement_follows fun ended => ?_
  refine .seq get_follows fun s => ?_
  refine .branch (h.optExpr _ _) (.pure none (List.nil_subset _)) fun value => ?_
  exact .branch endStatement_follows (.pure ended (List.nil_subset _)) fun ended =>
    finished_follows m (by grind) fun _ => List.nil_subset _

theorem throwStatement_follows : Follows refused known r.throwStatement r'.throwStatement := by
  refine .seq mark_follows fun m => ?_
  refine .seq next_follows fun _ => ?_
  refine .seq (h.expr_follows _) fun e => ?_
  exact .seq endStatement_follows fun ended => finished_follows m (by grind) fun _ =>
    List.nil_subset _

theorem catchClause?_follows (context : Context) :
    Follows refused known (r.catchClause? context) (r'.catchClause? context) := by
  refine .seq (atKeyword?_follows _) fun found => .ite (.pure none (List.nil_subset _)) ?_
  refine .seq mark_follows fun m => ?_
  refine .seq next_follows fun _ => ?_
  refine .seq (expect_follows _) fun _ => ?_
  refine .seq h.pattern_follows fun pattern => ?_
  refine .seq (expect_follows _) fun _ => ?_
  exact .seq (h.block _ _) fun block => finished_follows m (by grind) fun _ => List.nil_subset _

theorem tryStatement_follows (context : Context) :
    Follows refused known (r.tryStatement context) (r'.tryStatement context) := by
  refine .seq mark_follows fun m => ?_
  refine .seq next_follows fun _ => ?_
  refine .seq (h.block _ _) fun block => ?_
  refine .seq (h.collectWhile_follows fun _ => h.catchClause?_follows context) fun catches => ?_
  refine .seq (consumeKeyword_follows _) fun hasLast => ?_
  refine .branch (.map (h.block _ _) (by grind)) (.pure none (List.nil_subset _)) fun last => ?_
  refine .seq (finish_follows m (by grind)) fun span => ?_
  exact .optional (syntaxError_follows _ _ (by grind)) (.pure _ (List.nil_subset _))

theorem useResourceStatement_follows (context : Context) (m : Mark) (hm : places m ⊆ known) :
    Follows refused known (r.useResourceStatement context m)
      (r'.useResourceStatement context m) := by
  refine .seq (expect_follows _) fun _ => ?_
  refine .seq (h.separatedUntil_follows _ fun _ => h.variableBinding_follows true) fun bindings => ?_
  refine .seq (expect_follows _) fun _ => ?_
  exact .seq (h.block _ _) fun block => finished_follows m (by grind) fun _ => List.nil_subset _

theorem useStatement_follows (context : Context) :
    Follows refused known (r.useStatement context) (r'.useStatement context) := by
  refine .seq mark_follows fun m => ?_
  refine .seq next_follows fun _ => ?_
  refine .seq (consumeContextKeyword_follows _) fun resource => ?_
  refine .ite (h.useResourceStatement_follows context m (by grind)) ?_
  refine .seq (expectContextKeyword_follows _) fun _ => ?_
  refine .seq (h.expr_follows _) fun e => ?_
  exact .seq endStatement_follows fun ended => finished_follows m (by grind) fun _ =>
    List.nil_subset _

theorem withStatement_follows (context : Context) :
    Follows refused known (r.withStatement context) (r'.withStatement context) := by
  refine .seq mark_follows fun m => ?_
  refine .seq next_follows fun _ => ?_
  refine .seq h.headExpr_follows fun object => ?_
  exact .seq (h.statement _ _) fun ⟨body, ended⟩ => finished_follows m (by grind) fun _ =>
    List.nil_subset _

theorem includedText_follows (path : String) (span : Span) (hspan : places span ⊆ known) :
    Follows refused known (r.includedText path span) (r'.includedText path span) := by
  unfold includedText
  rw [h.readFile]
  cases r'.readFile path with
  | some text => exact .pure _ (List.nil_subset _)
  | none => exact .seq (verifyError_follows _ _ (by grind)) fun _ => .pure _ (List.nil_subset _)

/-- What an inclusion hands over is noted at once. -/
theorem included_follows (context : Context) (span : Span) (source path text : String)
    (ended : Bool) : Follows refused known
      (do
        let (child, statements) ← r.included context (Script.ofSource path text)
        addIncluded child
        return (.includeSource span source child statements, ended) : Parse Ended)
      (do
        let (child, statements) ← r'.included context (Script.ofSource path text)
        addIncluded child
        return (.includeSource span source child statements, ended)) := by
  intro s hs hknown
  obtain ⟨hands, hagree⟩ := h.included context path text s
  show Meets refused s (EStateM.bind _ _ s) (EStateM.bind _ _ s)
  unfold EStateM.bind
  cases hread : r'.included context (Script.ofSource path text) s with
  | error stop t =>
    rw [hread] at hands hagree
    obtain ⟨functions, superFound, rfl⟩ := hands
    have hlands : Strides s { s with functions, superFound } :=
      .note (.refl s) functions superFound
    refine ⟨hlands, ?_⟩
    obtain heq | ⟨⟨t, ht⟩, hrefused⟩ := hagree
    · rw [heq]
      exact Or.inl rfl
    · rw [ht]
      exact Or.inr ⟨⟨t, rfl⟩, _, .refl _, hrefused⟩
  | ok value t =>
    rw [hread] at hands hagree
    obtain ⟨child, statements⟩ := value
    obtain ⟨⟨u, hstrides, rfl⟩, functions, superFound, rfl⟩ := hands
    refine ⟨⟨.splice (.note (.refl s) functions superFound) hstrides, nofun⟩, ?_⟩
    obtain heq | ⟨⟨t, ht⟩, hrefused⟩ := hagree
    · rw [heq]
      exact Or.inl rfl
    · rw [ht]
      exact Or.inr ⟨⟨t, rfl⟩, _, .refl _, hrefused⟩

theorem includeStatement_follows (context : Context) (m : Mark) (source : String)
    (hm : places m ⊆ known) : Follows refused known (r.includeStatement context m source)
      (r'.includeStatement context m source) := by
  refine .seq next_follows fun _ => ?_
  refine .seq endStatement_follows fun ended => ?_
  refine .seq (finish_follows m (by grind)) fun span => ?_
  refine .seq get_follows fun s => ?_
  refine .seq (h.includedText_follows _ span (by grind)) fun text => ?_
  exact h.included_follows context span source _ text ended

theorem labeledStatement_follows (context : Context) (m : Mark) (label : String)
    (hm : places m ⊆ known) : Follows refused known (r.labeledStatement context m label)
      (r'.labeledStatement context m label) :=
  .seq (h.statement _ _) fun ⟨statement, ended⟩ => finished_follows m (by grind) fun _ =>
    List.nil_subset _

theorem identifierStatement_follows (context : Context) (m : Mark) (hm : places m ⊆ known) :
    Follows refused known (r.identifierStatement context m)
      (r'.identifierStatement context m) := by
  refine .seq previous_follows fun label => ?_
  refine .seq (consume_follows _) fun labeled => ?_
  refine .ite (h.labeledStatement_follows context m _ (by grind)) ?_
  refine .seq get_follows fun s => ?_
  refine .ite (h.includeStatement_follows context m _ (by grind)) ?_
  refine .ite (h.definition_follows _ context m (by grind)) ?_
  dsimp only
  generalize (Words.modifier? s.previous).filter _ = found
  cases found with
  | some modifier => exact h.modifiedDefinition_follows _ context m (by grind)
  | none =>
    refine .seq (h.identifierPrimary_follows true) fun first => ?_
    refine .seq (h.continued_follows first _ _ (by grind)) fun e => ?_
    exact expressionStatement_follows e (by grind)

theorem moreBrackets_follows :
    ∀ fuel read known, places read ⊆ known →
      Follows refused known (r.moreBrackets fuel read) (r'.moreBrackets fuel read)
  | 0, _, _, _ => exhausted_follows
  | fuel + 1, read, known, hread => by
    refine .seq get_follows fun s => .ite ?_ (.pure _ (by grind))
    refine .seq (h.expr_follows _) fun e => ?_
    exact moreBrackets_follows fuel _ _ (by grind)

theorem bracketStatement_follows (context : Context) (m : Mark) (hm : places m ⊆ known) :
    Follows refused known (r.bracketStatement context m) (r'.bracketStatement context m) := by
  refine .seq (h.exprRule_follows _) fun first => ?_
  refine .seq (h.loop (fun fuel => h.moreBrackets_follows fuel _ _ (by grind)) (r'.moreBrackets_shortens _))
    fun all => ?_
  refine .seq token_follows fun t => ?_
  refine .ite (h.modifiedDefinition_follows _ context m (by grind)) ?_
  split
  · exact expressionStatement_follows _ (by grind)
  · refine .seq (finish_follows m (by grind)) fun span => ?_
    exact expressionStatement_follows _ (List.subset_append_of_subset_left _ fun _ h => h)

theorem keywordStatement_follows (context : Context) (m : Mark) (t : Token)
    (hm : places m ⊆ known) : Follows refused known (r.keywordStatement context m t)
      (r'.keywordStatement context m t) := by
  unfold keywordStatement
  split
  · exact .map (h.superStatement_follows context) (by grind)
  · exact .map h.importStatement_follows (by grind)
  · exact .map (h.ifStatement_follows context) (by grind)
  · exact .map (h.doStatement_follows context) (by grind)
  · exact .map (h.whileStatement_follows context) (by grind)
  · exact .map (breakStatement_follows context) (by grind)
  · exact .map (continueStatement_follows context) (by grind)
  · exact .map h.returnStatement_follows (by grind)
  · exact .map h.throwStatement_follows (by grind)
  · exact .map (h.tryStatement_follows context) (by grind)
  · exact .map (h.forStatement_follows context) (by grind)
  · exact .map (h.switchStatement_follows context) (by grind)
  · exact .map (h.useStatement_follows context) (by grind)
  · exact .map (h.withStatement_follows context) (by grind)
  · exact .ite (.map (h.modifiedDefinition_follows _ context m hm)
      (by grind)) h.optExpressionStatement_follows

theorem optStatement_follows (context : Context) :
    Follows refused known (r.optStatement context) (r'.optStatement context) := by
  refine .seq mark_follows fun m => ?_
  refine .seq token_follows fun t => ?_
  split
  · exact h.keywordStatement_follows context m t (by grind)
  · exact .seq next_follows fun _ =>
      .map (h.identifierStatement_follows context m (by grind)) (by grind)
  · exact .seq (h.blockRule_follows _) fun block => .pure _ (List.nil_subset _)
  · exact .seq next_follows fun _ => .pure _ (List.nil_subset _)
  · exact .map (h.bracketStatement_follows context m (by grind)) (by grind)
  · exact h.optExpressionStatement_follows

theorem statementRule_follows (context : Context) :
    Follows refused known (r.statementRule context) (r'.statementRule context) := by
  refine .seq (h.optStatement_follows context) fun found => ?_
  cases found with
  | none => exact unexpected_follows
  | some found => exact .pure found (List.nil_subset _)

end Statements

end ActionSyntax.Alike
