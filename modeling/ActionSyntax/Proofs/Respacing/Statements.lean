import ActionSyntax.Grammar.Program
import ActionSyntax.Proofs.Respacing.Definitions
import ActionSyntax.Proofs.Shadows.Statements

/-!
How statements and programs are read where a gap is exchanged. An included script is read in the same way,
since nothing of it stands in the text.
-/

namespace ActionSyntax

set_option autoImplicit false

open Parse Rules

section Bare

@[simp] def Package.bare (package : Package) : Package :=
  { package with span := default, block := package.block.bare }

@[simp] def Program.bare (program : Program) : Program :=
  ⟨default, program.packages.map Package.bare, program.statements.map Statement.bare⟩

instance : Bare Package := ⟨Package.bare⟩

instance : Bare Program := ⟨Program.bare⟩

@[simp] theorem bare_package : (bare : Package → Package) = Package.bare := rfl

@[simp] theorem bare_program : (bare : Program → Program) = Program.bare := rfl

end Bare

namespace RulesRespace

variable {F : Fork} {r : Rules}

section Jumps

theorem jump_respaces : Respaces F Matches jump jump := by
  refine mark_respaces fun m m' => ?_
  refine .seq next_respaces fun _ => ?_
  have rest : ∀ hasLabel : Bool, Respaces F Matches
      (do
        let name := (← previous).text
        let label := if hasLabel then some name else none
        let ended ← endStatement
        return { span := ← finish m, label, ended : Jump })
      (do
        let name := (← previous).text
        let label := if hasLabel then some name else none
        let ended ← endStatement
        return { span := ← finish m', label, ended : Jump }) := fun hasLabel =>
    previous_respaces fun name name' hname => .seq endStatement_respaces fun ended =>
      finished_respaces m m' fun span span' => by simp [hname.text]
  refine get_respaces (fun s s' hview => ?_) fun s t hlike => ?_
  · rw [show s.onSameLine = s'.onSameLine from congrArg View.onSameLine hview]
  rw [show s.onSameLine = t.onSameLine from hlike.onSameLine]
  exact .ite (.seq consumeIdentifier_respaces rest) (.seq (.pure rfl) rest)

theorem checkJump_respaces (context : Context) {j j' : Jump} (legal : Bool) (id : ProblemId)
    (hj : Matches j j') :
    Respaces F Eq (checkJump context j legal id) (checkJump context j' legal id) := by
  obtain ⟨span, label, ended⟩ := j
  obtain ⟨span', label', ended'⟩ := j'
  obtain ⟨rfl, rfl⟩ : label = label' ∧ ended = ended' := by simpa using hj
  cases label with
  | some label => exact .ite (.pure rfl) (report_respaces _ _ _ _ _)
  | none => exact .ite (.pure rfl) (syntaxError_respaces _ _ _)

theorem breakStatement_respaces (context : Context) :
    Respaces F Matches (breakStatement context) (breakStatement context) :=
  .matched jump_respaces fun j j' hj => .seq (checkJump_respaces context _ _ hj) fun _ =>
    .pure (by simp_all)

theorem continueStatement_respaces (context : Context) :
    Respaces F Matches (continueStatement context) (continueStatement context) :=
  .matched jump_respaces fun j j' hj => .seq (checkJump_respaces context _ _ hj) fun _ =>
    .pure (by simp_all)

end Jumps

theorem expressionStatement_respaces {e e' : Expr} (he : Matches e e') :
    Respaces F Matches (expressionStatement e) (expressionStatement e') :=
  .seq endStatement_respaces fun ended => finished_respaces _ _ fun span span' => by simp_all

theorem noteSuper_respaces (context : Context) (span span' : Span) :
    Respaces F Eq (noteSuper context span) (noteSuper context span') where
  before {c s t} hcst := by
    obtain ⟨hview, hlike⟩ := F.before_view hcst
    have hfound : c.superFound = s.superFound := congrArg View.superFound hview
    have hfound' : t.superFound = s.superFound := hlike.superFound.symm
    unfold noteSuper
    rw [get_bind, get_bind, get_bind, hfound, hfound']
    split
    · exact (syntaxError_respaces _ span span').before hcst
    · exact .kept rfl (F.before_superFound hcst true)
  beyond {s t} hst := by
    have hfound : t.superFound = s.superFound := (F.beyond_view hst).superFound.symm
    unfold noteSuper
    rw [get_bind, get_bind, hfound]
    split
    · exact (syntaxError_respaces _ span span').beyond hst
    · exact .ok rfl (F.beyond_superFound hst true)
  astray {c} hc := by
    unfold noteSuper
    rw [get_bind]
    split
    · exact (syntaxError_respaces _ span span').astray hc
    · exact .ok (F.astray_superFound hc true)

variable (h : RulesRespace F r)
include h

section Loops

theorem headExpr_respaces : Respaces F Matches r.headExpr r.headExpr := by
  refine .seq (expect_respaces _) fun _ => ?_
  refine .matched (h.expr_respaces _) fun e e' he => ?_
  exact .seq (expect_respaces _) fun _ => .pure he

/-- A statement, and what is done with it. -/
theorem nested_respaces {context : Context} {f f' : Ended → Parse Ended}
    (hf : ∀ statement statement' : Statement, Matches statement statement' → ∀ ended,
      Respaces F Matches (f (statement, ended)) (f' (statement', ended))) :
    Respaces F Matches (r.statement context >>= f) (r.statement context >>= f') := by
  refine .matched (h.statement context) fun ⟨statement, ended⟩ ⟨statement', ended'⟩ hmatch => ?_
  obtain ⟨hstatement, rfl⟩ : Matches statement statement' ∧ ended = ended' := by simpa using hmatch
  exact hf _ _ hstatement ended

theorem elseClause_respaces {context : Context} {m m' : Mark} {test test' : Expr}
    {consequent consequent' : Statement} {ended : Bool} (htest : Matches test test')
    (hconsequent : Matches consequent consequent') (hasElse : Bool) :
    Respaces F Matches
      (if hasElse then do
        let (alternative, ended) ← r.statement context.nested
        return (Statement.ifElse (← finish m) test consequent (some alternative), ended)
      else do return (Statement.ifElse (← finish m) test consequent none, ended))
      (if hasElse then do
        let (alternative, ended) ← r.statement context.nested
        return (Statement.ifElse (← finish m') test' consequent' (some alternative), ended)
      else do return (Statement.ifElse (← finish m') test' consequent' none, ended)) :=
  .ite (h.nested_respaces fun alternative alternative' halternative ended =>
      finished_respaces m m' fun span span' => by simp_all)
    (finished_respaces m m' fun span span' => by simp_all)

theorem ifStatement_respaces (context : Context) :
    Respaces F Matches (r.ifStatement context) (r.ifStatement context) := by
  refine mark_respaces fun m m' => ?_
  refine .seq next_respaces fun _ => ?_
  refine .matched h.headExpr_respaces fun test test' htest => ?_
  refine h.nested_respaces fun consequent consequent' hconsequent ended => ?_
  exact .ite (.seq (consumeKeyword_respaces _) (h.elseClause_respaces htest hconsequent))
    (.seq (.pure rfl) (h.elseClause_respaces htest hconsequent))

theorem doStatement_respaces (context : Context) :
    Respaces F Matches (r.doStatement context) (r.doStatement context) := by
  refine mark_respaces fun m m' => ?_
  refine .seq next_respaces fun _ => ?_
  refine h.nested_respaces fun body body' hbody ended => ?_
  refine .optional Iff.rfl unexpected_respaces ?_
  refine .seq (expectKeyword_respaces _) fun _ => ?_
  refine .matched h.headExpr_respaces fun test test' htest => ?_
  exact finished_respaces m m' fun span span' => by simp_all

theorem whileStatement_respaces (context : Context) :
    Respaces F Matches (r.whileStatement context) (r.whileStatement context) := by
  refine mark_respaces fun m m' => ?_
  refine .seq next_respaces fun _ => ?_
  refine .matched h.headExpr_respaces fun test test' htest => ?_
  refine h.nested_respaces fun body body' hbody ended => ?_
  exact finished_respaces m m' fun span span' => by simp_all

variable {left left' : ForBinding} (context : Context) (m m' : Mark)

theorem forInRest_respaces (iteratesKeys : Bool) (hleft : Matches left left') :
    Respaces F Matches
      (do
        let right ← r.expr {}
        expect .rightParen
        let (body, ended) ← r.statement context.loopBody
        return (Statement.forIn (← finish m) iteratesKeys left right body, ended))
      (do
        let right ← r.expr {}
        expect .rightParen
        let (body, ended) ← r.statement context.loopBody
        return (Statement.forIn (← finish m') iteratesKeys left' right body, ended)) := by
  refine .matched (h.expr_respaces _) fun right right' hright => ?_
  refine .seq (expect_respaces _) fun _ => ?_
  exact h.nested_respaces fun body body' hbody ended =>
    finished_respaces m m' fun span span' => by simp_all

theorem forInStatement_respaces (iteratesKeys : Bool) (hleft : Matches left left') :
    Respaces F Matches (r.forInStatement context m iteratesKeys left)
      (r.forInStatement context m' iteratesKeys left') := by
  have hwhole := hleft
  cases left <;> cases left' <;> simp at hleft
  · rename_i declaration declaration'
    have hsame := Matches.isForInDeclaration hleft
    exact .ite_iff (by rw [hsame])
      (.seq (syntaxError_respaces _ _ _) fun _ => h.forInRest_respaces _ _ _ iteratesKeys hwhole)
      (h.forInRest_respaces _ _ _ iteratesKeys hwhole)
  · exact h.forInRest_respaces _ _ _ iteratesKeys hwhole

theorem eachBinding_respaces : Respaces F Matches r.eachBinding r.eachBinding := by
  refine .matched h.variableDeclaration?_respaces fun found found' hfound => ?_
  cases found <;> cases found' <;> simp at hfound
  · exact .matched (h.expr_respaces _) fun e e' he => .pure (by simp_all)
  · exact .pure (by simp_all)

theorem forEachStatement_respaces :
    Respaces F Matches (r.forEachStatement context m) (r.forEachStatement context m') := by
  refine .seq (expect_respaces _) fun _ => ?_
  refine .matched h.eachBinding_respaces fun left left' hleft => ?_
  exact .seq (expectKeyword_respaces _) fun _ => h.forInStatement_respaces context m m' false hleft

theorem forHead_respaces : Respaces F Matches r.forHead r.forHead := by
  refine .matched h.variableDeclaration?_respaces fun found found' hfound => ?_
  cases found <;> cases found' <;> simp at hfound
  · refine .matched (h.optExpr _) fun first first' hfirst => ?_
    cases first <;> cases first' <;> simp at hfirst
    · exact .pure rfl
    · exact .pure (by simp_all)
  · exact .pure (by simp_all)

theorem forInit_respaces (hleft : Matches left left') :
    Respaces F Matches (r.forInit left) (r.forInit left') := by
  cases left <;> cases left' <;> simp at hleft
  · exact .pure (by simp_all)
  · exact .matched (h.continued_respaces _ _ hleft) fun e e' he =>
      .pure (by simp_all)

/-- An expression that is left out in front of a mark. -/
theorem unlessAt_respaces (k : TokenKind) {f f' : Option Expr → Parse Ended}
    (hf : ∀ e e', Matches e e' → Respaces F Matches (f e) (f' e')) :
    Respaces F Matches
      (at? k >>= fun closed => if closed then Pure.pure none >>= f else some <$> r.expr {} >>= f)
      (at? k >>= fun closed => if closed then Pure.pure none >>= f' else some <$> r.expr {} >>= f') := by
  refine .seq (at?_respaces k) fun closed => .ite (.matched (.pure rfl) hf) ?_
  refine .matched (.map (h.expr_respaces _) (fun e => ⟨e, rfl⟩)
    fun e e' he => ?_) hf
  simpa using he

theorem forRest_respaces {init init' : Option ForBinding} (hinit : Matches init init') :
    Respaces F Matches (r.forRest context m init) (r.forRest context m' init') := by
  refine .seq (expect_respaces _) fun _ => ?_
  refine h.unlessAt_respaces .semicolon fun test test' htest => ?_
  refine .seq (expect_respaces _) fun _ => ?_
  refine h.unlessAt_respaces .rightParen fun update update' hupdate => ?_
  refine .seq (expect_respaces _) fun _ => ?_
  exact h.nested_respaces fun body body' hbody ended =>
    finished_respaces m m' fun span span' => by simp_all

theorem forStatement_respaces :
    Respaces F Matches (r.forStatement context) (r.forStatement context) := by
  refine mark_respaces fun m m' => ?_
  refine .seq next_respaces fun _ => ?_
  refine .seq (consumeContextKeyword_respaces _) fun onEach => ?_
  refine .ite (h.forEachStatement_respaces context m m') ?_
  refine .seq (expect_respaces _) fun _ => ?_
  refine .matched h.forHead_respaces fun head head' hhead => ?_
  cases head <;> cases head' <;> simp at hhead
  · exact h.forRest_respaces context m m' rfl
  refine .seq (consumeKeyword_respaces _) fun isIn => ?_
  refine .ite (h.forInStatement_respaces context m m' true hhead) ?_
  exact .matched (h.forInit_respaces hhead) fun init init' hinit =>
    h.forRest_respaces context m m' (by simpa using hinit)

theorem caseStatements_respaces : ∀ fuel : Nat,
    Respaces F Matches (r.caseStatements context fuel) (r.caseStatements context fuel)
  | 0 => exhausted_respaces
  | fuel + 1 => by
    refine token_respaces fun t t' ht => ?_
    rw [ht.isKeyword, ht.isKeyword, ht.kind]
    refine .ite (.pure rfl) ?_
    refine .matched (h.statement context) fun ⟨first, ended⟩ ⟨first', ended'⟩ hmatch => ?_
    obtain ⟨hfirst, rfl⟩ : Matches first first' ∧ ended = ended' := by simpa using hmatch
    refine .ite ?_ (.pure (by simp_all))
    refine .matched (caseStatements_respaces fuel)
      fun ⟨rest, allEnded⟩ ⟨rest', allEnded'⟩ hrest => .pure ?_
    simp_all

theorem caseTest_respaces : Respaces F Matches r.caseTest r.caseTest := by
  refine .seq (consumeKeyword_respaces _) fun tested => .ite ?_ ?_
  · exact .map (h.expr_respaces _) (fun e => ⟨e, rfl⟩) fun e e' he => by simp_all
  · exact .seq (expectKeyword_respaces _) fun _ => .pure rfl

theorem switchCases_respaces : ∀ fuel : Nat,
    Respaces F Matches (r.switchCases context fuel) (r.switchCases context fuel)
  | 0 => exhausted_respaces
  | fuel + 1 => by
    refine .seq (at?_respaces _) fun closed => .ite (.pure rfl) ?_
    refine mark_respaces fun m m' => ?_
    refine .matched h.caseTest_respaces fun test test' htest => ?_
    refine .seq (expect_respaces _) fun _ => ?_
    refine .matched (h.caseStatements_respaces context _)
      fun ⟨consequent, ended⟩ ⟨consequent', ended'⟩ hmatch => ?_
    obtain ⟨hconsequent, rfl⟩ : Matches consequent consequent' ∧ ended = ended' := by
      simpa using hmatch
    refine finish_respaces m m' fun span span' => ?_
    refine .ite ?_ (.pure (by simp_all))
    exact .matched (switchCases_respaces fuel) fun rest rest' hrest =>
      .pure (by simp_all)

theorem typeCaseHead?_respaces : Respaces F Matches r.typeCaseHead? r.typeCaseHead? := by
  refine .seq (consumeKeyword_respaces _) fun matching => .ite ?_ ?_
  · refine .seq (expect_respaces _) fun _ => ?_
    refine .matched h.pattern_respaces fun pattern pattern' hpattern => ?_
    exact .seq (expect_respaces _) fun _ => .pure (by simp_all)
  · exact .seq (consumeKeyword_respaces _) fun remaining => .ite (.pure rfl) (.pure rfl)

theorem typeCase?_respaces :
    Respaces F Matches (r.typeCase? context) (r.typeCase? context) := by
  refine mark_respaces fun m m' => ?_
  refine .matched h.typeCaseHead?_respaces fun found found' hfound => ?_
  cases found <;> cases found' <;> simp at hfound
  · exact .pure rfl
  · refine .matched (h.block _) fun block block' hblock => ?_
    exact finished_respaces m m' fun span span' => by simp_all

theorem switchTypeStatement_respaces :
    Respaces F Matches (r.switchTypeStatement context m)
      (r.switchTypeStatement context m') := by
  refine .matched h.headExpr_respaces fun discriminant discriminant' hdiscriminant => ?_
  refine .seq (expect_respaces _) fun _ => ?_
  refine .matched (collectWhile_respaces (h.typeCase?_respaces context) _)
    fun cases cases' hcases => ?_
  exact .seq (expect_respaces _) fun _ =>
    finished_respaces m m' fun span span' => by simp_all

theorem switchStatement_respaces :
    Respaces F Matches (r.switchStatement context) (r.switchStatement context) := by
  refine mark_respaces fun m m' => ?_
  refine .seq next_respaces fun _ => ?_
  refine .seq (consumeContextKeyword_respaces _) fun onType => ?_
  refine .ite (h.switchTypeStatement_respaces context m m') ?_
  refine .matched h.headExpr_respaces fun discriminant discriminant' hdiscriminant => ?_
  refine .seq (expect_respaces _) fun _ => ?_
  refine .matched (h.switchCases_respaces _ _) fun cases cases' hcases => ?_
  exact .seq (expect_respaces _) fun _ =>
    finished_respaces m m' fun span span' => by simp_all

end Loops

section Statements

theorem blockStatements_respaces (context : Context) : ∀ fuel : Nat,
    Respaces F Matches (r.blockStatements context fuel) (r.blockStatements context fuel)
  | 0 => exhausted_respaces
  | fuel + 1 => by
    refine .seq (at?_respaces _) fun closed => .ite (.pure rfl) ?_
    refine .matched (h.statement context) fun ⟨first, ended⟩ ⟨first', ended'⟩ hmatch => ?_
    obtain ⟨hfirst, rfl⟩ : Matches first first' ∧ ended = ended' := by simpa using hmatch
    refine .ite ?_ (.pure (by simp_all))
    exact .matched (blockStatements_respaces context fuel)
      fun rest rest' hrest => .pure (by simp_all)

theorem blockRule_respaces (context : Context) :
    Respaces F Matches (r.blockRule context) (r.blockRule context) := by
  refine freshSuper_respaces ?_
  refine mark_respaces fun m m' => ?_
  refine .seq (expect_respaces _) fun _ => ?_
  refine .matched (h.blockStatements_respaces context _) fun statements statements' hstatements => ?_
  exact .seq (expect_respaces _) fun _ =>
    finished_respaces m m' fun span span' => by simp_all

theorem optExpressionStatement_respaces :
    Respaces F Matches r.optExpressionStatement r.optExpressionStatement := by
  refine .matched (h.optExprRule_respaces _) fun found found' hfound => ?_
  cases found <;> cases found' <;> simp at hfound
  · exact .pure rfl
  · exact .matched (expressionStatement_respaces hfound) fun ended ended' hended =>
      .pure (by simpa using hended)

theorem superStatement_respaces (context : Context) :
    Respaces F Matches (r.superStatement context) (r.superStatement context) := by
  refine mark_respaces fun m m' => ?_
  refine .seq next_respaces fun _ => ?_
  refine .seq (consume_respaces _) fun called => .ite ?_ ?_
  · refine .matched h.arguments_respaces fun arguments arguments' harguments => ?_
    refine .seq endStatement_respaces fun ended => ?_
    refine finish_respaces m m' fun span span' => ?_
    exact .seq (noteSuper_respaces context span span') fun _ => .pure (by simp_all)
  · refine finish_respaces m m' fun span span' => ?_
    exact .matched (h.continued_respaces _ _ rfl) fun e e' he =>
      expressionStatement_respaces he

omit h in
theorem importParts_respaces : ∀ fuel : Nat,
    Respaces F Matches (importParts fuel) (importParts fuel)
  | 0 => exhausted_respaces
  | fuel + 1 => by
    refine .seq (consume_respaces _) fun more => .ite ?_ (.pure rfl)
    refine .seq (consumeOperator_respaces _) fun all => .ite (.pure rfl) ?_
    refine .seq (consumeOperator_respaces _) fun allBelow => .ite (.pure rfl) ?_
    refine .matched wordIdentifier_respaces fun first first' hfirst => ?_
    refine .matched (importParts_respaces fuel)
      fun ⟨rest, ending⟩ ⟨rest', ending'⟩ hrest => .pure ?_
    simp_all

omit h in
theorem importHead_respaces : Respaces F Matches importHead importHead := by
  refine .matched identifier_respaces fun id id' hid => ?_
  refine .seq (at?_respaces _) fun plain => .ite (.pure (by simp_all)) ?_
  refine .seq (expect_respaces _) fun _ => ?_
  refine .matched identifier_respaces fun first first' hfirst => ?_
  refine .seq (at?_respaces _) fun more => ?_
  exact .optional Iff.rfl unexpected_respaces (.pure (by simp_all))

theorem importStatement_respaces :
    Respaces F Matches r.importStatement r.importStatement := by
  refine mark_respaces fun m m' => ?_
  refine .seq next_respaces fun _ => ?_
  refine .seq (consume_respaces _) fun onMeta => .ite ?_ ?_
  · refine .seq (expectContextKeyword_respaces _) fun _ => ?_
    refine finish_respaces m m' fun span span' => ?_
    exact .matched (h.continued_respaces _ _ rfl) fun e e' he =>
      expressionStatement_respaces he
  refine .matched importHead_respaces fun ⟨localName, first⟩ ⟨localName', first'⟩ hhead => ?_
  refine .matched (importParts_respaces _) fun ⟨rest, ending⟩ ⟨rest', ending'⟩ hparts => ?_
  obtain ⟨hrest, hending⟩ : Matches rest rest' ∧ Matches ending ending' := by simpa using hparts
  obtain rfl : ending = ending' := hending
  refine .seq endStatement_respaces fun ended => ?_
  exact finished_respaces m m' fun span span' => by simp_all

theorem returnStatement_respaces :
    Respaces F Matches r.returnStatement r.returnStatement := by
  refine mark_respaces fun m m' => ?_
  refine .seq next_respaces fun _ => ?_
  refine .seq endStatement_respaces fun ended => ?_
  have rest : ∀ value value' : Option Expr, Matches value value' → Respaces F Matches
      (do
        let ended ← if value.isSome then endStatement else pure ended
        return (Statement.returnValue (← finish m) value, ended))
      (do
        let ended ← if value'.isSome then endStatement else pure ended
        return (Statement.returnValue (← finish m') value', ended)) := by
    intro value value' hvalue
    have last : ∀ ended : Bool, Respaces F Matches
        (finish m >>= fun span => Pure.pure (Statement.returnValue span value, ended))
        (finish m' >>= fun span => Pure.pure (Statement.returnValue span value', ended)) :=
      fun ended => finished_respaces m m' fun span span' => by simp_all
    have hgiven : value.isSome = value'.isSome := by
      cases value <;> cases value' <;> simp_all
    exact .ite_iff (by rw [hgiven]) (.seq endStatement_respaces last)
      (.seq (.pure rfl) last)
  refine get_respaces (fun s s' hview => ?_) fun s t hlike => ?_
  · rw [show s.onSameLine = s'.onSameLine from congrArg View.onSameLine hview]
  rw [show s.onSameLine = t.onSameLine from hlike.onSameLine]
  exact .ite (.matched (h.optExpr _) rest) (.matched (.pure rfl) rest)

theorem throwStatement_respaces : Respaces F Matches r.throwStatement r.throwStatement := by
  refine mark_respaces fun m m' => ?_
  refine .seq next_respaces fun _ => ?_
  refine .matched (h.expr_respaces _) fun e e' he => ?_
  refine .seq endStatement_respaces fun ended => ?_
  exact finished_respaces m m' fun span span' => by simp_all

theorem catchClause?_respaces (context : Context) :
    Respaces F Matches (r.catchClause? context) (r.catchClause? context) := by
  refine .seq (atKeyword?_respaces _) fun found => .ite (.pure rfl) ?_
  refine mark_respaces fun m m' => ?_
  refine .seq next_respaces fun _ => ?_
  refine .seq (expect_respaces _) fun _ => ?_
  refine .matched h.pattern_respaces fun pattern pattern' hpattern => ?_
  refine .seq (expect_respaces _) fun _ => ?_
  refine .matched (h.block _) fun block block' hblock => ?_
  exact finished_respaces m m' fun span span' => by simp_all

theorem tryStatement_respaces (context : Context) :
    Respaces F Matches (r.tryStatement context) (r.tryStatement context) := by
  refine mark_respaces fun m m' => ?_
  refine .seq next_respaces fun _ => ?_
  refine .matched (h.block _) fun block block' hblock => ?_
  refine .matched (collectWhile_respaces (h.catchClause?_respaces context) _)
    fun catches catches' hcatches => ?_
  refine .seq (consumeKeyword_respaces _) fun hasLast => ?_
  have rest : ∀ last last' : Option Block, Matches last last' → Respaces F Matches
      (do
        let span ← finish m
        if catches.isEmpty && last.isNone then syntaxError .tryStatementMustveAtLeast span
        return (Statement.tryCatch span block catches last, true))
      (do
        let span ← finish m'
        if catches'.isEmpty && last'.isNone then syntaxError .tryStatementMustveAtLeast span
        return (Statement.tryCatch span block' catches' last', true)) := by
    intro last last' hlast
    have hnone : last.isNone = last'.isNone := by cases last <;> cases last' <;> simp_all
    refine finish_respaces m m' fun span span' => ?_
    exact .optional (by rw [RulesShadow.isEmpty_of_matches hcatches, hnone]) (syntaxError_respaces _ _ _)
      (.pure (by simp_all))
  refine .ite (.matched (.map (h.block _) (fun b => ⟨b, rfl⟩) fun b b' hb => ?_) rest)
    (.matched (.pure rfl) rest)
  simpa using hb

theorem useResourceStatement_respaces (context : Context) (m m' : Mark) :
    Respaces F Matches (r.useResourceStatement context m)
      (r.useResourceStatement context m') := by
  refine .seq (expect_respaces _) fun _ => ?_
  refine .matched (separatedUntil_respaces _ (h.variableBinding_respaces true) _)
    fun bindings bindings' hbindings => ?_
  refine .seq (expect_respaces _) fun _ => ?_
  refine .matched (h.block _) fun block block' hblock => ?_
  exact finished_respaces m m' fun span span' => by simp_all

theorem useStatement_respaces (context : Context) :
    Respaces F Matches (r.useStatement context) (r.useStatement context) := by
  refine mark_respaces fun m m' => ?_
  refine .seq next_respaces fun _ => ?_
  refine .seq (consumeContextKeyword_respaces _) fun resource => ?_
  refine .ite (h.useResourceStatement_respaces context m m') ?_
  refine .seq (expectContextKeyword_respaces _) fun _ => ?_
  refine .matched (h.expr_respaces _) fun e e' he => ?_
  refine .seq endStatement_respaces fun ended => ?_
  exact finished_respaces m m' fun span span' => by simp_all

theorem withStatement_respaces (context : Context) :
    Respaces F Matches (r.withStatement context) (r.withStatement context) := by
  refine mark_respaces fun m m' => ?_
  refine .seq next_respaces fun _ => ?_
  refine .matched h.headExpr_respaces fun object object' hobject => ?_
  exact h.nested_respaces fun body body' hbody ended =>
    finished_respaces m m' fun span span' => by simp_all

omit h in
theorem includedText_respaces (path : String) (span span' : Span) :
    Respaces F Eq (r.includedText path span) (r.includedText path span') := by
  unfold includedText
  cases r.readFile path with
  | some text => exact .pure rfl
  | none => exact .seq (verifyError_respaces _ _ _) fun _ => .pure rfl

omit h in
/-- An included script is taken over, whatever surrounds it. -/
theorem addIncluded_respaces (child : Script) :
    Respaces F Eq (addIncluded child) (addIncluded child) where
  before hcst := .kept rfl (F.before_addIncluded hcst child)
  beyond hst := .ok rfl (F.beyond_addIncluded hst child)
  astray hc := .ok (F.astray_addIncluded hc child)

theorem includeStatement_respaces (context : Context) (m m' : Mark) (source : String) :
    Respaces F Matches (r.includeStatement context m source)
      (r.includeStatement context m' source) := by
  refine .seq next_respaces fun _ => ?_
  refine .seq endStatement_respaces fun ended => ?_
  refine finish_respaces m m' fun span span' => ?_
  refine get_respaces (fun s s' hview => ?_) fun s t hlike => ?_
  · rw [show s.script.path = s'.script.path from congrArg View.path hview]
  rw [show s.script.path = t.script.path from hlike.path]
  refine .seq (includedText_respaces _ span span') fun text => ?_
  refine .seq (h.included context _) fun ⟨child, statements⟩ => ?_
  exact .seq (addIncluded_respaces child) fun _ => .pure (by simp)

theorem labeledStatement_respaces (context : Context) (m m' : Mark) (label : String) :
    Respaces F Matches (r.labeledStatement context m label)
      (r.labeledStatement context m' label) :=
  h.nested_respaces fun statement statement' hstatement ended =>
    finished_respaces m m' fun span span' => by simp_all

theorem identifierStatement_respaces (context : Context) (m m' : Mark) :
    Respaces F Matches (r.identifierStatement context m)
      (r.identifierStatement context m') := by
  refine previous_respaces fun label label' hlabel => ?_
  rw [hlabel.text]
  refine .seq (consume_respaces _) fun labeled => ?_
  refine .ite (h.labeledStatement_respaces context m m' _) ?_
  refine get_respaces (fun s s' hview => ?_) fun s t hlike => ?_
  · rw [show s.token = s'.token from congrArg View.token hview,
      show s.previous = s'.previous from congrArg View.previous hview,
      show s.onSameLine = s'.onSameLine from congrArg View.onSameLine hview]
  have htoken : s.token.Twin t.token := hlike.token
  have hprevious : s.previous.Twin t.previous := hlike.previous
  have hline : s.onSameLine = t.onSameLine := hlike.onSameLine
  simp only [hline, htoken.kind, htoken.text, htoken.beginsDefinition, hprevious.isContextKeyword,
    hprevious.isSoftDefinition, hprevious.modifier?]
  refine .ite (h.includeStatement_respaces context m m' _) ?_
  refine .ite (h.definition_respaces context m m' rfl) ?_
  generalize (Words.modifier? t.previous).filter _ = found
  cases found with
  | some modifier => exact h.modifiedDefinition_respaces context m m' rfl
  | none =>
    refine .matched (h.identifierPrimary_respaces true) fun first first' hfirst => ?_
    exact .matched (h.continued_respaces _ _ hfirst) fun e e' he =>
      expressionStatement_respaces he

theorem moreBrackets_respaces : ∀ (fuel : Nat) {read read' : List Expr}, Matches read read' →
    Respaces F Matches (r.moreBrackets fuel read) (r.moreBrackets fuel read')
  | 0, _, _, _ => exhausted_respaces
  | fuel + 1, read, read', hread => by
    refine get_respaces (fun s s' hview => ?_) fun s t hlike => ?_
    · rw [show s.token = s'.token from congrArg View.token hview]
    rw [Matches.lastDecorates hread, show s.token.kind = t.token.kind from hlike.token.kind]
    refine .ite ?_ (.pure hread)
    exact .matched (h.expr_respaces _) fun e e' he => moreBrackets_respaces fuel (by simp_all)

theorem bracketStatement_respaces (context : Context) (m m' : Mark) :
    Respaces F Matches (r.bracketStatement context m) (r.bracketStatement context m') := by
  refine .matched (h.exprRule_respaces _) fun first first' hfirst => ?_
  refine .matched (h.moreBrackets_respaces _ (by simp_all)) fun all all' hall => ?_
  refine token_respaces fun t t' ht => ?_
  rw [Matches.allDecorators hall, ht.beginsDecorated]
  refine .ite (h.modifiedDefinition_respaces context m m' ?_) ?_
  · have hdecorators := Matches.decorators hall
    simp_all
  match all, all', hall with
  | [single], [single'], hsingle =>
    exact expressionStatement_respaces (by simpa using hsingle)
  | [], [], _ =>
    exact finish_respaces m m' fun span span' => expressionStatement_respaces rfl
  | first :: second :: rest, first' :: second' :: rest', hmany =>
    exact finish_respaces m m' fun span span' =>
      expressionStatement_respaces (by simpa using hmany)
  | [], _ :: _, hno => simp at hno
  | _ :: _, [], hno => simp at hno
  | [_], _ :: _ :: _, hno => simp at hno
  | _ :: _ :: _, [_], hno => simp at hno

theorem keywordStatement_respaces (context : Context) (m m' : Mark) {t t' : Token}
    (ht : t.Twin t') : Respaces F Matches (r.keywordStatement context m t)
      (r.keywordStatement context m' t') := by
  have given : ∀ {x x' : Parse Ended}, Respaces F Matches x x' →
      Respaces F Matches (some <$> x) (some <$> x') := fun hx =>
    .map hx (fun e => ⟨e, rfl⟩) fun e e' he => by simpa using he
  unfold keywordStatement
  rw [ht.text, ht.beginsDefinition]
  split
  · exact given (h.superStatement_respaces context)
  · exact given h.importStatement_respaces
  · exact given (h.ifStatement_respaces context)
  · exact given (h.doStatement_respaces context)
  · exact given (h.whileStatement_respaces context)
  · exact given (breakStatement_respaces context)
  · exact given (continueStatement_respaces context)
  · exact given h.returnStatement_respaces
  · exact given h.throwStatement_respaces
  · exact given (h.tryStatement_respaces context)
  · exact given (h.forStatement_respaces context)
  · exact given (h.switchStatement_respaces context)
  · exact given (h.useStatement_respaces context)
  · exact given (h.withStatement_respaces context)
  · exact .ite (given (h.modifiedDefinition_respaces context m m' rfl))
      h.optExpressionStatement_respaces

theorem optStatement_respaces (context : Context) :
    Respaces F Matches (r.optStatement context) (r.optStatement context) := by
  have given : ∀ {x x' : Parse Ended}, Respaces F Matches x x' →
      Respaces F Matches (some <$> x) (some <$> x') := fun hx =>
    .map hx (fun e => ⟨e, rfl⟩) fun e e' he => by simpa using he
  refine mark_respaces fun m m' => ?_
  refine token_respaces fun t t' ht => ?_
  rw [ht.kind]
  split
  · exact h.keywordStatement_respaces context m m' ht
  · exact .seq next_respaces fun _ => given (h.identifierStatement_respaces context m m')
  · exact .matched (h.blockRule_respaces _) fun block block' hblock => .pure (by simp_all)
  · exact .seq next_respaces fun _ => .pure rfl
  · exact given (h.bracketStatement_respaces context m m')
  · exact h.optExpressionStatement_respaces

theorem statementRule_respaces (context : Context) :
    Respaces F Matches (r.statementRule context) (r.statementRule context) := by
  refine .matched (h.optStatement_respaces context) fun found found' hfound => ?_
  cases found <;> cases found' <;> simp at hfound
  · exact unexpected_respaces
  · exact .pure (by simpa using hfound)

end Statements

section Programs

omit h in
theorem packagePart?_respaces : Respaces F Matches packagePart? packagePart? := by
  refine .seq (consume_respaces _) fun more => .ite ?_ (.pure rfl)
  refine .seq (expectIf_respaces fun h => h.isWord) fun _ => ?_
  exact previous_respaces fun t t' ht => .pure (by simp [ht.text])

omit h in
theorem packageName_respaces : Respaces F Eq r.packageName r.packageName := by
  refine .seq consumeIdentifier_respaces fun named => .ite ?_ (.pure rfl)
  refine previous_respaces fun t t' ht => ?_
  refine .matched (collectWhile_respaces packagePart?_respaces _) fun rest rest' hrest => .pure ?_
  rw [ht.text, show rest = rest' by simpa using hrest]

theorem package?_respaces : Respaces F Matches r.package? r.package? := by
  refine .seq (atKeyword?_respaces _) fun found => .ite (.pure rfl) ?_
  refine mark_respaces fun m m' => ?_
  refine .seq next_respaces fun _ => ?_
  refine .seq packageName_respaces fun id => ?_
  refine .matched (h.block _) fun block block' hblock => ?_
  exact finished_respaces m m' fun span span' => by simp_all

theorem programStatements_respaces : ∀ fuel : Nat,
    Respaces F Matches (r.programStatements fuel) (r.programStatements fuel)
  | 0 => exhausted_respaces
  | fuel + 1 => by
    refine .seq (at?_respaces _) fun closed => .ite (.pure rfl) ?_
    refine .matched (h.statement _) fun ⟨first, ended⟩ ⟨first', ended'⟩ hmatch => ?_
    obtain ⟨hfirst, rfl⟩ : Matches first first' ∧ ended = ended' := by simpa using hmatch
    refine .ite ?_ (.pure (by simp_all))
    exact .matched (programStatements_respaces fuel) fun rest rest' hrest => .pure (by simp_all)

theorem program_respaces : Respaces F Matches r.program r.program := by
  refine mark_respaces fun m m' => ?_
  refine .matched (collectWhile_respaces h.package?_respaces _) fun packages packages' hpackages => ?_
  refine .matched (h.programStatements_respaces _) fun statements statements' hstatements => ?_
  have hempty : (packages.isEmpty && statements.isEmpty) = (packages'.isEmpty && statements'.isEmpty) := by
    rw [RulesShadow.isEmpty_of_matches hpackages, RulesShadow.isEmpty_of_matches hstatements]
  -- Only at the end of the text is it told how much the text covers.
  refine expectEnd_then (fun {s t} hst => ?_) fun {c} hc => ?_
  · rw [hempty]
    split
    · exact .ok (by simp_all) hst
    · exact .ok (by simp_all) hst
  · split
    · exact .ok hc
    · exact .ok hc

end Programs

end RulesRespace

end ActionSyntax
