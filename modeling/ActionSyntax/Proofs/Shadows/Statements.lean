import ActionSyntax.Grammar.Statements
import ActionSyntax.Proofs.Shadows.Definitions

/-!
How statements are read in the shadow of each other. Where the first text ends inside a statement,
everything is left open; a block is closed by its brace.
-/

namespace ActionSyntax

set_option autoImplicit false

open Parse Rules

section Bare

instance : Bare Rules.Jump := ⟨fun j => { j with span := default }⟩

@[simp] theorem bare_jump (j : Rules.Jump) : bare j = { j with span := default } := rfl

theorem Rules.isDecorators_bare : ∀ e : Expr, isDecorators e.bare = isDecorators e
  | .index _ base _ _ => by
    simp only [Expr.bare, isDecorators]
    rw [isDecorators_bare base]
  | .array _ _ type => by cases type <;> rfl
  | .identifier id => by cases id; rfl
  | .embed .. | .unary .. | .binary .. | .typeBinary .. | .defaultOf .. | .function .. | .object ..
  | .spread .. | .nodeList .. | .node .. | .member .. | .call .. | .importMeta .. | .this ..
  | .string .. | .null .. | .boolean .. | .number .. | .regularExpression .. | .conditional ..
  | .parens .. | .list .. | .instantiation .. | .assignment .. | .new .. | .super .. => rfl

theorem Rules.isSpread_bare (e : Expr) : isSpread e.bare = isSpread e := by cases e <;> rfl

theorem Rules.listItems_bare (e : Expr) : listItems e.bare = (listItems e).map Expr.bare := by
  cases e with
  | list span expressions => simp [listItems]
  | identifier id => cases id; rfl
  | _ => rfl

theorem Rules.decoratorsOf_bare : ∀ e : Expr, decoratorsOf e.bare = (decoratorsOf e).map Expr.bare
  | .index _ base key _ => by
    simp only [Expr.bare, decoratorsOf, List.map_append]
    rw [decoratorsOf_bare base, listItems_bare]
  | .array _ items type => by
    have hall : (items.map (Option.map Expr.bare)).filterMap id =
        (items.filterMap id).map Expr.bare := by
      simp [List.filterMap_map, List.map_filterMap]
    simp only [Expr.bare, decoratorsOf, Expr.bareSlots_eq, hall, List.filter_map, Function.comp_def,
      isSpread_bare]
  | .identifier id => by cases id; rfl
  | .embed .. | .unary .. | .binary .. | .typeBinary .. | .defaultOf .. | .function .. | .object ..
  | .spread .. | .nodeList .. | .node .. | .member .. | .call .. | .importMeta .. | .this ..
  | .string .. | .null .. | .boolean .. | .number .. | .regularExpression .. | .conditional ..
  | .parens .. | .list .. | .instantiation .. | .assignment .. | .new .. | .super .. => rfl

theorem Matches.allDecorators {read read' : List Expr} (h : Matches read read') :
    read.all Rules.isDecorators = read'.all Rules.isDecorators := by
  have hbare : read.map Expr.bare = read'.map Expr.bare := h
  have hall : ∀ read : List Expr,
      (read.map Expr.bare).all Rules.isDecorators = read.all Rules.isDecorators := fun read => by
    simp [List.all_map, Function.comp_def, isDecorators_bare]
  rw [← hall, hbare, hall]

theorem Matches.lastDecorates {read read' : List Expr} (h : Matches read read') :
    read.getLast?.map Rules.isDecorators = read'.getLast?.map Rules.isDecorators := by
  have hbare : read.map Expr.bare = read'.map Expr.bare := h
  have hlast : ∀ read : List Expr, (read.map Expr.bare).getLast?.map Rules.isDecorators =
      read.getLast?.map Rules.isDecorators := fun read => by
    simp [List.getLast?_map, Function.comp_def, isDecorators_bare]
  rw [← hlast, hbare, hlast]

theorem Matches.decorators {read read' : List Expr} (h : Matches read read') :
    Matches (read.flatMap decoratorsOf) (read'.flatMap decoratorsOf) := by
  have hbare : read.map Expr.bare = read'.map Expr.bare := h
  have hall : ∀ read : List Expr, (read.flatMap decoratorsOf).map Expr.bare =
      (read.map Expr.bare).flatMap decoratorsOf := fun read => by
    simp [List.map_flatMap, List.flatMap_map, decoratorsOf_bare]
  show (_ : List Expr).map Expr.bare = (_ : List Expr).map Expr.bare
  rw [hall, hbare, hall]

theorem Matches.isForInDeclaration {declaration declaration' : VariableDeclaration}
    (h : Matches declaration declaration') :
    isForInDeclaration declaration = isForInDeclaration declaration' := by
  have hbare : ∀ declaration : VariableDeclaration,
      Rules.isForInDeclaration declaration.bare = Rules.isForInDeclaration declaration := by
    rintro ⟨span, readOnly, bindings⟩
    have hinit : ∀ binding : VariableBinding, binding.bare.init.isNone = binding.init.isNone := by
      rintro ⟨span, pattern, init⟩
      cases init <;> rfl
    simp [Rules.isForInDeclaration, List.all_map, Function.comp_def, hinit]
  have hmatch : declaration.bare = declaration'.bare := h
  rw [← hbare, hmatch, hbare]

end Bare

namespace RulesShadow

variable {P : Pairing} {r r' : Rules}

section Jumps

theorem jump_shadows (hl : P.layered) : Shadows P .wide Matches jump jump := by
  refine mark_shadows fun m m' => ?_
  refine .seq next_shadows fun _ => ?_
  refine get_shadows fun s t hst => ?_
  rw [(hst.layout hl).1]
  have rest : ∀ hasLabel : Bool, Shadows P .wide Matches
      (do
        let name := (← previous).text
        let label := if hasLabel then some name else none
        let ended ← endStatement
        return { span := ← finish m, label, ended : Jump })
      (do
        let name := (← previous).text
        let label := if hasLabel then some name else none
        let ended ← endStatement
        return { span := ← finish m', label, ended : Jump }) := fun hasLabel =>
    previous_shadows fun name name' hname => .seq (endStatement_shadows hl) fun ended =>
      finished_shadows m m' fun span span' => by simp [hname.text]
  exact .ite (.seq consumeIdentifier_shadows rest) (.seq (.pure rfl) rest)

theorem checkJump_shadows (context : Context) {j j' : Jump} (legal : Bool) (id : ProblemId)
    (hj : Matches j j') :
    Shadows P .wide Eq (checkJump context j legal id) (checkJump context j' legal id) := by
  obtain ⟨span, label, ended⟩ := j
  obtain ⟨span', label', ended'⟩ := j'
  obtain ⟨rfl, rfl⟩ : label = label' ∧ ended = ended' := by simpa using hj
  cases label with
  | some label => exact .ite (.pure rfl) (report_shadows _ _ _ _ _)
  | none => exact .ite (.pure rfl) (syntaxError_shadows _ _ _)

theorem breakStatement_shadows (hl : P.layered) (context : Context) :
    Shadows P .wide Matches (breakStatement context) (breakStatement context) :=
  .matched (jump_shadows hl) fun j j' hj => .seq (checkJump_shadows context _ _ hj) fun _ =>
    .pure (by simp_all)

theorem continueStatement_shadows (hl : P.layered) (context : Context) :
    Shadows P .wide Matches (continueStatement context) (continueStatement context) :=
  .matched (jump_shadows hl) fun j j' hj => .seq (checkJump_shadows context _ _ hj) fun _ =>
    .pure (by simp_all)

end Jumps

theorem expressionStatement_shadows (hl : P.layered) {e e' : Expr} (he : Matches e e') :
    Shadows P .wide Matches (expressionStatement e) (expressionStatement e') :=
  .seq (endStatement_shadows hl) fun ended => finished_shadows _ _ fun span span' => by simp_all

theorem noteSuper_shadows (hl : P.layered) (context : Context) (span span' : Span) :
    Shadows P .wide Eq (noteSuper context span) (noteSuper context span') where
  goes {s t} hst := by
    have hsees := P.sees hst
    unfold noteSuper
    rw [get_bind, get_bind, ← hsees.superFound hl]
    split
    · exact (syntaxError_shadows _ span span').goes hst
    · refine .ok rfl ?_
      have hnoted := P.note hst s.functions true
      rwa [show ({ t with functions := s.functions, superFound := true } : ParserState) =
        { t with superFound := true } by rw [hsees.functions hl]] at hnoted
  stays {s a t} hs h := by
    unfold noteSuper at h
    rw [get_bind] at h
    split at h <;> cases h
    · exact hs.collect _
    · exact hs.note s.functions true

variable (h : RulesShadow P r r')
include h

section Loops

theorem headExpr_shadows : Shadows P .wide Matches r.headExpr r'.headExpr := by
  refine .seq (expect_shadows (by decide)) fun _ => ?_
  refine .matched (h.expr_shadows (Or.inr (Or.inl rfl))) fun e e' he => ?_
  exact .seq (expect_shadows (by decide)) fun _ => .pure he

/-- A statement, and what is done with it. -/
theorem nested_shadows {context : Context} {f f' : Ended → Parse Ended}
    (hf : ∀ statement statement' : Statement, Matches statement statement' → ∀ ended,
      Shadows P .wide Matches (f (statement, ended)) (f' (statement', ended))) :
    Shadows P .wide Matches (r.statement context >>= f) (r'.statement context >>= f') := by
  refine .matched (h.statement context) fun ⟨statement, ended⟩ ⟨statement', ended'⟩ hmatch => ?_
  obtain ⟨hstatement, rfl⟩ : Matches statement statement' ∧ ended = ended' := by simpa using hmatch
  exact hf _ _ hstatement ended

theorem elseClause_shadows {context : Context} {m m' : Mark} {test test' : Expr}
    {consequent consequent' : Statement} {ended : Bool} (htest : Matches test test')
    (hconsequent : Matches consequent consequent') (hasElse : Bool) :
    Shadows P .wide Matches
      (if hasElse then do
        let (alternative, ended) ← r.statement context.nested
        return (Statement.ifElse (← finish m) test consequent (some alternative), ended)
      else do return (Statement.ifElse (← finish m) test consequent none, ended))
      (if hasElse then do
        let (alternative, ended) ← r'.statement context.nested
        return (Statement.ifElse (← finish m') test' consequent' (some alternative), ended)
      else do return (Statement.ifElse (← finish m') test' consequent' none, ended)) :=
  .ite (h.nested_shadows fun alternative alternative' halternative ended =>
      finished_shadows m m' fun span span' => by simp_all)
    (finished_shadows m m' fun span span' => by simp_all)

theorem ifStatement_shadows (context : Context) :
    Shadows P .wide Matches (r.ifStatement context) (r'.ifStatement context) := by
  refine mark_shadows fun m m' => ?_
  refine .seq next_shadows fun _ => ?_
  refine .matched h.headExpr_shadows fun test test' htest => ?_
  refine h.nested_shadows fun consequent consequent' hconsequent ended => ?_
  exact .ite (.seq (consumeKeyword_shadows _) (h.elseClause_shadows htest hconsequent))
    (.seq (.pure rfl) (h.elseClause_shadows htest hconsequent))

theorem doStatement_shadows (context : Context) :
    Shadows P .wide Matches (r.doStatement context) (r'.doStatement context) := by
  refine mark_shadows fun m m' => ?_
  refine .seq next_shadows fun _ => ?_
  refine h.nested_shadows fun body body' hbody ended => ?_
  refine .optional Iff.rfl unexpected_shadows ?_
  refine .seq (expectKeyword_shadows _) fun _ => ?_
  refine .matched h.headExpr_shadows fun test test' htest => ?_
  exact finished_shadows m m' fun span span' => by simp_all

theorem whileStatement_shadows (context : Context) :
    Shadows P .wide Matches (r.whileStatement context) (r'.whileStatement context) := by
  refine mark_shadows fun m m' => ?_
  refine .seq next_shadows fun _ => ?_
  refine .matched h.headExpr_shadows fun test test' htest => ?_
  refine h.nested_shadows fun body body' hbody ended => ?_
  exact finished_shadows m m' fun span span' => by simp_all

variable {left left' : ForBinding} (context : Context) (m m' : Mark)

theorem forInRest_shadows (iteratesKeys : Bool) (hleft : Matches left left') :
    Shadows P .wide Matches
      (do
        let right ← r.expr {}
        expect .rightParen
        let (body, ended) ← r.statement context.loopBody
        return (Statement.forIn (← finish m) iteratesKeys left right body, ended))
      (do
        let right ← r'.expr {}
        expect .rightParen
        let (body, ended) ← r'.statement context.loopBody
        return (Statement.forIn (← finish m') iteratesKeys left' right body, ended)) := by
  refine .matched (h.expr_shadows (Or.inr (Or.inl rfl))) fun right right' hright => ?_
  refine .seq (expect_shadows (by decide)) fun _ => ?_
  exact h.nested_shadows fun body body' hbody ended =>
    finished_shadows m m' fun span span' => by simp_all

theorem forInStatement_shadows (iteratesKeys : Bool) (hleft : Matches left left') :
    Shadows P .wide Matches (r.forInStatement context m iteratesKeys left)
      (r'.forInStatement context m' iteratesKeys left') := by
  have hwhole := hleft
  cases left <;> cases left' <;> simp at hleft
  · rename_i declaration declaration'
    have hsame := Matches.isForInDeclaration hleft
    exact .ite_iff (by rw [hsame])
      (.seq (syntaxError_shadows _ _ _) fun _ => h.forInRest_shadows _ _ _ iteratesKeys hwhole)
      (h.forInRest_shadows _ _ _ iteratesKeys hwhole)
  · exact h.forInRest_shadows _ _ _ iteratesKeys hwhole

theorem eachBinding_shadows : Shadows P .wide Matches r.eachBinding r'.eachBinding := by
  refine .matched h.variableDeclaration?_shadows fun found found' hfound => ?_
  cases found <;> cases found' <;> simp at hfound
  · exact .matched (h.expr_shadows (Or.inr (Or.inl rfl))) fun e e' he => .pure (by simp_all)
  · exact .pure (by simp_all)

theorem forEachStatement_shadows :
    Shadows P .wide Matches (r.forEachStatement context m) (r'.forEachStatement context m') := by
  refine .seq (expect_shadows (by decide)) fun _ => ?_
  refine .matched h.eachBinding_shadows fun left left' hleft => ?_
  exact .seq (expectKeyword_shadows _) fun _ => h.forInStatement_shadows context m m' false hleft

theorem forHead_shadows : Shadows P .wide Matches r.forHead r'.forHead := by
  refine .matched h.variableDeclaration?_shadows fun found found' hfound => ?_
  cases found <;> cases found' <;> simp at hfound
  · refine .matched (h.optExpr .wide _ (Or.inr (Or.inl rfl))) fun first first' hfirst => ?_
    cases first <;> cases first' <;> simp at hfirst
    · exact .pure rfl
    · exact .pure (by simp_all)
  · exact .pure (by simp_all)

theorem forInit_shadows (hleft : Matches left left') :
    Shadows P .wide Matches (r.forInit left) (r'.forInit left') := by
  cases left <;> cases left' <;> simp at hleft
  · exact .pure (by simp_all)
  · exact .matched (h.continued_shadows false (Or.inr (Or.inl rfl)) hleft) fun e e' he =>
      .pure (by simp_all)

/-- An expression that is left out in front of a mark. -/
theorem unlessAt_shadows (k : TokenKind) {f f' : Option Expr → Parse Ended}
    (hf : ∀ e e', Matches e e' → Shadows P .wide Matches (f e) (f' e')) :
    Shadows P .wide Matches
      (at? k >>= fun closed => if closed then Pure.pure none >>= f else some <$> r.expr {} >>= f)
      (at? k >>= fun closed => if closed then Pure.pure none >>= f' else some <$> r'.expr {} >>= f') := by
  refine .seq (at?_wide k) fun closed => .ite (.matched (.pure rfl) hf) ?_
  refine .matched (.map (h.expr_shadows (Or.inr (Or.inl rfl))) (fun e => ⟨e, rfl⟩)
    fun e e' he => ?_) hf
  simpa using he

theorem forRest_shadows {init init' : Option ForBinding} (hinit : Matches init init') :
    Shadows P .wide Matches (r.forRest context m init) (r'.forRest context m' init') := by
  refine .seq (expect_shadows (by decide)) fun _ => ?_
  refine h.unlessAt_shadows .semicolon fun test test' htest => ?_
  refine .seq (expect_shadows (by decide)) fun _ => ?_
  refine h.unlessAt_shadows .rightParen fun update update' hupdate => ?_
  refine .seq (expect_shadows (by decide)) fun _ => ?_
  exact h.nested_shadows fun body body' hbody ended =>
    finished_shadows m m' fun span span' => by simp_all

theorem forStatement_shadows :
    Shadows P .wide Matches (r.forStatement context) (r'.forStatement context) := by
  refine mark_shadows fun m m' => ?_
  refine .seq next_shadows fun _ => ?_
  refine .seq (consumeContextKeyword_shadows _) fun onEach => ?_
  refine .ite (h.forEachStatement_shadows context m m') ?_
  refine .seq (expect_shadows (by decide)) fun _ => ?_
  refine .matched h.forHead_shadows fun head head' hhead => ?_
  cases head <;> cases head' <;> simp at hhead
  · exact h.forRest_shadows context m m' rfl
  refine .seq (consumeKeyword_shadows _) fun isIn => ?_
  refine .ite (h.forInStatement_shadows context m m' true hhead) ?_
  exact .matched (h.forInit_shadows hhead) fun init init' hinit =>
    h.forRest_shadows context m m' (by simpa using hinit)

theorem caseStatements_shadows : ∀ {fuel fuel' : Nat}, fuel ≤ fuel' →
    Shadows P .wide Matches (r.caseStatements context fuel) (r'.caseStatements context fuel')
  | 0, _, _ => exhausted_shadows
  | fuel + 1, fuel' + 1, hle => by
    refine token_wide fun t t' ht hkind => ?_
    rw [ht.isKeyword, ht.isKeyword, hkind]
    refine .ite (.pure rfl) ?_
    refine .matched (h.statement context) fun ⟨first, ended⟩ ⟨first', ended'⟩ hmatch => ?_
    obtain ⟨hfirst, rfl⟩ : Matches first first' ∧ ended = ended' := by simpa using hmatch
    refine .ite ?_ (.pure (by simp_all))
    refine .matched (caseStatements_shadows (Nat.le_of_succ_le_succ hle))
      fun ⟨rest, allEnded⟩ ⟨rest', allEnded'⟩ hrest => .pure ?_
    simp_all

theorem caseTest_shadows : Shadows P .wide Matches r.caseTest r'.caseTest := by
  refine .seq (consumeKeyword_shadows _) fun tested => .ite ?_ ?_
  · exact .map (h.expr_shadows (Or.inr (Or.inl rfl))) (fun e => ⟨e, rfl⟩) fun e e' he => by simp_all
  · exact .seq (expectKeyword_shadows _) fun _ => .pure rfl

theorem switchCases_shadows : ∀ {fuel fuel' : Nat}, fuel ≤ fuel' →
    Shadows P .wide Matches (r.switchCases context fuel) (r'.switchCases context fuel')
  | 0, _, _ => exhausted_shadows
  | fuel + 1, fuel' + 1, hle => by
    refine .seq (at?_wide _) fun closed => .ite (.pure rfl) ?_
    refine mark_shadows fun m m' => ?_
    refine .matched h.caseTest_shadows fun test test' htest => ?_
    refine .seq (expect_shadows (by decide)) fun _ => ?_
    refine .matched (h.caseStatements_shadows context h.rounds_le)
      fun ⟨consequent, ended⟩ ⟨consequent', ended'⟩ hmatch => ?_
    obtain ⟨hconsequent, rfl⟩ : Matches consequent consequent' ∧ ended = ended' := by
      simpa using hmatch
    refine finish_shadows m m' fun span span' => ?_
    refine .ite ?_ (.pure (by simp_all))
    exact .matched (switchCases_shadows (Nat.le_of_succ_le_succ hle)) fun rest rest' hrest =>
      .pure (by simp_all)

theorem typeCaseHead?_shadows : Shadows P .wide Matches r.typeCaseHead? r'.typeCaseHead? := by
  refine .seq (consumeKeyword_shadows _) fun matching => .ite ?_ ?_
  · refine .seq (expect_shadows (by decide)) fun _ => ?_
    refine .matched h.pattern_shadows fun pattern pattern' hpattern => ?_
    exact .seq (expect_shadows (by decide)) fun _ => .pure (by simp_all)
  · exact .seq (consumeKeyword_shadows _) fun remaining => .ite (.pure rfl) (.pure rfl)

theorem typeCase?_shadows :
    Shadows P .wide Matches (r.typeCase? context) (r'.typeCase? context) := by
  refine mark_shadows fun m m' => ?_
  refine .matched h.typeCaseHead?_shadows fun found found' hfound => ?_
  cases found <;> cases found' <;> simp at hfound
  · exact .pure rfl
  · refine .matched (h.block .wide _) fun block block' hblock => ?_
    exact finished_shadows m m' fun span span' => by simp_all

theorem switchTypeStatement_shadows :
    Shadows P .wide Matches (r.switchTypeStatement context m)
      (r'.switchTypeStatement context m') := by
  refine .matched h.headExpr_shadows fun discriminant discriminant' hdiscriminant => ?_
  refine .seq (expect_shadows (by decide)) fun _ => ?_
  refine .matched (collectWhile_shadows (h.typeCase?_shadows context) h.rounds_le)
    fun cases cases' hcases => ?_
  exact .seq (expect_shadows (by decide)) fun _ =>
    finished_shadows m m' fun span span' => by simp_all

theorem switchStatement_shadows :
    Shadows P .wide Matches (r.switchStatement context) (r'.switchStatement context) := by
  refine mark_shadows fun m m' => ?_
  refine .seq next_shadows fun _ => ?_
  refine .seq (consumeContextKeyword_shadows _) fun onType => ?_
  refine .ite (h.switchTypeStatement_shadows context m m') ?_
  refine .matched h.headExpr_shadows fun discriminant discriminant' hdiscriminant => ?_
  refine .seq (expect_shadows (by decide)) fun _ => ?_
  refine .matched (h.switchCases_shadows _ h.rounds_le) fun cases cases' hcases => ?_
  exact .seq (expect_shadows (by decide)) fun _ =>
    finished_shadows m m' fun span span' => by simp_all

end Loops

section Statements

theorem blockStatements_shadows (context : Context) : ∀ {fuel fuel' : Nat}, fuel ≤ fuel' →
    Shadows P .wide Matches (r.blockStatements context fuel) (r'.blockStatements context fuel')
  | 0, _, _ => exhausted_shadows
  | fuel + 1, fuel' + 1, hle => by
    refine .seq (at?_wide _) fun closed => .ite (.pure rfl) ?_
    refine .matched (h.statement context) fun ⟨first, ended⟩ ⟨first', ended'⟩ hmatch => ?_
    obtain ⟨hfirst, rfl⟩ : Matches first first' ∧ ended = ended' := by simpa using hmatch
    refine .ite ?_ (.pure (by simp_all))
    exact .matched (blockStatements_shadows context (Nat.le_of_succ_le_succ hle))
      fun rest rest' hrest => .pure (by simp_all)

/-- What a block leaves open is closed by its brace. -/
theorem blockRule_shadows (tier : Tier) (context : Context) :
    Shadows P tier Matches (r.blockRule context) (r'.blockRule context) := by
  refine freshSuper_shadows h.layered ?_
  refine mark_shadows fun m m' => ?_
  refine .seq (expect_shadows (by decide)) fun _ => ?_
  refine .closed (h.blockStatements_shadows context h.rounds_le)
    (fun statements statements' hstatements => ?_) fun _ =>
      (expect_starves (k := .rightBrace) (by decide)).seq
  exact .seq (expect_shadows (by decide)) fun _ =>
    finished_shadows m m' fun span span' => by simp_all

theorem optExpressionStatement_shadows :
    Shadows P .wide Matches r.optExpressionStatement r'.optExpressionStatement := by
  refine .matched (h.optExprRule_shadows (Or.inr (Or.inl rfl))) fun found found' hfound => ?_
  cases found <;> cases found' <;> simp at hfound
  · exact .pure rfl
  · exact .matched (expressionStatement_shadows h.layered hfound) fun ended ended' hended =>
      .pure (by simpa using hended)

theorem superStatement_shadows (context : Context) :
    Shadows P .wide Matches (r.superStatement context) (r'.superStatement context) := by
  refine mark_shadows fun m m' => ?_
  refine .seq next_shadows fun _ => ?_
  refine .seq (consume_shadows (by decide) (Or.inl rfl)) fun called => .ite ?_ ?_
  · refine .matched h.arguments_shadows fun arguments arguments' harguments => ?_
    refine .seq (endStatement_shadows h.layered) fun ended => ?_
    refine finish_shadows m m' fun span span' => ?_
    exact .seq (noteSuper_shadows h.layered context span span') fun _ => .pure (by simp_all)
  · refine finish_shadows m m' fun span span' => ?_
    exact .matched (h.continued_shadows true (Or.inr (Or.inl rfl)) rfl) fun e e' he =>
      expressionStatement_shadows h.layered he

omit h in
theorem importParts_shadows : ∀ {fuel fuel' : Nat}, fuel ≤ fuel' →
    Shadows P .wide Matches (importParts fuel) (importParts fuel')
  | 0, _, _ => exhausted_shadows
  | fuel + 1, fuel' + 1, hle => by
    refine .seq (consume_shadows (by decide) (Or.inl rfl)) fun more => .ite ?_ (.pure rfl)
    refine .seq (consumeOperator_shadows _) fun all => .ite (.pure rfl) ?_
    refine .seq (consumeOperator_shadows _) fun allBelow => .ite (.pure rfl) ?_
    refine .matched wordIdentifier_shadows fun first first' hfirst => ?_
    refine .matched (importParts_shadows (Nat.le_of_succ_le_succ hle))
      fun ⟨rest, ending⟩ ⟨rest', ending'⟩ hrest => .pure ?_
    simp_all

omit h in
theorem importHead_shadows : Shadows P .wide Matches importHead importHead := by
  refine .matched identifier_shadows fun id id' hid => ?_
  refine .seq (at?_wide _) fun plain => .ite (.pure (by simp_all)) ?_
  refine .seq (expect_shadows (by decide)) fun _ => ?_
  refine .matched identifier_shadows fun first first' hfirst => ?_
  refine .seq (at?_wide _) fun more => ?_
  exact .optional Iff.rfl unexpected_shadows (.pure (by simp_all))

theorem importStatement_shadows :
    Shadows P .wide Matches r.importStatement r'.importStatement := by
  refine mark_shadows fun m m' => ?_
  refine .seq next_shadows fun _ => ?_
  refine .seq (consume_shadows (by decide) (Or.inl rfl)) fun onMeta => .ite ?_ ?_
  · refine .seq (expectContextKeyword_shadows _) fun _ => ?_
    refine finish_shadows m m' fun span span' => ?_
    exact .matched (h.continued_shadows true (Or.inr (Or.inl rfl)) rfl) fun e e' he =>
      expressionStatement_shadows h.layered he
  refine .matched importHead_shadows fun ⟨localName, first⟩ ⟨localName', first'⟩ hhead => ?_
  refine .matched (importParts_shadows h.rounds_le) fun ⟨rest, ending⟩ ⟨rest', ending'⟩ hparts => ?_
  obtain ⟨hrest, hending⟩ : Matches rest rest' ∧ Matches ending ending' := by simpa using hparts
  obtain rfl : ending = ending' := hending
  refine .seq (endStatement_shadows h.layered) fun ended => ?_
  exact finished_shadows m m' fun span span' => by simp_all

theorem returnStatement_shadows :
    Shadows P .wide Matches r.returnStatement r'.returnStatement := by
  refine mark_shadows fun m m' => ?_
  refine .seq next_shadows fun _ => ?_
  refine .seq (endStatement_shadows h.layered) fun ended => ?_
  refine get_shadows fun s t hst => ?_
  have rest : ∀ value value' : Option Expr, Matches value value' → Shadows P .wide Matches
      (do
        let ended ← if value.isSome then endStatement else pure ended
        return (Statement.returnValue (← finish m) value, ended))
      (do
        let ended ← if value'.isSome then endStatement else pure ended
        return (Statement.returnValue (← finish m') value', ended)) := by
    intro value value' hvalue
    have last : ∀ ended : Bool, Shadows P .wide Matches
        (finish m >>= fun span => Pure.pure (Statement.returnValue span value, ended))
        (finish m' >>= fun span => Pure.pure (Statement.returnValue span value', ended)) :=
      fun ended => finished_shadows m m' fun span span' => by simp_all
    have hgiven : value.isSome = value'.isSome := by
      cases value <;> cases value' <;> simp_all
    exact .ite_iff (by rw [hgiven]) (.seq (endStatement_shadows h.layered) last)
      (.seq (.pure rfl) last)
  rw [(hst.layout h.layered).1]
  exact .ite (.matched (h.optExpr .wide _ (Or.inr (Or.inl rfl))) rest) (.matched (.pure rfl) rest)

theorem throwStatement_shadows : Shadows P .wide Matches r.throwStatement r'.throwStatement := by
  refine mark_shadows fun m m' => ?_
  refine .seq next_shadows fun _ => ?_
  refine .matched (h.expr_shadows (Or.inr (Or.inl rfl))) fun e e' he => ?_
  refine .seq (endStatement_shadows h.layered) fun ended => ?_
  exact finished_shadows m m' fun span span' => by simp_all

theorem catchClause?_shadows (context : Context) :
    Shadows P .wide Matches (r.catchClause? context) (r'.catchClause? context) := by
  refine .seq (atKeyword?_shadows _) fun found => .ite (.pure rfl) ?_
  refine mark_shadows fun m m' => ?_
  refine .seq next_shadows fun _ => ?_
  refine .seq (expect_shadows (by decide)) fun _ => ?_
  refine .matched h.pattern_shadows fun pattern pattern' hpattern => ?_
  refine .seq (expect_shadows (by decide)) fun _ => ?_
  refine .matched (h.block .wide _) fun block block' hblock => ?_
  exact finished_shadows m m' fun span span' => by simp_all

theorem tryStatement_shadows (context : Context) :
    Shadows P .wide Matches (r.tryStatement context) (r'.tryStatement context) := by
  refine mark_shadows fun m m' => ?_
  refine .seq next_shadows fun _ => ?_
  refine .matched (h.block .wide _) fun block block' hblock => ?_
  refine .matched (collectWhile_shadows (h.catchClause?_shadows context) h.rounds_le)
    fun catches catches' hcatches => ?_
  refine .seq (consumeKeyword_shadows _) fun hasLast => ?_
  have rest : ∀ last last' : Option Block, Matches last last' → Shadows P .wide Matches
      (do
        let span ← finish m
        if catches.isEmpty && last.isNone then syntaxError .tryStatementMustveAtLeast span
        return (Statement.tryCatch span block catches last, true))
      (do
        let span ← finish m'
        if catches'.isEmpty && last'.isNone then syntaxError .tryStatementMustveAtLeast span
        return (Statement.tryCatch span block' catches' last', true)) := by
    intro last last' hlast
    have hnone : last.isNone = last'.isNone := by cases last <;> cases last' <;> simp_all
    refine finish_shadows m m' fun span span' => ?_
    exact .optional (by rw [isEmpty_of_matches hcatches, hnone]) (syntaxError_shadows _ _ _)
      (.pure (by simp_all))
  refine .ite (.matched (.map (h.block .wide _) (fun b => ⟨b, rfl⟩) fun b b' hb => ?_) rest)
    (.matched (.pure rfl) rest)
  simpa using hb

theorem useResourceStatement_shadows (context : Context) (m m' : Mark) :
    Shadows P .wide Matches (r.useResourceStatement context m)
      (r'.useResourceStatement context m') := by
  refine .seq (expect_shadows (by decide)) fun _ => ?_
  refine .matched (separatedUntil_shadows _ (h.variableBinding_shadows true) h.rounds_le)
    fun bindings bindings' hbindings => ?_
  refine .seq (expect_shadows (by decide)) fun _ => ?_
  refine .matched (h.block .wide _) fun block block' hblock => ?_
  exact finished_shadows m m' fun span span' => by simp_all

theorem useStatement_shadows (context : Context) :
    Shadows P .wide Matches (r.useStatement context) (r'.useStatement context) := by
  refine mark_shadows fun m m' => ?_
  refine .seq next_shadows fun _ => ?_
  refine .seq (consumeContextKeyword_shadows _) fun resource => ?_
  refine .ite (h.useResourceStatement_shadows context m m') ?_
  refine .seq (expectContextKeyword_shadows _) fun _ => ?_
  refine .matched (h.expr_shadows (Or.inr (Or.inl rfl))) fun e e' he => ?_
  refine .seq (endStatement_shadows h.layered) fun ended => ?_
  exact finished_shadows m m' fun span span' => by simp_all

theorem withStatement_shadows (context : Context) :
    Shadows P .wide Matches (r.withStatement context) (r'.withStatement context) := by
  refine mark_shadows fun m m' => ?_
  refine .seq next_shadows fun _ => ?_
  refine .matched h.headExpr_shadows fun object object' hobject => ?_
  exact h.nested_shadows fun body body' hbody ended =>
    finished_shadows m m' fun span span' => by simp_all

theorem includedText_shadows (path : String) (span span' : Span) :
    Shadows P .wide Eq (r.includedText path span) (r'.includedText path span') := by
  unfold includedText
  rw [h.readFile]
  cases r'.readFile path with
  | some text => exact .pure rfl
  | none => exact .seq (verifyError_shadows _ _ _) fun _ => .pure rfl

omit h in
theorem addIncluded_shadows (child : Script) :
    Shadows P .wide Eq (addIncluded child) (addIncluded child) where
  goes hst := .ok rfl (P.addIncluded hst child)
  stays hs h := by
    cases h
    exact ⟨⟨hs.kind, hs.rest, hs.notes⟩, rfl⟩

theorem includeStatement_shadows (context : Context) (m m' : Mark) (source : String) :
    Shadows P .wide Matches (r.includeStatement context m source)
      (r'.includeStatement context m' source) := by
  refine .seq next_shadows fun _ => ?_
  refine .seq (endStatement_shadows h.layered) fun ended => ?_
  refine finish_shadows m m' fun span span' => ?_
  refine get_shadows fun s t hst => ?_
  rw [hst.path]
  refine .seq (h.includedText_shadows _ span span') fun text => ?_
  refine .seq (h.included context _) fun ⟨child, statements⟩ => ?_
  exact .seq (addIncluded_shadows child) fun _ => .pure (by simp)

theorem labeledStatement_shadows (context : Context) (m m' : Mark) (label : String) :
    Shadows P .wide Matches (r.labeledStatement context m label)
      (r'.labeledStatement context m' label) :=
  h.nested_shadows fun statement statement' hstatement ended =>
    finished_shadows m m' fun span span' => by simp_all

theorem identifierStatement_shadows (context : Context) (m m' : Mark) :
    Shadows P .wide Matches (r.identifierStatement context m)
      (r'.identifierStatement context m') := by
  refine previous_shadows fun label label' hlabel => ?_
  rw [hlabel.text]
  refine .seq (consume_shadows (by decide) (Or.inl rfl)) fun labeled => ?_
  refine .ite (h.labeledStatement_shadows context m m' _) ?_
  refine get_shadows fun s t hst => ?_
  have hlike := hst.token.like
  simp only [(hst.layout h.layered).1, hlike.kind_beq (k := .string) rfl,
    hlike.kind_beq (k := .identifier) rfl, hst.previous.isContextKeyword, hlike.text,
    hst.previous.isSoftDefinition, hlike.beginsDefinition, hst.previous.modifier?]
  refine .ite (h.includeStatement_shadows context m m' _) ?_
  refine .ite (h.definition_shadows context m m' rfl) ?_
  generalize (Words.modifier? t.previous).filter _ = found
  cases found with
  | some modifier => exact h.modifiedDefinition_shadows context m m' rfl
  | none =>
    refine .matched (h.identifierPrimary_shadows true) fun first first' hfirst => ?_
    exact .matched (h.continued_shadows true (Or.inr (Or.inl rfl)) hfirst) fun e e' he =>
      expressionStatement_shadows h.layered he

theorem moreBrackets_shadows : ∀ {fuel fuel' : Nat}, fuel ≤ fuel' → ∀ {read read' : List Expr},
    Matches read read' → Shadows P .wide Matches (r.moreBrackets fuel read)
      (r'.moreBrackets fuel' read')
  | 0, _, _, _, _, _ => exhausted_shadows
  | fuel + 1, fuel' + 1, hle, read, read', hread => by
    refine get_shadows fun s t hst => ?_
    have hbracket : (s.token.kind == .leftBracket) = (t.token.kind == .leftBracket) :=
      hst.token.same (Token.asks_kind (by decide)) (Token.passing_kind rfl)
    rw [Matches.lastDecorates hread, hbracket]
    refine .ite ?_ (.pure hread)
    exact .matched (h.expr_shadows (Or.inr (Or.inl rfl))) fun e e' he =>
      moreBrackets_shadows (Nat.le_of_succ_le_succ hle) (by simp_all)

theorem bracketStatement_shadows (context : Context) (m m' : Mark) :
    Shadows P .wide Matches (r.bracketStatement context m) (r'.bracketStatement context m') := by
  refine .matched (h.exprRule_shadows (Or.inr (Or.inl rfl))) fun first first' hfirst => ?_
  refine .matched (h.moreBrackets_shadows h.rounds_le (by simp_all)) fun all all' hall => ?_
  refine token_shadows fun t t' ht => ?_
  rw [Matches.allDecorators hall, ht.like.beginsDecorated]
  refine .ite (h.modifiedDefinition_shadows context m m' ?_) ?_
  · have hdecorators := Matches.decorators hall
    simp_all
  match all, all', hall with
  | [single], [single'], hsingle =>
    exact expressionStatement_shadows h.layered (by simpa using hsingle)
  | [], [], _ =>
    exact finish_shadows m m' fun span span' => expressionStatement_shadows h.layered rfl
  | first :: second :: rest, first' :: second' :: rest', hmany =>
    exact finish_shadows m m' fun span span' =>
      expressionStatement_shadows h.layered (by simpa using hmany)
  | [], _ :: _, hno => simp at hno
  | _ :: _, [], hno => simp at hno
  | [_], _ :: _ :: _, hno => simp at hno
  | _ :: _ :: _, [_], hno => simp at hno

theorem keywordStatement_shadows (context : Context) (m m' : Mark) {t t' : Token}
    (ht : t.Like t') : Shadows P .wide Matches (r.keywordStatement context m t)
      (r'.keywordStatement context m' t') := by
  have given : ∀ {x x' : Parse Ended}, Shadows P .wide Matches x x' →
      Shadows P .wide Matches (some <$> x) (some <$> x') := fun hx =>
    .map hx (fun e => ⟨e, rfl⟩) fun e e' he => by simpa using he
  unfold keywordStatement
  rw [ht.text, ht.beginsDefinition]
  split
  · exact given (h.superStatement_shadows context)
  · exact given h.importStatement_shadows
  · exact given (h.ifStatement_shadows context)
  · exact given (h.doStatement_shadows context)
  · exact given (h.whileStatement_shadows context)
  · exact given (breakStatement_shadows h.layered context)
  · exact given (continueStatement_shadows h.layered context)
  · exact given h.returnStatement_shadows
  · exact given h.throwStatement_shadows
  · exact given (h.tryStatement_shadows context)
  · exact given (h.forStatement_shadows context)
  · exact given (h.switchStatement_shadows context)
  · exact given (h.useStatement_shadows context)
  · exact given (h.withStatement_shadows context)
  · exact .ite (given (h.modifiedDefinition_shadows context m m' rfl))
      h.optExpressionStatement_shadows

theorem optStatement_shadows (context : Context) :
    Shadows P .wide Matches (r.optStatement context) (r'.optStatement context) := by
  have given : ∀ {x x' : Parse Ended}, Shadows P .wide Matches x x' →
      Shadows P .wide Matches (some <$> x) (some <$> x') := fun hx =>
    .map hx (fun e => ⟨e, rfl⟩) fun e e' he => by simpa using he
  refine mark_shadows fun m m' => ?_
  refine token_wide fun t t' ht hkind => ?_
  rw [← hkind]
  split
  · exact h.keywordStatement_shadows context m m' ht
  · exact .seq next_shadows fun _ => given (h.identifierStatement_shadows context m m')
  · exact .matched (h.blockRule_shadows .wide _) fun block block' hblock => .pure (by simp_all)
  · exact .seq next_shadows fun _ => .pure rfl
  · exact given (h.bracketStatement_shadows context m m')
  · exact h.optExpressionStatement_shadows

theorem statementRule_shadows (context : Context) :
    Shadows P .wide Matches (r.statementRule context) (r'.statementRule context) := by
  refine .matched (h.optStatement_shadows context) fun found found' hfound => ?_
  cases found <;> cases found' <;> simp at hfound
  · exact unexpected_shadows
  · exact .pure (by simpa using hfound)

end Statements

end RulesShadow

end ActionSyntax
