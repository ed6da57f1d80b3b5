import ActionSyntax.Grammar.Levels
import ActionSyntax.Proofs.Frames.Expressions

/-!
Definitions, statements and included scripts with one more function around all others.
-/

namespace ActionSyntax

set_option autoImplicit false
set_option synthInstance.maxSize 20000
set_option synthInstance.maxHeartbeats 400000

open Parse Rules

namespace Framed

variable {layer : Layer} [layer.Above] {r : Rules} [hr : FramedRules r]

section Definitions

omit hr in
instance definitionAttributes (fuel : Nat) :
    ∀ attributes, Framed layer (Rules.definitionAttributes fuel attributes) := by
  induction fuel with
  | zero => exact fun _ => exhausted
  | succ fuel hmore =>
    intro attributes
    have hword : ∀ s : ParserState, Framed layer (match Words.modifier? s.token, Words.access? s.token with
        | some m, _ => do
          Parse.next
          Rules.definitionAttributes fuel { attributes with modifiers := attributes.modifiers.insert m }
        | none, some access => do
          Parse.next
          Rules.definitionAttributes fuel { attributes with access := some access }
        | none, none => return attributes) := by
      intro s
      split <;> infer_instance
    exact get (fun _ _ => rfl) fun _ => inferInstance

omit hr in
instance restrictModifiers (span : Span) (actual : Modifiers) (restricted : List Modifier) :
    Framed layer (Rules.restrictModifiers span actual restricted) := forM _

omit hr in
instance checkContext (allowed : Bool) (span : Span) : Framed layer (Rules.checkContext allowed span) := by
  unfold Rules.checkContext
  infer_instance

omit hr in
instance checkBody (attributes : Attributes) (common : FunctionCommon) (id : Identifier) :
    Framed layer (Rules.checkBody attributes common id) := by
  unfold Rules.checkBody
  infer_instance

omit hr in
instance checkMethod (attributes : Attributes) (context : Context) (common : FunctionCommon)
    (id : Identifier) : Framed layer (Rules.checkMethod attributes context common id) := by
  unfold Rules.checkMethod
  infer_instance

omit hr in
instance checkUses (common : FunctionCommon) (id : Identifier) (mayYield : Bool) :
    Framed layer (Rules.checkUses common id mayYield) := by
  unfold Rules.checkUses
  infer_instance

instance definedBinding (isVariant : Bool) : Framed layer (r.definedBinding isVariant) := by
  unfold Rules.definedBinding
  infer_instance

instance variableDefinition (attributes : Attributes) (context : Context) (m : Mark) (readOnly : Bool) :
    Framed layer (r.variableDefinition attributes context m readOnly) := by
  unfold Rules.variableDefinition
  infer_instance

instance constructorDefinition (attributes : Attributes) (m : Mark) (id : Identifier) :
    Framed layer (r.constructorDefinition attributes m id) := by
  unfold Rules.constructorDefinition
  infer_instance

instance accessorDefinition (attributes : Attributes) (context : Context) (m : Mark) (id : Identifier)
    (isGetter : Bool) : Framed layer (r.accessorDefinition attributes context m id isGetter) := by
  unfold Rules.accessorDefinition
  infer_instance

omit hr in
instance checkProxy (attributes : Attributes) (context : Context) (common : FunctionCommon)
    (id : Identifier) (op : Operator) : Framed layer (Rules.checkProxy attributes context common id op) := by
  unfold Rules.checkProxy
  infer_instance

instance proxyDefinition (attributes : Attributes) (context : Context) (m : Mark) (id : Identifier) :
    Framed layer (r.proxyDefinition attributes context m id) := by
  refine seq (q := fun parts => seq (q := fun span => ?_))
  split <;> infer_instance

instance functionDefinition (attributes : Attributes) (context : Context) (m : Mark) :
    Framed layer (r.functionDefinition attributes context m) := by
  unfold Rules.functionDefinition
  infer_instance

instance namespaceAlias (attributes : Attributes) (context : Context) (m : Mark) (id : Identifier) :
    Framed layer (r.namespaceAlias attributes context m id) := by
  unfold Rules.namespaceAlias
  infer_instance

instance namespaceDefinition (attributes : Attributes) (context : Context) (m : Mark) :
    Framed .statement (r.namespaceDefinition attributes context m) := by
  unfold Rules.namespaceDefinition
  infer_instance

instance classHeritage (fuel : Nat) : ∀ h, Framed layer (r.classHeritage fuel h) := by
  induction fuel with
  | zero => exact fun _ => exhausted
  | succ fuel hmore =>
    intro h
    have hbounds : Framed layer (r.boundsClause? h.generics >>= fun
        | some generics => r.classHeritage fuel { h with generics := some generics }
        | none => Pure.pure h) := option (fun _ => hmore _) pure
    unfold Rules.classHeritage
    infer_instance

instance classDefinition (attributes : Attributes) (context : Context) (m : Mark) :
    Framed .statement (r.classDefinition attributes context m) := by
  unfold Rules.classDefinition
  infer_instance

instance interfaceHeritage (fuel : Nat) : ∀ h, Framed layer (r.interfaceHeritage fuel h) := by
  induction fuel with
  | zero => exact fun _ => exhausted
  | succ fuel hmore =>
    intro h
    have hbounds : Framed layer (r.boundsClause? h.generics >>= fun
        | some generics => r.interfaceHeritage fuel { h with generics := some generics }
        | none => Pure.pure h) := option (fun _ => hmore _) pure
    unfold Rules.interfaceHeritage
    infer_instance

instance interfaceDefinition (attributes : Attributes) (context : Context) (m : Mark) :
    Framed .statement (r.interfaceDefinition attributes context m) := by
  unfold Rules.interfaceDefinition
  infer_instance

instance enumDefinition (attributes : Attributes) (context : Context) (m : Mark) :
    Framed .statement (r.enumDefinition attributes context m) := by
  unfold Rules.enumDefinition
  infer_instance

instance boundsClauses (fuel : Nat) : ∀ generics, Framed layer (r.boundsClauses fuel generics) := by
  induction fuel with
  | zero => exact fun _ => exhausted
  | succ fuel hmore =>
    intro generics
    exact option (fun _ => hmore _) pure

instance typeDefinition (attributes : Attributes) (context : Context) (m : Mark) :
    Framed layer (r.typeDefinition attributes context m) := by
  unfold Rules.typeDefinition
  infer_instance

instance definition (attributes : Attributes) (context : Context) (m : Mark) :
    Framed .statement (r.definition attributes context m) := by
  unfold Rules.definition
  infer_instance

instance modifiedDefinition (attributes : Attributes) (context : Context) (m : Mark) :
    Framed .statement (r.modifiedDefinition attributes context m) := by
  unfold Rules.modifiedDefinition
  infer_instance

end Definitions

section Loops

omit hr in
instance jump : Framed layer Rules.jump :=
  seq (q := fun _ => seq (q := fun _ => get (fun _ _ => rfl) fun _ => inferInstance))

omit hr in
instance checkJump (context : Context) (j : Jump) (legal : Bool) (id : ProblemId) :
    Framed layer (Rules.checkJump context j legal id) := by
  unfold Rules.checkJump
  split <;> infer_instance

omit hr in
instance breakStatement (context : Context) : Framed layer (Rules.breakStatement context) := by
  unfold Rules.breakStatement
  infer_instance

omit hr in
instance continueStatement (context : Context) : Framed layer (Rules.continueStatement context) := by
  unfold Rules.continueStatement
  infer_instance

instance headExpr : Framed layer r.headExpr := by
  unfold Rules.headExpr
  infer_instance

instance ifStatement (context : Context) : Framed .statement (r.ifStatement context) := by
  unfold Rules.ifStatement
  infer_instance

instance doStatement (context : Context) : Framed .statement (r.doStatement context) := by
  unfold Rules.doStatement
  infer_instance

instance whileStatement (context : Context) : Framed .statement (r.whileStatement context) := by
  unfold Rules.whileStatement
  infer_instance

instance forInStatement (context : Context) (m : Mark) (iteratesKeys : Bool) (left : ForBinding) :
    Framed .statement (r.forInStatement context m iteratesKeys left) := by
  unfold Rules.forInStatement
  split <;> infer_instance

instance eachBinding : Framed layer r.eachBinding :=
  option (fun _ => inferInstance) inferInstance

instance forEachStatement (context : Context) (m : Mark) :
    Framed .statement (r.forEachStatement context m) := by
  unfold Rules.forEachStatement
  infer_instance

instance forHead : Framed layer r.forHead :=
  option (fun _ => inferInstance) (option (fun _ => inferInstance) inferInstance)

instance forInit (binding : ForBinding) : Framed layer (r.forInit binding) := by
  cases binding <;> (unfold Rules.forInit; infer_instance)

instance forRest (context : Context) (m : Mark) (init : Option ForBinding) :
    Framed .statement (r.forRest context m init) := by
  unfold Rules.forRest
  infer_instance

instance forStatement (context : Context) : Framed .statement (r.forStatement context) := by
  refine seq (q := fun m => seq (q := fun _ => seq (q := fun _ => ite (q := ?_))))
  exact seq (q := fun _ => option (fun _ => inferInstance) inferInstance)

instance caseStatements (context : Context) (fuel : Nat) :
    Framed .statement (r.caseStatements context fuel) := by
  induction fuel with
  | zero => exact exhausted
  | succ fuel hmore =>
    unfold Rules.caseStatements
    infer_instance

instance caseTest : Framed layer r.caseTest := by
  unfold Rules.caseTest
  infer_instance

instance switchCases (context : Context) (fuel : Nat) : Framed .statement (r.switchCases context fuel) := by
  induction fuel with
  | zero => exact exhausted
  | succ fuel hmore =>
    unfold Rules.switchCases
    infer_instance

instance typeCaseHead? : Framed layer r.typeCaseHead? := by
  unfold Rules.typeCaseHead?
  infer_instance

instance typeCase? (context : Context) : Framed .statement (r.typeCase? context) :=
  seq (q := fun _ => option (fun _ => inferInstance) inferInstance)

instance switchTypeStatement (context : Context) (m : Mark) :
    Framed .statement (r.switchTypeStatement context m) := by
  unfold Rules.switchTypeStatement
  infer_instance

instance switchStatement (context : Context) : Framed .statement (r.switchStatement context) := by
  unfold Rules.switchStatement
  infer_instance

end Loops

section Statements

instance blockStatements (context : Context) (fuel : Nat) :
    Framed .statement (r.blockStatements context fuel) := by
  induction fuel with
  | zero => exact exhausted
  | succ fuel hmore =>
    unfold Rules.blockStatements
    infer_instance

theorem blockRule (hlayer : layer ≠ .expression) (context : Context) : Framed layer (r.blockRule context) :=
  freshSuper hlayer inferInstance

omit hr in
instance expressionStatement (e : Expr) : Framed layer (Rules.expressionStatement e) := by
  unfold Rules.expressionStatement
  infer_instance

instance optExpressionStatement : Framed layer r.optExpressionStatement :=
  option (fun _ => inferInstance) pure

omit hr in
/-- Calls of the super constructor are noted apart from functions. -/
instance noteSuper (context : Context) (span : Span) : Framed .statement (Rules.noteSuper context span) where
  keeps s := by
    unfold Rules.noteSuper
    rw [get_bind]
    split
    · have hreport : Framed .statement (Parse.syntaxError .unexpectedSuperStatement span) := inferInstance
      exact hreport.keeps s
    · exact ⟨Nat.le_refl _, id, fun hne => absurd rfl hne, fun htype => absurd htype (by decide)⟩
  framed s use _ huse := by
    refine Or.inl ⟨use, huse, ?_⟩
    unfold Rules.noteSuper
    rw [get_bind, get_bind]
    show (if (!context.isConstructor || s.superFound) = true then _ else _ : Parse Unit) (s.around use) = _
    split <;> rfl

instance superStatement (context : Context) : Framed .statement (r.superStatement context) := by
  unfold Rules.superStatement
  infer_instance

omit hr in
instance importParts (fuel : Nat) : Framed layer (Rules.importParts fuel) := by
  induction fuel with
  | zero => exact exhausted
  | succ fuel hmore =>
    unfold Rules.importParts
    infer_instance

omit hr in
instance importHead : Framed layer Rules.importHead := by
  unfold Rules.importHead
  infer_instance

instance importStatement : Framed layer r.importStatement := by
  unfold Rules.importStatement
  infer_instance

instance returnStatement : Framed layer r.returnStatement :=
  seq (q := fun _ => seq (q := fun _ => seq (q := fun _ =>
    get (fun _ _ => rfl) fun _ => inferInstance)))

instance throwStatement : Framed layer r.throwStatement := by
  unfold Rules.throwStatement
  infer_instance

instance catchClause? (context : Context) : Framed .statement (r.catchClause? context) := by
  unfold Rules.catchClause?
  infer_instance

instance tryStatement (context : Context) : Framed .statement (r.tryStatement context) := by
  unfold Rules.tryStatement
  infer_instance

instance useResourceStatement (context : Context) (m : Mark) :
    Framed .statement (r.useResourceStatement context m) := by
  unfold Rules.useResourceStatement
  infer_instance

instance useStatement (context : Context) : Framed .statement (r.useStatement context) := by
  unfold Rules.useStatement
  infer_instance

instance withStatement (context : Context) : Framed .statement (r.withStatement context) := by
  unfold Rules.withStatement
  infer_instance

omit hr in
instance includedText (path : String) (span : Span) : Framed layer (r.includedText path span) := by
  unfold Rules.includedText
  split <;> infer_instance

omit hr in
instance addIncluded (child : Script) : Framed layer (Rules.addIncluded child) :=
  of_blind (fun _ => ⟨Nat.le_refl _, id, fun _ => rfl, fun _ => rfl⟩) fun _ _ => rfl

instance includeStatement (context : Context) (m : Mark) (source : String) :
    Framed .statement (r.includeStatement context m source) :=
  seq (q := fun _ => seq (q := fun _ => seq (q := fun _ =>
    get (fun _ _ => rfl) fun _ => inferInstance)))

instance labeledStatement (context : Context) (m : Mark) (label : String) :
    Framed .statement (r.labeledStatement context m label) := by
  unfold Rules.labeledStatement
  infer_instance

instance identifierStatement (context : Context) (m : Mark) :
    Framed .statement (r.identifierStatement context m) := by
  refine seq (q := fun _ => seq (q := fun _ => ite (q := get (fun _ _ => rfl) fun s => ?_)))
  dsimp only
  split
  · infer_instance
  split
  · infer_instance
  split <;> infer_instance

instance moreBrackets (fuel : Nat) : ∀ read, Framed layer (r.moreBrackets fuel read) := by
  induction fuel with
  | zero => exact fun _ => exhausted
  | succ fuel hmore =>
    intro read
    exact get (fun _ _ => rfl) fun _ => inferInstance

instance bracketStatement (context : Context) (m : Mark) :
    Framed .statement (r.bracketStatement context m) := by
  refine seq (q := fun first => seq (q := fun all => seq (q := fun t => ite (q := ?_))))
  split <;> infer_instance

instance keywordStatement (context : Context) (m : Mark) (t : Token) :
    Framed .statement (r.keywordStatement context m t) := by
  unfold Rules.keywordStatement
  split <;> infer_instance

instance optStatement (context : Context) : Framed .statement (r.optStatement context) := by
  have hblock : Framed .statement (r.blockRule context.nested) := blockRule (by decide) context.nested
  refine seq (q := fun _ => seq (q := fun _ => ?_))
  split <;> infer_instance

instance statementRule (context : Context) : Framed .statement (r.statementRule context) :=
  option (fun _ => pure) unexpected

end Statements

end Framed

section Levels

/-- Where there are functions, the same is read. -/
theorem Framed.exact {layer : Layer} {α : Type} {x : Parse α} (h : Framed layer x) {s : ParserState}
    {use : FunctionUse} (hs : s.functions ≠ []) (huse : use.usesYield = false) :
    ∃ use', use'.usesYield = false ∧ x (s.around use) = Ending.around use' (x s) :=
  (h.framed s use (Or.inr hs) huse).resolve_right fun hspoiled => hs hspoiled.1

variable {r : Rules} [hr : FramedRules r]

/-- No function is left that was there before an included script. -/
theorem Rules.includedStatements_height (context : Context) : ∀ (fuel : Nat) (read : List Statement)
    (s : ParserState),
    s.functions.length ≤ (includedStatements r context fuel read s).state.functions.length
  | 0, _, _ => Nat.le_refl _
  | fuel + 1, read, s => by
    have hkeeps := (hr.statement context).keeps s
    unfold includedStatements
    split
    · exact Nat.le_refl _
    cases hread : r.statement context s with
    | error stop t =>
      rw [hread] at hkeeps
      exact hkeeps.height
    | ok found t =>
      rw [hread] at hkeeps
      obtain ⟨statement, ended⟩ := found
      cases ended with
      | true => exact hkeeps.height.trans (includedStatements_height context fuel (statement :: read) t)
      | false =>
        have hkeeps' := (inferInstance : Framed .statement expectEnd).keeps t
        dsimp only
        cases hend : expectEnd t <;> (rw [hend] at hkeeps'; exact hkeeps.height.trans hkeeps'.height)

/-- The statements of an included script are the same with one more function around all others. -/
theorem Rules.includedStatements_around (context : Context) : ∀ (fuel : Nat) (read : List Statement)
    {s : ParserState} {use : FunctionUse}, s.functions ≠ [] → use.usesYield = false →
      ∃ use', use'.usesYield = false ∧ includedStatements r context fuel read (s.around use) =
        { includedStatements r context fuel read s with
          state := (includedStatements r context fuel read s).state.around use' }
  | 0, _, s, use, _, huse => ⟨use, huse, rfl⟩
  | fuel + 1, read, s, use, hs, huse => by
    have hkeeps := (hr.statement context).keeps s
    obtain ⟨use', hquiet, hread'⟩ := (hr.statement context).exact hs huse
    have htoken : (s.around use).token = s.token := rfl
    unfold includedStatements
    rw [htoken, hread']
    split
    · exact ⟨use, huse, rfl⟩
    cases hread : r.statement context s with
    | error stop t => exact ⟨use', hquiet, rfl⟩
    | ok found t =>
      rw [hread] at hkeeps
      have ht : t.functions ≠ [] := fun hnil => hs (hkeeps.nil hnil)
      obtain ⟨statement, ended⟩ := found
      cases ended with
      | true => exact includedStatements_around context fuel (statement :: read) ht hquiet
      | false =>
        obtain ⟨use'', hquiet', hend'⟩ := (inferInstance : Framed .statement expectEnd).exact ht hquiet
        dsimp only [Ending.around]
        rw [hend']
        cases expectEnd t <;> exact ⟨use'', hquiet', rfl⟩

theorem Rules.includedOutcome_height (context : Context) (s : ParserState) :
    s.functions.length ≤ (includedOutcome r context s).state.functions.length := by
  have hscan : Framed .statement (Parse.scan Scanner.next) := Framed.scan fun s => s.next_grows.valid
  have hkeeps := hscan.keeps s
  unfold includedOutcome
  cases hread : Parse.scan Scanner.next s with
  | error stop t =>
    rw [hread] at hkeeps
    exact hkeeps.height
  | ok _ t =>
    rw [hread] at hkeeps
    exact hkeeps.height.trans (includedStatements_height context _ [] t)

theorem Rules.includedOutcome_around (context : Context) {s : ParserState} {use : FunctionUse}
    (hs : s.functions ≠ []) (huse : use.usesYield = false) :
    ∃ use', use'.usesYield = false ∧ includedOutcome r context (s.around use) =
      { includedOutcome r context s with state := (includedOutcome r context s).state.around use' } := by
  have hscan : Framed .statement (Parse.scan Scanner.next) := .scan fun s => s.next_grows.valid
  have hkeeps := hscan.keeps s
  obtain ⟨use', hquiet, hread'⟩ := hscan.exact hs huse
  unfold includedOutcome
  rw [hread']
  cases hread : Parse.scan Scanner.next s with
  | error stop t => exact ⟨use', hquiet, rfl⟩
  | ok _ t =>
    rw [hread] at hkeeps
    exact includedStatements_around context _ [] (fun hnil => hs (hkeeps.nil hnil)) hquiet

/-- What comes of an included script for the one that includes it. -/
def Rules.handedOver (s : ParserState) (outcome : Rules.Outcome) :
    EStateM.Result Stop ParserState (Script × List Statement) :=
  match outcome.stop with
  | some .exhausted => .error .exhausted (s.outside outcome.state)
  | _ => .ok (outcome.state.script, outcome.statements.reverse) (s.outside outcome.state)

theorem Rules.handedOver_state (s : ParserState) (outcome : Rules.Outcome) :
    Ending.state (handedOver s outcome) = s.outside outcome.state := by
  unfold handedOver
  split <;> rfl

theorem Rules.handedOver_around (s : ParserState) (outcome : Rules.Outcome) (use use' : FunctionUse) :
    handedOver (s.around use) { outcome with state := outcome.state.around use' } =
      Ending.around use' (handedOver s outcome) := by
  obtain ⟨statements, stop, state⟩ := outcome
  rcases stop with _ | _ | _ <;> rfl

/-- An included script is read with the functions around its inclusion. -/
theorem Rules.includeScript_framed (context : Context) (script : Script) :
    Framed .statement (r.includeScript context script) where
  keeps s := by
    have hheight := includedOutcome_height (r := r) context (s.inside script)
    show Layer.statement.Keeps s (Ending.state (handedOver s (includedOutcome r context (s.inside script))))
    rw [handedOver_state]
    exact ⟨hheight, id, fun hne => absurd rfl hne, nofun⟩
  framed s use hs huse := by
    have hs : s.functions ≠ [] := hs.resolve_left (by decide)
    obtain ⟨use', hquiet, houtcome⟩ :=
      includedOutcome_around (r := r) context (s := s.inside script) hs huse
    refine Or.inl ⟨use', hquiet, ?_⟩
    show handedOver (s.around use) (includedOutcome r context ((s.inside script).around use)) = _
    rw [houtcome]
    exact handedOver_around s _ use use'

section

variable (readFile : String → Option String) {included : IncludeRule}

theorem Rules.level_framed (hincluded : ∀ context script, Framed .statement (included context script)) :
    ∀ n, FramedRules (level readFile included n)
  | 0 =>
    { typeExpr := fun _ => .exhausted
      optExpr := fun _ _ _ => .exhausted
      optPrimary := fun _ _ _ _ => .exhausted
      node := fun _ _ => .exhausted
      block := fun _ _ _ _ => .exhausted
      statement := fun _ => .exhausted
      included := hincluded }
  | n + 1 =>
    have h := level_framed hincluded n
    { typeExpr := fun _ => .typeExprRule
      optExpr := fun _ _ mode => .optExprRule mode
      optPrimary := fun _ _ allowTyped level => .optPrimaryRule allowTyped level
      node := fun _ _ => .nodeRule false
      block := fun _ _ context hlayer => .blockRule hlayer context
      statement := .statementRule
      included := h.included }

theorem Rules.includeAt_framed : ∀ (depth : Nat) (context : Context) (script : Script),
    Framed .statement (includeAt readFile depth context script)
  | 0, _, _ => .exhausted
  | depth + 1, context, script =>
    have := level_framed readFile (includeAt_framed depth) (levelFor script)
    includeScript_framed context script

instance (depth n : Nat) : FramedRules (level readFile (includeAt readFile depth) n) :=
  Rules.level_framed readFile (Rules.includeAt_framed readFile depth) n

end

end Levels

end ActionSyntax
