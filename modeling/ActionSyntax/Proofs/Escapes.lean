import ActionSyntax.Proofs.Problems
import ActionSyntax.Proofs.Reads.Levels

/-!
Every problem at which some part of the grammar stops has been recorded in the script that is being
read, wherever it was found. An included script keeps its own.
-/

namespace ActionSyntax

set_option autoImplicit false

/-- A problem that escapes is among the problems of the script, and so are all from before. -/
def Records {α : Type} (x : Parse α) : Prop :=
  ∀ s p t, x s = .error (.problem p) t → s.script.Grows t.script ∧ p ∈ t.script.problems

theorem Setting.Reads.records {S : Setting} {n : Nat} {α : Type} {moved : α → Bool} {x : Parse α}
    (h : S.Reads n moved x) (he : S.excuse) : Records x := by
  intro s p t hx
  have hs := h s (Or.inl he)
  rw [hx] at hs
  exact ⟨hs.1.grows, hs.2.1⟩

namespace Rules

/-- The steps of the scanner. -/
structure ScannerRecords : Prop where
  next : Records Parse.next
  regularExpression : Records (Parse.scan Scanner.readRegularExpression)

/-- The rules for types. -/
structure TypesRecord (r : Rules) : Prop where
  typeExprRule : Records r.typeExprRule
  typeHead : ∀ m, Records (r.typeHead m)
  typeSuffix? : ∀ base, Records (r.typeSuffix? base)
  typeMember : ∀ m base, Records (r.typeMember m base)
  typeArguments : Records r.typeArguments
  typedIdentifier : Records r.typedIdentifier
  functionType : ∀ m, Records (r.functionType m)
  bracketType : ∀ m, Records (r.bracketType m)
  parensType : ∀ m, Records (r.parensType m)
  arrowType : ∀ m params, Records (r.arrowType m params)
  convertTypeParams : ∀ types, Records (convertTypeParams types)
  optAnnotation : Records r.optAnnotation

/-- The rules for functions and their parameters. -/
structure FunctionsRecord (r : Rules) : Prop where
  optGenerics : Records r.optGenerics
  typeBound : Records r.typeBound
  boundsClause? : ∀ generics, Records (r.boundsClause? generics)
  pattern : Records r.pattern
  asPattern : ∀ e, Records (asPattern e)
  variableBinding : ∀ allowIn, Records (r.variableBinding allowIn)
  variableDeclaration? : Records r.variableDeclaration?
  restParam : Records r.restParam
  throwsType : Records r.throwsType
  functionBody : ∀ role, Records (r.functionBody role)
  functionParts : ∀ generics role, Records (r.functionParts generics role)
  functionExpr : Records r.functionExpr
  arrowParams : ∀ expressions, Records (arrowParams expressions)
  arrowFunction : ∀ m params result, Records (r.arrowFunction m params result)

/-- The rules for expressions. -/
structure ExpressionsRecord (r : Rules) : Prop where
  exprRule : ∀ mode, Records (r.exprRule mode)
  optExprRule : ∀ mode, Records (r.optExprRule mode)
  operand? : ∀ mode, Records (r.operand? mode)
  unaryExpr : ∀ rule allowIn, Records (r.unaryExpr rule allowIn)
  continued : ∀ base allowIn level, Records (r.continued base allowIn level)
  continueWith : ∀ allowIn m base compound way,
    Records (r.continueWith allowIn m base compound way)
  optPrimaryRule : ∀ allowTyped level, Records (r.optPrimaryRule allowTyped level)
  primary : ∀ allowTyped, Records (r.primary allowTyped)
  identifierPrimary : ∀ allowTyped, Records (r.identifierPrimary allowTyped)
  simplePrimary? : ∀ m, Records (r.simplePrimary? m)
  parensPrimary : ∀ m level, Records (r.parensPrimary m level)
  arguments : Records r.arguments
  dotContinuation : ∀ m base, Records (r.dotContinuation m base)
  indexContinuation : ∀ m base optional, Records (r.indexContinuation m base optional)
  callContinuation : ∀ m base optional, Records (r.callContinuation m base optional)
  objectField : Records r.objectField
  objectInitializer : ∀ m, Records (r.objectInitializer m)
  arrayInitializer : ∀ m, Records (r.arrayInitializer m)
  newExpr : ∀ m, Records (r.newExpr m)
  nodeRule : ∀ outermost, Records (r.nodeRule outermost)
  nodeChildren : Records r.nodeChildren
  attributeValue : Records r.attributeValue

/-- The rules for definitions. -/
structure DefinitionsRecord (r : Rules) : Prop where
  modifiedDefinition : ∀ attributes context m, Records (r.modifiedDefinition attributes context m)
  definition : ∀ attributes context m, Records (r.definition attributes context m)
  variableDefinition : ∀ attributes context m readOnly,
    Records (r.variableDefinition attributes context m readOnly)
  functionDefinition : ∀ attributes context m, Records (r.functionDefinition attributes context m)
  accessorDefinition : ∀ attributes context m id isGetter,
    Records (r.accessorDefinition attributes context m id isGetter)
  constructorDefinition : ∀ attributes m id, Records (r.constructorDefinition attributes m id)
  proxyDefinition : ∀ attributes context m id,
    Records (r.proxyDefinition attributes context m id)
  namespaceDefinition : ∀ attributes context m,
    Records (r.namespaceDefinition attributes context m)
  classDefinition : ∀ attributes context m, Records (r.classDefinition attributes context m)
  interfaceDefinition : ∀ attributes context m,
    Records (r.interfaceDefinition attributes context m)
  enumDefinition : ∀ attributes context m, Records (r.enumDefinition attributes context m)
  typeDefinition : ∀ attributes context m, Records (r.typeDefinition attributes context m)

/-- The rules for statements, and for scripts that are read in place. -/
structure StatementsRecord (r : Rules) : Prop where
  program : Records r.program
  statementRule : ∀ context, Records (r.statementRule context)
  optStatement : ∀ context, Records (r.optStatement context)
  identifierStatement : ∀ context m, Records (r.identifierStatement context m)
  includeStatement : ∀ context m source, Records (r.includeStatement context m source)
  includeScript : ∀ context script, Records (r.includeScript context script)
  bracketStatement : ∀ context m, Records (r.bracketStatement context m)
  blockRule : ∀ context, Records (r.blockRule context)
  superStatement : ∀ context, Records (r.superStatement context)
  importStatement : Records r.importStatement
  ifStatement : ∀ context, Records (r.ifStatement context)
  doStatement : ∀ context, Records (r.doStatement context)
  whileStatement : ∀ context, Records (r.whileStatement context)
  breakStatement : ∀ context, Records (breakStatement context)
  continueStatement : ∀ context, Records (continueStatement context)
  returnStatement : Records r.returnStatement
  throwStatement : Records r.throwStatement
  tryStatement : ∀ context, Records (r.tryStatement context)
  forStatement : ∀ context, Records (r.forStatement context)
  switchStatement : ∀ context, Records (r.switchStatement context)
  useStatement : ∀ context, Records (r.useStatement context)
  withStatement : ∀ context, Records (r.withStatement context)

/-- Every part of the grammar records the problems that escape it. -/
structure AllRecord (r : Rules) : Prop where
  scanner : ScannerRecords
  types : r.TypesRecord
  functions : r.FunctionsRecord
  expressions : r.ExpressionsRecord
  definitions : r.DefinitionsRecord
  statements : r.StatementsRecord

end Rules

theorem Rules.scannerRecords : ScannerRecords where
  next := by
    intro s p t hx
    have hs := Setting.next_ends (S := .lenient fun _ => none) s
    rw [hx] at hs
    exact ⟨hs.1.grows, hs.2.1⟩
  regularExpression := by
    intro s p t hx
    have hgrows := (Step.advanceRegular s).grows
    rw [Parse.scanRegular_apply] at hx
    rcases hread : s.scanner.readRegularExpression.1 with problem | ⟨⟩
    · rw [hread] at hx
      cases hx
      exact ⟨hgrows, (s.advanceRegular_has hread).1⟩
    · rw [hread] at hx
      cases hx

/-- A problem that stops an included script does not get out of it. -/
theorem Rules.includeScript_records (r : Rules) (context : Context) (script : Script) :
    Records (r.includeScript context script) := by
  intro s p t hx
  unfold includeScript at hx
  dsimp only at hx
  split at hx <;> cases hx

namespace Setting.Sound

open Rules

variable {S : Setting} {r : Rules} {n : Nat}

theorem types_record (h : S.Sound n r) (he : S.excuse) : r.TypesRecord where
  typeExprRule := h.typeExprRule_reads.records he
  typeHead m := (h.typeHead_reads m).records he
  typeSuffix? base := (h.typeSuffix?_reads base).records he
  typeMember m base := (h.typeMember_reads m base).records he
  typeArguments := h.typeArguments_reads.records he
  typedIdentifier := h.typedIdentifier_reads.records he
  functionType m := (h.functionType_reads m).records he
  bracketType m := (h.bracketType_reads m).records he
  parensType m := (h.parensType_reads m).records he
  arrowType m params := (h.arrowType_reads m params).records he
  convertTypeParams types := (convertTypeParams_reads (n := n) types).records he
  optAnnotation := h.optAnnotation_reads.records he

theorem functions_record (h : S.Sound n r) (he : S.excuse) : r.FunctionsRecord where
  optGenerics := h.optGenerics_reads.records he
  typeBound := h.typeBound_reads.records he
  boundsClause? generics := (h.boundsClause?_reads generics).records he
  pattern := h.pattern_reads.records he
  asPattern e := (asPattern_reads (n := n) e).records he
  variableBinding allowIn := (h.variableBinding_reads allowIn).records he
  variableDeclaration? := h.variableDeclaration?_reads.records he
  restParam := h.restParam_reads.records he
  throwsType := h.throwsType_reads.records he
  functionBody role := (h.functionBody_reads role).records he
  functionParts generics role := (h.functionParts_reads generics role).records he
  functionExpr := h.functionExpr_reads.records he
  arrowParams expressions := (arrowParams_reads (n := n) expressions).records he
  arrowFunction m params result := (h.arrowFunction_reads m params result).records he

theorem expressions_record (h : S.Sound n r) (he : S.excuse) : r.ExpressionsRecord where
  exprRule mode := (h.exprRule_reads mode).records he
  optExprRule mode := (h.optExprRule_reads mode).records he
  operand? mode := (h.operand?_reads mode).records he
  unaryExpr rule allowIn := (h.unaryExpr_begins rule allowIn).reads.records he
  continued base allowIn level := (h.continued_reads base allowIn level).records he
  continueWith allowIn m base compound way :=
    (h.continueWith_reads allowIn m base compound way).records he
  optPrimaryRule allowTyped level := (h.optPrimaryRule_reads allowTyped level).records he
  primary allowTyped := (h.primary_reads allowTyped).records he
  identifierPrimary allowTyped := (h.identifierPrimary_reads allowTyped).records he
  simplePrimary? m := (h.simplePrimary?_reads m).records he
  parensPrimary m level := (h.parensPrimary_reads m level).records he
  arguments := h.arguments_reads.records he
  dotContinuation m base := (h.dotContinuation_reads m base).records he
  indexContinuation m base optional := (h.indexContinuation_reads m base optional).records he
  callContinuation m base optional := (h.callContinuation_reads m base optional).records he
  objectField := h.objectField_reads.records he
  objectInitializer m := (h.objectInitializer_reads m).records he
  arrayInitializer m := (h.arrayInitializer_reads m).records he
  newExpr m := (h.newExpr_reads m).records he
  nodeRule outermost := (h.nodeRule_reads outermost).records he
  nodeChildren := h.nodeChildren_reads.records he
  attributeValue := h.attributeValue_reads.records he

theorem definitions_record (h : S.Sound n r) (he : S.excuse) : r.DefinitionsRecord where
  modifiedDefinition attributes context m :=
    (h.modifiedDefinition_reads attributes context m).records he
  definition attributes context m := (h.definition_reads attributes context m).records he
  variableDefinition attributes context m readOnly :=
    (h.variableDefinition_reads attributes context m readOnly).records he
  functionDefinition attributes context m :=
    (h.functionDefinition_reads attributes context m).records he
  accessorDefinition attributes context m id isGetter :=
    (h.accessorDefinition_reads attributes context m id isGetter).records he
  constructorDefinition attributes m id := (h.constructorDefinition_reads attributes m id).records he
  proxyDefinition attributes context m id :=
    (h.proxyDefinition_reads attributes context m id).records he
  namespaceDefinition attributes context m :=
    (h.namespaceDefinition_reads attributes context m).records he
  classDefinition attributes context m := (h.classDefinition_reads attributes context m).records he
  interfaceDefinition attributes context m :=
    (h.interfaceDefinition_reads attributes context m).records he
  enumDefinition attributes context m := (h.enumDefinition_reads attributes context m).records he
  typeDefinition attributes context m := (h.typeDefinition_reads attributes context m).records he

theorem statements_record (h : S.Sound n r) (he : S.excuse) : r.StatementsRecord where
  program := h.program_reads.records he
  statementRule context := (h.statementRule_reads context).records he
  optStatement context := (h.optStatement_reads context).records he
  identifierStatement context m := (h.identifierStatement_reads context m).records he
  includeStatement context m source :=
    (h.includeStatement_reads context m source).records he
  includeScript := includeScript_records r
  bracketStatement context m := (h.bracketStatement_reads context m).records he
  blockRule context := (h.blockRule_reads context).records he
  superStatement context := (h.superStatement_begins context).reads.records he
  importStatement := h.importStatement_begins.reads.records he
  ifStatement context := (h.ifStatement_begins context).reads.records he
  doStatement context := (h.doStatement_begins context).reads.records he
  whileStatement context := (h.whileStatement_begins context).reads.records he
  breakStatement context := (breakStatement_begins (n := n) context).reads.records he
  continueStatement context := (continueStatement_begins (n := n) context).reads.records he
  returnStatement := h.returnStatement_begins.reads.records he
  throwStatement := h.throwStatement_begins.reads.records he
  tryStatement context := (h.tryStatement_begins context).reads.records he
  forStatement context := (h.forStatement_begins context).reads.records he
  switchStatement context := (h.switchStatement_begins context).reads.records he
  useStatement context := (h.useStatement_begins context).reads.records he
  withStatement context := (h.withStatement_begins context).reads.records he

end Setting.Sound

theorem Rules.level_records (readFile : String → Option String) (depth n : Nat) :
    (level readFile (includeAt readFile depth) n).AllRecord := by
  have h := Setting.lenient_sound readFile depth n
  exact {
    scanner := scannerRecords
    types := h.types_record trivial
    functions := h.functions_record trivial
    expressions := h.expressions_record trivial
    definitions := h.definitions_record trivial
    statements := h.statements_record trivial }

end ActionSyntax
