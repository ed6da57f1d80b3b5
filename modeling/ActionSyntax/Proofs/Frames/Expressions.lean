import ActionSyntax.Grammar.Expressions
import ActionSyntax.Proofs.Frames.Contract

/-!
Types, functions and expressions with one more function around all others.
-/

namespace ActionSyntax

set_option autoImplicit false
set_option synthInstance.maxSize 20000
set_option synthInstance.maxHeartbeats 400000

open Parse Rules

/-- Each of the rules reads in the same way with one more function around all others. -/
class FramedRules (r : Rules) : Prop where
  typeExpr : ∀ layer, Framed layer r.typeExpr
  optExpr : ∀ (layer : Layer) [layer.Above] mode, Framed layer (r.optExpr mode)
  optPrimary : ∀ (layer : Layer) [layer.Above] allowTyped level,
    Framed layer (r.optPrimary allowTyped level)
  node : ∀ (layer : Layer) [layer.Above], Framed layer r.node
  block : ∀ (layer : Layer) [layer.Above] context, layer ≠ .expression → Framed layer (r.block context)
  statement : ∀ context, Framed .statement (r.statement context)
  included : ∀ context script, Framed .statement (r.included context script)

namespace Framed

variable {layer : Layer} {r : Rules} [hr : FramedRules r]

section Rules

instance typeExpr : Framed layer r.typeExpr := hr.typeExpr layer

instance optAnnotation : Framed layer r.optAnnotation := by
  unfold Rules.optAnnotation
  infer_instance

variable [layer.Above]

instance optExpr (mode : ExprMode) : Framed layer (r.optExpr mode) := hr.optExpr layer mode

instance optPrimary (allowTyped : Bool) (level : Precedence) :
    Framed layer (r.optPrimary allowTyped level) := hr.optPrimary layer allowTyped level

instance node : Framed layer r.node := hr.node layer

instance block_body (context : Context) : Framed .body (r.block context) := hr.block _ context (by decide)

instance block_statement (context : Context) : Framed .statement (r.block context) :=
  hr.block _ context (by decide)

instance statement (context : Context) : Framed .statement (r.statement context) :=
  hr.statement context

instance included (context : Context) (script : Script) : Framed .statement (r.included context script) :=
  hr.included context script

instance expr (mode : ExprMode) : Framed layer (r.expr mode) :=
  option (fun _ => pure) unexpected

instance assignmentExpr (allowIn : Bool) : Framed layer (r.assignmentExpr allowIn) := expr _

end Rules

section Types

instance typedIdentifierFrom (m : Mark) (name : String) : Framed layer (r.typedIdentifierFrom m name) := by
  unfold Rules.typedIdentifierFrom
  infer_instance

instance typedIdentifier : Framed layer r.typedIdentifier := by
  unfold Rules.typedIdentifier
  infer_instance

instance typeArguments : Framed layer r.typeArguments := by
  unfold Rules.typeArguments
  infer_instance

instance functionTypeParam : Framed layer r.functionTypeParam := by
  unfold Rules.functionTypeParam
  infer_instance

instance functionTypeParams (fuel : Nat) : ∀ params, Framed layer (r.functionTypeParams fuel params) := by
  induction fuel with
  | zero => exact fun _ => exhausted
  | succ fuel hmore =>
    intro params
    unfold Rules.functionTypeParams
    infer_instance

instance functionType (m : Mark) : Framed layer (r.functionType m) := by
  unfold Rules.functionType
  infer_instance

omit hr in
instance convertTypeParam (type : Option TypeExpr) (params : TypeParams) (e : TypeExpr) :
    Framed layer (Rules.convertTypeParam type params e) := by
  unfold Rules.convertTypeParam
  split <;> infer_instance

omit hr in
instance convertTypeParams (types : List TypeExpr) : Framed layer (Rules.convertTypeParams types) := by
  have hstep : ∀ (params : TypeParams) (node : TypeExpr), Framed layer (match node with
      | .typed _ base type => Rules.convertTypeParam (some type) params base
      | node => Rules.convertTypeParam none params node) := by
    intro params node
    split <;> infer_instance
  unfold Rules.convertTypeParams
  infer_instance

instance arrowType (m : Mark) (params : TypeParams) : Framed layer (r.arrowType m params) := by
  unfold Rules.arrowType
  infer_instance

instance moreTypes (ends : TokenKind → Bool) (fuel : Nat) : Framed layer (r.moreTypes ends fuel) := by
  induction fuel with
  | zero => exact exhausted
  | succ fuel hmore =>
    unfold Rules.moreTypes
    infer_instance

instance bracketType (m : Mark) : Framed layer (r.bracketType m) := by
  unfold Rules.bracketType
  infer_instance

instance restArrowType (m : Mark) (params : TypeParams) : Framed layer (r.restArrowType m params) := by
  unfold Rules.restArrowType
  infer_instance

instance parensType (m : Mark) : Framed layer (r.parensType m) := by
  unfold Rules.parensType
  infer_instance

instance nameType (m : Mark) : Framed layer (r.nameType m) := by
  unfold Rules.nameType
  infer_instance

instance typeHead (m : Mark) : Framed layer (r.typeHead m) := by
  unfold Rules.typeHead
  refine seq (q := fun _ => ite (q := ?_))
  refine seq (q := fun _ => ite (q := ?_))
  infer_instance

instance typeMember (m : Mark) (base : TypeExpr) : Framed layer (r.typeMember m base) := by
  unfold Rules.typeMember
  infer_instance

instance typeSuffix? (base : TypeExpr) : Framed layer (r.typeSuffix? base) := by
  unfold Rules.typeSuffix?
  infer_instance

instance typeSuffixes (fuel : Nat) : ∀ base, Framed layer (r.typeSuffixes fuel base) := by
  induction fuel with
  | zero => exact fun _ => exhausted
  | succ fuel hmore =>
    intro base
    exact option (fun longer => hmore longer) pure

instance typeExprRule : Framed layer r.typeExprRule := by
  unfold Rules.typeExprRule
  infer_instance

end Types

section Functions

variable [layer.Above]

omit hr in
instance asPattern (e : Expr) : Framed layer (Rules.asPattern e) := by
  unfold Rules.asPattern
  split <;> infer_instance

instance primary (allowTyped : Bool) : Framed layer (r.primary allowTyped) :=
  option (fun _ => pure) unexpected

instance pattern : Framed layer r.pattern := by
  unfold Rules.pattern
  infer_instance

instance optInit (allowIn : Bool) : Framed layer (r.optInit allowIn) := by
  unfold Rules.optInit
  infer_instance

instance variableBinding (allowIn : Bool) : Framed layer (r.variableBinding allowIn) := by
  unfold Rules.variableBinding
  infer_instance

instance variableDeclaration? : Framed layer r.variableDeclaration? := by
  unfold Rules.variableDeclaration?
  infer_instance

omit hr in
instance typeParameter : Framed layer Rules.typeParameter := by
  unfold Rules.typeParameter
  infer_instance

instance optGenerics : Framed layer r.optGenerics := by
  unfold Rules.optGenerics
  infer_instance

instance typeBound : Framed layer r.typeBound := by
  unfold Rules.typeBound
  infer_instance

instance boundsClause? (generics : Option Generics) : Framed layer (r.boundsClause? generics) := by
  unfold Rules.boundsClause?
  infer_instance

instance restParam : Framed layer r.restParam := by
  unfold Rules.restParam
  infer_instance

instance functionParams (fuel : Nat) : ∀ params, Framed layer (r.functionParams fuel params) := by
  induction fuel with
  | zero => exact fun _ => exhausted
  | succ fuel hmore =>
    intro params
    unfold Rules.functionParams
    infer_instance

instance throwsType : Framed layer r.throwsType := by
  refine seq (q := fun types => ?_)
  split <;> infer_instance

instance functionClauses (fuel : Nat) : ∀ clauses, Framed layer (r.functionClauses fuel clauses) := by
  induction fuel with
  | zero => exact fun _ => exhausted
  | succ fuel hmore =>
    intro clauses
    have hbounds : Framed layer (r.boundsClause? clauses.generics >>= fun
        | some generics => r.functionClauses fuel { clauses with generics := some generics }
        | none => Pure.pure clauses) := option (fun _ => hmore _) pure
    unfold Rules.functionClauses
    infer_instance

omit hr in
instance endsHere (defines : Bool) : Framed layer (Rules.endsHere defines) := by
  unfold Rules.endsHere
  infer_instance

instance functionBody (role : FunctionRole) : Framed .body (r.functionBody role) := by
  unfold Rules.functionBody
  infer_instance

instance functionParts (generics : Option Generics) (role : FunctionRole) :
    Framed layer (r.functionParts generics role) := by
  unfold Rules.functionParts
  infer_instance

instance functionExpr : Framed layer r.functionExpr := by
  unfold Rules.functionExpr
  infer_instance

omit hr in
instance addArrowParam (params : Params) (e : Expr) : Framed layer (Rules.addArrowParam params e) := by
  unfold Rules.addArrowParam
  split <;> infer_instance

omit hr in
instance arrowParams (items : List Expr) : Framed layer (Rules.arrowParams items) :=
  foldlM items ({} : Params)

instance arrowBody : Framed .body r.arrowBody := by
  unfold Rules.arrowBody
  infer_instance

instance arrowFunction (m : Mark) (params : Params) (result : Option TypeExpr) :
    Framed layer (r.arrowFunction m params result) := by
  unfold Rules.arrowFunction
  infer_instance

end Functions

section Nodes

variable [layer.Above]

instance bracedExpr : Framed layer r.bracedExpr := by
  unfold Rules.bracedExpr
  infer_instance

instance nodeChild? : Framed layer r.nodeChild? := by
  unfold Rules.nodeChild?
  infer_instance

instance nodeChildren : Framed layer r.nodeChildren := collectWhile _

instance tagName (fuel : Nat) : ∀ base, Framed layer (r.tagName fuel base) := by
  induction fuel with
  | zero => exact fun _ => exhausted
  | succ fuel hmore =>
    intro base
    unfold Rules.tagName
    infer_instance

instance attributeValue : Framed layer r.attributeValue := by
  unfold Rules.attributeValue
  infer_instance

instance optAttributeValue : Framed layer r.optAttributeValue := by
  unfold Rules.optAttributeValue
  infer_instance

instance nodeAttribute? : Framed layer r.nodeAttribute? := by
  unfold Rules.nodeAttribute?
  infer_instance

instance closingName : Framed layer r.closingName := by
  unfold Rules.closingName
  infer_instance

instance nodeBody : Framed layer r.nodeBody := by
  unfold Rules.nodeBody
  infer_instance

instance nodeRule (outermost : Bool) : Framed layer (r.nodeRule outermost) := by
  unfold Rules.nodeRule
  infer_instance

end Nodes

section Primary

variable [layer.Above]

instance arguments : Framed layer r.arguments := by
  unfold Rules.arguments
  infer_instance

instance dotContinuation (m : Mark) (base : Expr) : Framed layer (r.dotContinuation m base) := by
  unfold Rules.dotContinuation
  infer_instance

instance indexContinuation (m : Mark) (base : Expr) (optional : Bool) :
    Framed layer (r.indexContinuation m base optional) := by
  unfold Rules.indexContinuation
  infer_instance

instance callContinuation (m : Mark) (base : Expr) (optional : Bool) :
    Framed layer (r.callContinuation m base optional) := by
  unfold Rules.callContinuation
  infer_instance

instance identifierPrimary (allowTyped : Bool) : Framed layer (r.identifierPrimary allowTyped) := by
  unfold Rules.identifierPrimary
  infer_instance

instance parensItems (fuel : Nat) : ∀ items, Framed layer (r.parensItems fuel items) := by
  induction fuel with
  | zero => exact fun _ => exhausted
  | succ fuel hmore =>
    intro items
    unfold Rules.parensItems
    infer_instance

instance restArrowFunction (m : Mark) (items : List Expr) : Framed layer (r.restArrowFunction m items) := by
  unfold Rules.restArrowFunction
  infer_instance

omit hr in
instance parensContent (items : List Expr) : Framed layer (Rules.parensContent items) := by
  unfold Rules.parensContent
  split <;> infer_instance

instance parensOrArrow (m : Mark) : Framed layer (r.parensOrArrow m) := by
  unfold Rules.parensOrArrow
  infer_instance

instance parensPrimary (m : Mark) (level : Precedence) : Framed layer (r.parensPrimary m level) := by
  unfold Rules.parensPrimary
  infer_instance

instance objectKey : Framed layer r.objectKey := by
  unfold Rules.objectKey
  infer_instance

instance objectField : Framed layer r.objectField := by
  unfold Rules.objectField
  infer_instance

instance objectItem : Framed layer r.objectItem := by
  unfold Rules.objectItem
  infer_instance

instance objectInitializer (m : Mark) : Framed layer (r.objectInitializer m) := by
  unfold Rules.objectInitializer
  infer_instance

instance arrayItem : Framed layer r.arrayItem := by
  unfold Rules.arrayItem
  infer_instance

instance arrayItems (fuel : Nat) : Framed layer (r.arrayItems fuel) := by
  induction fuel with
  | zero => exact exhausted
  | succ fuel hmore =>
    unfold Rules.arrayItems
    infer_instance

instance arrayInitializer (m : Mark) : Framed layer (r.arrayInitializer m) := by
  unfold Rules.arrayInitializer
  infer_instance

instance newBase (fuel : Nat) : ∀ base, Framed layer (r.newBase fuel base) := by
  induction fuel with
  | zero => exact fun _ => exhausted
  | succ fuel hmore =>
    intro base
    have hindex : Framed layer (MonadState.get >>= fun s : ParserState => do
        if s.token.kind == .leftBracket && s.continues then
          Parse.next
          let longer ← r.indexContinuation (Mark.ofSpan base.span) base false
          r.newBase fuel longer
        else return base) := get (fun _ _ => rfl) fun _ => inferInstance
    unfold Rules.newBase
    infer_instance

instance newExpr (m : Mark) : Framed layer (r.newExpr m) := by
  unfold Rules.newExpr
  infer_instance

omit hr in
instance regularExpression (m : Mark) : Framed layer (Rules.regularExpression m) := by
  have hregular : Framed layer (Parse.scan Scanner.readRegularExpression) := regular
  unfold Rules.regularExpression
  infer_instance

instance simplePrimary? (m : Mark) : Framed layer (r.simplePrimary? m) := by
  unfold Rules.simplePrimary?
  refine seq (q := fun _ => ite (q := ?_))
  refine seq (q := fun _ => ite (q := ?_))
  refine seq (q := fun _ => ite (q := ?_))
  infer_instance

instance optPrimaryRule (allowTyped : Bool) (level : Precedence) :
    Framed layer (r.optPrimaryRule allowTyped level) := by
  unfold Rules.optPrimaryRule
  refine seq (q := fun _ => seq (q := fun _ => ite (q := ?_)))
  refine option (fun _ => inferInstance) ?_
  infer_instance

end Primary

section Expressions

variable [above : layer.Above]

omit hr in
theorem noteUse_keeps (op : Operator) (span : Span) (s : ParserState) :
    layer.Keeps s (Ending.state (Rules.noteUse op span s)) := by
  have hreported : ∀ id, layer.Keeps s (Ending.state (Parse.syntaxError id span s)) := fun id =>
    (syntaxError id span).keeps s
  have hnoted : ∀ {old new : FunctionUse} {outer : List FunctionUse}, s.functions = old :: outer →
      layer.Keeps s { s with functions := new :: outer } := fun hs =>
    ⟨by simp [hs], id, fun _ => rfl, fun hl => absurd hl above.ne⟩
  unfold Rules.noteUse
  rw [get_bind]
  generalize hs : s.functions = functions at hnoted
  split
  · split
    · exact hreported _
    · exact hnoted rfl
  · split
    · exact hreported _
    · exact hnoted rfl
  · exact hreported _
  · exact .refl s

omit hr in
/-- Outside of functions, a use of `yield` is a problem and one of `await` is not noted. -/
instance noteUse (op : Operator) (span : Span) : Framed layer (Rules.noteUse op span) where
  keeps := noteUse_keeps op span
  framed s use _ huse := by
    obtain ⟨scanner, previous, functions, found⟩ := s
    obtain ⟨awaits, yields⟩ := use
    cases huse
    cases functions with
    | nil =>
      cases op with
      | await => exact Or.inl ⟨⟨true, false⟩, rfl, rfl⟩
      | yield => exact Or.inr ⟨rfl, Script.collect_invalid _ rfl⟩
      | _ => exact Or.inl ⟨⟨awaits, false⟩, rfl, rfl⟩
    | cons innermost outer =>
      refine Or.inl ⟨⟨awaits, false⟩, rfl, ?_⟩
      obtain ⟨awaits', yields'⟩ := innermost
      cases op with
      | await => cases yields' <;> rfl
      | yield => cases awaits' <;> rfl
      | _ => rfl

instance unaryExpr (rule : OperatorRule) (allowIn : Bool) : Framed layer (r.unaryExpr rule allowIn) := by
  unfold Rules.unaryExpr
  infer_instance

omit hr in
instance assignmentTarget (e : Expr) : Framed layer (Rules.assignmentTarget e) := by
  unfold Rules.assignmentTarget
  split <;> infer_instance

instance castContinuation (m : Mark) (base : Expr) : Framed layer (r.castContinuation m base) := by
  unfold Rules.castContinuation
  infer_instance

instance listContinuation (allowIn : Bool) (m : Mark) (base : Expr) :
    Framed layer (r.listContinuation allowIn m base) := by
  unfold Rules.listContinuation
  infer_instance

instance conditionalContinuation (allowIn : Bool) (m : Mark) (base : Expr) :
    Framed layer (r.conditionalContinuation allowIn m base) := by
  unfold Rules.conditionalContinuation
  infer_instance

instance optionalContinuation (m : Mark) (base : Expr) : Framed layer (r.optionalContinuation m base) := by
  unfold Rules.optionalContinuation
  infer_instance

instance continueWith (allowIn : Bool) (m : Mark) (base : Expr) (compound : Option Operator)
    (way : Continuation) : Framed layer (r.continueWith allowIn m base compound way) := by
  cases way <;> (unfold Rules.continueWith; infer_instance)

instance continuations (allowIn : Bool) (level : Precedence) (fuel : Nat) :
    ∀ base, Framed layer (r.continuations allowIn level fuel base) := by
  induction fuel with
  | zero => exact fun _ => exhausted
  | succ fuel hmore =>
    intro base
    refine get (fun _ _ => rfl) fun s => ?_
    split <;> infer_instance

instance continued (base : Expr) (allowIn : Bool) (level : Precedence) :
    Framed layer (r.continued base allowIn level) := continuations _ _ _ _

instance operand? (mode : ExprMode) : Framed layer (r.operand? mode) := by
  refine option (fun _ => inferInstance) (seq (q := fun t => ?_))
  split <;> infer_instance

instance optExprRule (mode : ExprMode) : Framed layer (r.optExprRule mode) :=
  option (fun _ => inferInstance) pure

instance exprRule (mode : ExprMode) : Framed layer (r.exprRule mode) :=
  option (fun _ => pure) unexpected

end Expressions

end Framed

end ActionSyntax
