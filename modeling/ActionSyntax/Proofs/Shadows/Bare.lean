import ActionSyntax.Tree.Node

/-!
Trees without their places. Two trees match if they are the same once every range is forgotten. A
script that is included keeps its own places, which do not depend on where it is included.
-/

namespace ActionSyntax

set_option autoImplicit false

section Types

mutual

/-- A type without its places. -/
@[simp] def TypeExpr.bare : TypeExpr → TypeExpr
  | .name _ name => .name default name
  | .member _ base id => .member default base.bare id.bare
  | .any _ => .any default
  | .void _ => .void default
  | .undefined _ => .undefined default
  | .null _ => .null default
  | .function _ params optional rest result =>
    .function default (Identifier.bareAll params) (Identifier.bareAllOption optional)
      (Identifier.bareOption rest) (TypeExpr.bareOption result)
  | .array _ item => .array default item.bare
  | .tuple _ items => .tuple default (TypeExpr.bareAll items)
  | .record _ fields => .record default (Identifier.bareAll fields)
  | .union _ members => .union default (TypeExpr.bareAll members)
  | .instantiation _ base arguments => .instantiation default base.bare (TypeExpr.bareAll arguments)
  | .nullable _ base => .nullable default base.bare
  | .nonNullable _ base => .nonNullable default base.bare
  | .parens _ base => .parens default base.bare
  | .typed _ base type => .typed default base.bare type.bare

@[simp] def TypeExpr.bareAll : List TypeExpr → List TypeExpr
  | [] => []
  | type :: rest => type.bare :: TypeExpr.bareAll rest

@[simp] def TypeExpr.bareOption : Option TypeExpr → Option TypeExpr
  | none => none
  | some type => some type.bare

@[simp] def Identifier.bare : Identifier → Identifier
  | ⟨_, name, type⟩ => ⟨default, name, TypeExpr.bareOption type⟩

@[simp] def Identifier.bareOption : Option Identifier → Option Identifier
  | none => none
  | some id => some id.bare

@[simp] def Identifier.bareAll : List Identifier → List Identifier
  | [] => []
  | id :: rest => id.bare :: Identifier.bareAll rest

@[simp] def Identifier.bareAllOption : Option (List Identifier) → Option (List Identifier)
  | none => none
  | some ids => some (Identifier.bareAll ids)

end

@[simp] def TypeParameter.bare (param : TypeParameter) : TypeParameter :=
  ⟨default, param.id.bare⟩

@[simp] def TypeBound.bare (bound : TypeBound) : TypeBound :=
  ⟨default, bound.id.bare, bound.type.bare⟩

@[simp] def Generics.bare (generics : Generics) : Generics :=
  ⟨default, generics.params.map TypeParameter.bare, generics.bounds.map TypeBound.bare⟩

end Types

section Nodes

mutual

@[simp] def Pattern.bare : Pattern → Pattern
  | .name _ name type => .name default name (type.map TypeExpr.bare)
  | .object _ fields type => .object default (PatternField.bareAll fields) (type.map TypeExpr.bare)
  | .array _ items type => .array default (PatternItem.bareAll items) (type.map TypeExpr.bare)

@[simp] def Pattern.bareOption : Option Pattern → Option Pattern
  | none => none
  | some pattern => some pattern.bare

@[simp] def PatternField.bare : PatternField → PatternField
  | ⟨_, key, pattern⟩ => ⟨default, key.bare, Pattern.bareOption pattern⟩

@[simp] def PatternField.bareAll : List PatternField → List PatternField
  | [] => []
  | field :: rest => field.bare :: PatternField.bareAll rest

@[simp] def PatternItem.bare : PatternItem → PatternItem
  | .hole => .hole
  | .pattern pattern => .pattern pattern.bare
  | .spread _ pattern => .spread default pattern.bare

@[simp] def PatternItem.bareAll : List PatternItem → List PatternItem
  | [] => []
  | item :: rest => item.bare :: PatternItem.bareAll rest

@[simp] def VariableBinding.bare : VariableBinding → VariableBinding
  | ⟨_, pattern, init⟩ => ⟨default, pattern.bare, Expr.bareOption init⟩

@[simp] def VariableBinding.bareOption : Option VariableBinding → Option VariableBinding
  | none => none
  | some binding => some binding.bare

@[simp] def VariableBinding.bareAll : List VariableBinding → List VariableBinding
  | [] => []
  | binding :: rest => binding.bare :: VariableBinding.bareAll rest

@[simp] def Expr.bare : Expr → Expr
  | .identifier id => .identifier id.bare
  | .embed _ source type => .embed default source (type.map TypeExpr.bare)
  | .unary _ op operand => .unary default op operand.bare
  | .binary _ op left right => .binary default op left.bare right.bare
  | .typeBinary _ op left right => .typeBinary default op left.bare right.bare
  | .defaultOf _ type => .defaultOf default type.bare
  | .function _ id common => .function default (id.map Identifier.bare) common.bare
  | .object _ fields type => .object default (ObjectItem.bareAll fields) (type.map TypeExpr.bare)
  | .spread _ e => .spread default e.bare
  | .array _ items type => .array default (Expr.bareSlots items) (type.map TypeExpr.bare)
  | .nodeList _ children => .nodeList default (Expr.bareAll children)
  | .node _ id attributes children =>
    .node default id.bare (NodeAttribute.bareAll attributes) (Expr.bareAllOption children)
  | .member _ base id optional => .member default base.bare id.bare optional
  | .index _ base key optional => .index default base.bare key.bare optional
  | .call _ base arguments optional => .call default base.bare (Expr.bareAll arguments) optional
  | .importMeta _ => .importMeta default
  | .this _ => .this default
  | .string _ value => .string default value
  | .null _ => .null default
  | .boolean _ value => .boolean default value
  | .number _ value => .number default value
  | .regularExpression _ body flags => .regularExpression default body flags
  | .conditional _ test consequent alternative =>
    .conditional default test.bare consequent.bare alternative.bare
  | .parens _ e => .parens default e.bare
  | .list _ expressions => .list default (Expr.bareAll expressions)
  | .instantiation _ base arguments =>
    .instantiation default base.bare (arguments.map TypeExpr.bare)
  | .assignment _ left compound right => .assignment default left.bare compound right.bare
  | .new _ base arguments => .new default base.bare (Expr.bareAll arguments)
  | .super _ => .super default

@[simp] def Expr.bareOption : Option Expr → Option Expr
  | none => none
  | some e => some e.bare

@[simp] def Expr.bareAll : List Expr → List Expr
  | [] => []
  | e :: rest => e.bare :: Expr.bareAll rest

@[simp] def Expr.bareAllOption : Option (List Expr) → Option (List Expr)
  | none => none
  | some expressions => some (Expr.bareAll expressions)

@[simp] def Expr.bareSlots : List (Option Expr) → List (Option Expr)
  | [] => []
  | none :: rest => none :: Expr.bareSlots rest
  | some e :: rest => some e.bare :: Expr.bareSlots rest

@[simp] def ObjectItem.bare : ObjectItem → ObjectItem
  | .field _ key value => .field default key.bare (Expr.bareOption value)
  | .spread _ e => .spread default e.bare

@[simp] def ObjectItem.bareAll : List ObjectItem → List ObjectItem
  | [] => []
  | item :: rest => item.bare :: ObjectItem.bareAll rest

@[simp] def NodeAttribute.bare : NodeAttribute → NodeAttribute
  | ⟨_, id, value⟩ => ⟨default, id.bare, Expr.bareOption value⟩

@[simp] def NodeAttribute.bareAll : List NodeAttribute → List NodeAttribute
  | [] => []
  | attr :: rest => attr.bare :: NodeAttribute.bareAll rest

@[simp] def AssignmentTarget.bare : AssignmentTarget → AssignmentTarget
  | .expression e => .expression e.bare
  | .pattern pattern => .pattern pattern.bare

@[simp] def FunctionCommon.bare : FunctionCommon → FunctionCommon
  | ⟨_, usesAwait, usesYield, params, optional, rest, result, throws, body⟩ =>
    ⟨default, usesAwait, usesYield, VariableBinding.bareAll params,
      VariableBinding.bareAll optional, VariableBinding.bareOption rest,
      result.map TypeExpr.bare, throws.map TypeExpr.bare, FunctionBody.bareOption body⟩

@[simp] def FunctionBody.bare : FunctionBody → FunctionBody
  | .block block => .block block.bare
  | .expression e => .expression e.bare

@[simp] def FunctionBody.bareOption : Option FunctionBody → Option FunctionBody
  | none => none
  | some body => some body.bare

@[simp] def Block.bare : Block → Block
  | ⟨_, statements⟩ => ⟨default, Statement.bareAll statements⟩

@[simp] def Block.bareOption : Option Block → Option Block
  | none => none
  | some block => some block.bare

@[simp] def Attributes.bare : Attributes → Attributes
  | ⟨decorators, modifiers, access⟩ =>
    ⟨Expr.bareAllOption decorators, modifiers, access⟩

@[simp] def Statement.bare : Statement → Statement
  | .expression _ e => .expression default e.bare
  | .empty _ => .empty default
  | .block block => .block block.bare
  | .superCall _ arguments => .superCall default (Expr.bareAll arguments)
  | .importName _ localName name wildcard recursive =>
    .importName default (localName.map Identifier.bare) (name.map Identifier.bare) wildcard
      recursive
  | .ifElse _ test consequent alternative =>
    .ifElse default test.bare consequent.bare (Statement.bareOption alternative)
  | .doWhile _ body test => .doWhile default body.bare test.bare
  | .whileDo _ test body => .whileDo default test.bare body.bare
  | .breakOut _ label => .breakOut default label
  | .continueOn _ label => .continueOn default label
  | .returnValue _ e => .returnValue default (Expr.bareOption e)
  | .throwValue _ e => .throwValue default e.bare
  | .tryCatch _ block catches last =>
    .tryCatch default block.bare (CatchClause.bareAll catches) (Block.bareOption last)
  | .labeled _ label statement => .labeled default label statement.bare
  | .forLoop _ init test update body =>
    .forLoop default (ForBinding.bareOption init) (Expr.bareOption test) (Expr.bareOption update)
      body.bare
  | .forIn _ iteratesKeys left right body =>
    .forIn default iteratesKeys left.bare right.bare body.bare
  | .switchValue _ discriminant cases =>
    .switchValue default discriminant.bare (SwitchCase.bareAll cases)
  | .switchType _ discriminant cases =>
    .switchType default discriminant.bare (TypeCase.bareAll cases)
  | .includeSource _ source child statements => .includeSource default source child statements
  | .useNamespace _ e => .useNamespace default e.bare
  | .useResource _ bindings block =>
    .useResource default (VariableBinding.bareAll bindings) block.bare
  | .withObject _ object body => .withObject default object.bare body.bare
  | .namespaceDef _ attributes id block =>
    .namespaceDef default attributes.bare id.bare block.bare
  | .namespaceAlias _ attributes id e => .namespaceAlias default attributes.bare id.bare e.bare
  | .variableDef _ attributes readOnly bindings =>
    .variableDef default attributes.bare readOnly (VariableBinding.bareAll bindings)
  | .functionDef _ attributes id generics common =>
    .functionDef default attributes.bare id.bare (generics.map Generics.bare) common.bare
  | .constructorDef _ attributes id common =>
    .constructorDef default attributes.bare id.bare common.bare
  | .getterDef _ attributes id common => .getterDef default attributes.bare id.bare common.bare
  | .setterDef _ attributes id common => .setterDef default attributes.bare id.bare common.bare
  | .proxyDef _ attributes id op common => .proxyDef default attributes.bare id.bare op common.bare
  | .classDef _ attributes id isValue isAlgebraic generics extended implemented block =>
    .classDef default attributes.bare id.bare isValue isAlgebraic (generics.map Generics.bare)
      (extended.map TypeExpr.bare) (implemented.map TypeExpr.bare) block.bare
  | .interfaceDef _ attributes id generics extended block =>
    .interfaceDef default attributes.bare id.bare (generics.map Generics.bare)
      (extended.map TypeExpr.bare) block.bare
  | .enumDef _ attributes id isFlags numericType block =>
    .enumDef default attributes.bare id.bare isFlags (numericType.map TypeExpr.bare) block.bare
  | .typeDef _ attributes id generics type =>
    .typeDef default attributes.bare id.bare (generics.map Generics.bare) type.bare

@[simp] def Statement.bareOption : Option Statement → Option Statement
  | none => none
  | some statement => some statement.bare

@[simp] def Statement.bareAll : List Statement → List Statement
  | [] => []
  | statement :: rest => statement.bare :: Statement.bareAll rest

@[simp] def CatchClause.bare : CatchClause → CatchClause
  | ⟨_, pattern, block⟩ => ⟨default, pattern.bare, block.bare⟩

@[simp] def CatchClause.bareAll : List CatchClause → List CatchClause
  | [] => []
  | clause :: rest => clause.bare :: CatchClause.bareAll rest

@[simp] def ForBinding.bare : ForBinding → ForBinding
  | .variable declaration => .variable declaration.bare
  | .expression e => .expression e.bare

@[simp] def ForBinding.bareOption : Option ForBinding → Option ForBinding
  | none => none
  | some binding => some binding.bare

@[simp] def VariableDeclaration.bare : VariableDeclaration → VariableDeclaration
  | ⟨_, readOnly, bindings⟩ => ⟨default, readOnly, VariableBinding.bareAll bindings⟩

@[simp] def SwitchCase.bare : SwitchCase → SwitchCase
  | ⟨_, test, consequent⟩ => ⟨default, Expr.bareOption test, Statement.bareAll consequent⟩

@[simp] def SwitchCase.bareAll : List SwitchCase → List SwitchCase
  | [] => []
  | c :: rest => c.bare :: SwitchCase.bareAll rest

@[simp] def TypeCase.bare : TypeCase → TypeCase
  | ⟨_, pattern, block⟩ => ⟨default, Pattern.bareOption pattern, block.bare⟩

@[simp] def TypeCase.bareAll : List TypeCase → List TypeCase
  | [] => []
  | c :: rest => c.bare :: TypeCase.bareAll rest

end

end Nodes

section Containers

@[simp] theorem TypeExpr.bareAll_eq (items : List TypeExpr) :
    TypeExpr.bareAll items = items.map TypeExpr.bare := by
  induction items with
  | nil => rfl
  | cons first rest ih => rw [TypeExpr.bareAll, ih, List.map_cons]

@[simp] theorem Identifier.bareAll_eq (items : List Identifier) :
    Identifier.bareAll items = items.map Identifier.bare := by
  induction items with
  | nil => rfl
  | cons first rest ih => rw [Identifier.bareAll, ih, List.map_cons]

@[simp] theorem PatternField.bareAll_eq (items : List PatternField) :
    PatternField.bareAll items = items.map PatternField.bare := by
  induction items with
  | nil => rfl
  | cons first rest ih => rw [PatternField.bareAll, ih, List.map_cons]

@[simp] theorem PatternItem.bareAll_eq (items : List PatternItem) :
    PatternItem.bareAll items = items.map PatternItem.bare := by
  induction items with
  | nil => rfl
  | cons first rest ih => rw [PatternItem.bareAll, ih, List.map_cons]

@[simp] theorem VariableBinding.bareAll_eq (items : List VariableBinding) :
    VariableBinding.bareAll items = items.map VariableBinding.bare := by
  induction items with
  | nil => rfl
  | cons first rest ih => rw [VariableBinding.bareAll, ih, List.map_cons]

@[simp] theorem Expr.bareAll_eq (items : List Expr) :
    Expr.bareAll items = items.map Expr.bare := by
  induction items with
  | nil => rfl
  | cons first rest ih => rw [Expr.bareAll, ih, List.map_cons]

@[simp] theorem ObjectItem.bareAll_eq (items : List ObjectItem) :
    ObjectItem.bareAll items = items.map ObjectItem.bare := by
  induction items with
  | nil => rfl
  | cons first rest ih => rw [ObjectItem.bareAll, ih, List.map_cons]

@[simp] theorem NodeAttribute.bareAll_eq (items : List NodeAttribute) :
    NodeAttribute.bareAll items = items.map NodeAttribute.bare := by
  induction items with
  | nil => rfl
  | cons first rest ih => rw [NodeAttribute.bareAll, ih, List.map_cons]

@[simp] theorem Statement.bareAll_eq (items : List Statement) :
    Statement.bareAll items = items.map Statement.bare := by
  induction items with
  | nil => rfl
  | cons first rest ih => rw [Statement.bareAll, ih, List.map_cons]

@[simp] theorem CatchClause.bareAll_eq (items : List CatchClause) :
    CatchClause.bareAll items = items.map CatchClause.bare := by
  induction items with
  | nil => rfl
  | cons first rest ih => rw [CatchClause.bareAll, ih, List.map_cons]

@[simp] theorem SwitchCase.bareAll_eq (items : List SwitchCase) :
    SwitchCase.bareAll items = items.map SwitchCase.bare := by
  induction items with
  | nil => rfl
  | cons first rest ih => rw [SwitchCase.bareAll, ih, List.map_cons]

@[simp] theorem TypeCase.bareAll_eq (items : List TypeCase) :
    TypeCase.bareAll items = items.map TypeCase.bare := by
  induction items with
  | nil => rfl
  | cons first rest ih => rw [TypeCase.bareAll, ih, List.map_cons]

@[simp] theorem Expr.bareSlots_eq (items : List (Option Expr)) :
    Expr.bareSlots items = items.map (·.map Expr.bare) := by
  induction items with
  | nil => rfl
  | cons first rest ih => cases first <;> rw [Expr.bareSlots, ih] <;> rfl

@[simp] theorem TypeExpr.bareOption_eq (item : Option TypeExpr) :
    TypeExpr.bareOption item = item.map TypeExpr.bare := by
  cases item <;> rfl

@[simp] theorem Identifier.bareOption_eq (item : Option Identifier) :
    Identifier.bareOption item = item.map Identifier.bare := by
  cases item <;> rfl

@[simp] theorem Pattern.bareOption_eq (item : Option Pattern) :
    Pattern.bareOption item = item.map Pattern.bare := by
  cases item <;> rfl

@[simp] theorem VariableBinding.bareOption_eq (item : Option VariableBinding) :
    VariableBinding.bareOption item = item.map VariableBinding.bare := by
  cases item <;> rfl

@[simp] theorem Expr.bareOption_eq (item : Option Expr) :
    Expr.bareOption item = item.map Expr.bare := by
  cases item <;> rfl

@[simp] theorem FunctionBody.bareOption_eq (item : Option FunctionBody) :
    FunctionBody.bareOption item = item.map FunctionBody.bare := by
  cases item <;> rfl

@[simp] theorem Block.bareOption_eq (item : Option Block) :
    Block.bareOption item = item.map Block.bare := by
  cases item <;> rfl

@[simp] theorem Statement.bareOption_eq (item : Option Statement) :
    Statement.bareOption item = item.map Statement.bare := by
  cases item <;> rfl

@[simp] theorem ForBinding.bareOption_eq (item : Option ForBinding) :
    ForBinding.bareOption item = item.map ForBinding.bare := by
  cases item <;> rfl

@[simp] theorem Identifier.bareAllOption_eq (items : Option (List Identifier)) :
    Identifier.bareAllOption items = items.map (·.map Identifier.bare) := by
  cases items with
  | none => rfl
  | some items => rw [Identifier.bareAllOption, Identifier.bareAll_eq, Option.map_some]

@[simp] theorem Expr.bareAllOption_eq (items : Option (List Expr)) :
    Expr.bareAllOption items = items.map (·.map Expr.bare) := by
  cases items with
  | none => rfl
  | some items => rw [Expr.bareAllOption, Expr.bareAll_eq, Option.map_some]

end Containers

/-- Values that hold places. -/
class Bare (α : Type) where
  bare : α → α

export Bare (bare)

/-- Two values are the same once all places are forgotten. -/
@[simp] def Matches {α : Type} [Bare α] (a b : α) : Prop := bare a = bare b

namespace Bare

variable {α β : Type}

/-- Most values hold none. -/
instance (priority := low) plain : Bare α := ⟨id⟩

instance : Bare Identifier := ⟨Identifier.bare⟩

instance : Bare TypeExpr := ⟨TypeExpr.bare⟩

instance : Bare TypeParameter := ⟨TypeParameter.bare⟩

instance : Bare TypeBound := ⟨TypeBound.bare⟩

instance : Bare Generics := ⟨Generics.bare⟩

instance : Bare Pattern := ⟨Pattern.bare⟩

instance : Bare PatternField := ⟨PatternField.bare⟩

instance : Bare PatternItem := ⟨PatternItem.bare⟩

instance : Bare VariableBinding := ⟨VariableBinding.bare⟩

instance : Bare Expr := ⟨Expr.bare⟩

instance : Bare ObjectItem := ⟨ObjectItem.bare⟩

instance : Bare NodeAttribute := ⟨NodeAttribute.bare⟩

instance : Bare AssignmentTarget := ⟨AssignmentTarget.bare⟩

instance : Bare FunctionCommon := ⟨FunctionCommon.bare⟩

instance : Bare FunctionBody := ⟨FunctionBody.bare⟩

instance : Bare Block := ⟨Block.bare⟩

instance : Bare Attributes := ⟨Attributes.bare⟩

instance : Bare Statement := ⟨Statement.bare⟩

instance : Bare CatchClause := ⟨CatchClause.bare⟩

instance : Bare ForBinding := ⟨ForBinding.bare⟩

instance : Bare VariableDeclaration := ⟨VariableDeclaration.bare⟩

instance : Bare SwitchCase := ⟨SwitchCase.bare⟩

instance : Bare TypeCase := ⟨TypeCase.bare⟩

instance : Bare Span := ⟨fun _ => default⟩

instance [Bare α] : Bare (Option α) := ⟨Option.map bare⟩

instance [Bare α] : Bare (List α) := ⟨List.map bare⟩

instance [Bare α] [Bare β] : Bare (α × β) := ⟨Prod.map bare bare⟩

end Bare

section Bare

variable {α β : Type}

@[simp] theorem bare_identifier : (bare : Identifier → Identifier) = Identifier.bare := rfl

@[simp] theorem bare_type : (bare : TypeExpr → TypeExpr) = TypeExpr.bare := rfl

@[simp] theorem bare_typeParameter : (bare : TypeParameter → TypeParameter) = TypeParameter.bare := rfl

@[simp] theorem bare_typeBound : (bare : TypeBound → TypeBound) = TypeBound.bare := rfl

@[simp] theorem bare_generics : (bare : Generics → Generics) = Generics.bare := rfl

@[simp] theorem bare_pattern : (bare : Pattern → Pattern) = Pattern.bare := rfl

@[simp] theorem bare_patternField : (bare : PatternField → PatternField) = PatternField.bare := rfl

@[simp] theorem bare_patternItem : (bare : PatternItem → PatternItem) = PatternItem.bare := rfl

@[simp] theorem bare_binding : (bare : VariableBinding → VariableBinding) = VariableBinding.bare := rfl

@[simp] theorem bare_expr : (bare : Expr → Expr) = Expr.bare := rfl

@[simp] theorem bare_objectItem : (bare : ObjectItem → ObjectItem) = ObjectItem.bare := rfl

@[simp] theorem bare_attribute : (bare : NodeAttribute → NodeAttribute) = NodeAttribute.bare := rfl

@[simp] theorem bare_target : (bare : AssignmentTarget → AssignmentTarget) = AssignmentTarget.bare := rfl

@[simp] theorem bare_common : (bare : FunctionCommon → FunctionCommon) = FunctionCommon.bare := rfl

@[simp] theorem bare_body : (bare : FunctionBody → FunctionBody) = FunctionBody.bare := rfl

@[simp] theorem bare_block : (bare : Block → Block) = Block.bare := rfl

@[simp] theorem bare_attributes : (bare : Attributes → Attributes) = Attributes.bare := rfl

@[simp] theorem bare_statement : (bare : Statement → Statement) = Statement.bare := rfl

@[simp] theorem bare_catchClause : (bare : CatchClause → CatchClause) = CatchClause.bare := rfl

@[simp] theorem bare_forBinding : (bare : ForBinding → ForBinding) = ForBinding.bare := rfl

@[simp] theorem bare_declaration : (bare : VariableDeclaration → VariableDeclaration) = VariableDeclaration.bare := rfl

@[simp] theorem bare_switchCase : (bare : SwitchCase → SwitchCase) = SwitchCase.bare := rfl

@[simp] theorem bare_typeCase : (bare : TypeCase → TypeCase) = TypeCase.bare := rfl

@[simp] theorem bare_bool : (bare : Bool → Bool) = id := rfl

@[simp] theorem bare_string : (bare : String → String) = id := rfl

@[simp] theorem bare_span (a b : Span) : bare a = bare b := rfl

@[simp] theorem bare_option [Bare α] : (bare : Option α → Option α) = Option.map bare := rfl

@[simp] theorem bare_list [Bare α] : (bare : List α → List α) = List.map bare := rfl

@[simp] theorem bare_pair [Bare α] [Bare β] :
    (bare : α × β → α × β) = Prod.map bare bare := rfl

theorem Matches.refl [Bare α] (a : α) : Matches a a := rfl

theorem Matches.symm [Bare α] {a b : α} (h : Matches a b) : Matches b a := Eq.symm h

theorem Matches.trans [Bare α] {a b c : α} (h : Matches a b) (h' : Matches b c) : Matches a c :=
  Eq.trans h h'

end Bare

end ActionSyntax
