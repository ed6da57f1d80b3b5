import ActionSyntax.Grammar.Functions
import ActionSyntax.Grammar.Words

/-!
Definitions and what may stand in front of them. A definition is built as soon as its parts have
been read; where it stands and how it is modified may then turn out to be wrong.
-/

namespace ActionSyntax.Rules

set_option autoImplicit false

open Parse

/-- Modifiers and access modifiers. Once there is one, all that follows stays on its line. -/
def definitionAttributes : Nat → Attributes → Parse Attributes
  | 0, _ => exhausted
  | fuel + 1, attributes => do
    let s ← get
    let begun := !attributes.modifiers.isEmpty || attributes.access.isSome
    if begun && !s.onSameLine then syntaxError .tokenMustBeInline s.token.span
    match Words.modifier? s.token, Words.access? s.token with
    | some m, _ =>
      next
      definitionAttributes fuel { attributes with modifiers := attributes.modifiers.insert m }
    | none, some access =>
      next
      definitionAttributes fuel { attributes with access := some access }
    | none, none => return attributes

/-- Reports each modifier that the definition must not have. -/
def restrictModifiers (span : Span) (actual : Modifiers) (restricted : List Modifier) :
    Parse Unit :=
  (actual.toList.filter restricted.contains).forM fun m =>
    report .syntaxError .definitionMustntHaveModifier span [("m", .text m.word)]

def checkContext (allowed : Bool) (span : Span) : Parse Unit := do
  if !allowed then verifyError .definitionInUnallowedContext span

/-- A native function has no body, and every other function has one. -/
def checkBody (attributes : Attributes) (common : FunctionCommon) (id : Identifier) :
    Parse Unit := do
  if attributes.modifiers.native then
    if common.body.isSome then syntaxError .nativeFunctionMustntHaveBody id.span
  else if common.body.isNone then syntaxError .functionMustveBody id.span

def checkMethod (attributes : Attributes) (context : Context) (common : FunctionCommon)
    (id : Identifier) : Parse Unit := do
  if context.isInterface then
    if attributes.isSubstantial then syntaxError .interfaceMethodMustveNoAttributes id.span
  else checkBody attributes common id

def checkUses (common : FunctionCommon) (id : Identifier) (mayYield : Bool) : Parse Unit := do
  if common.usesAwait then syntaxError .functionMustNotUseAwait id.span
  else if common.usesYield && !mayYield then syntaxError .functionMustNotUseYield id.span

def isNamed (name : String) : Expr → Bool
  | .identifier id => id.name == name && id.type.isNone
  | _ => false

/-- Takes out the first decorator that is a given name, if there is one. -/
def takeDecorator (name : String) (attributes : Attributes) : Bool × Attributes :=
  let decorators := attributes.decorators.getD []
  (decorators.any (isNamed name),
    { attributes with decorators := attributes.decorators.map (·.eraseP (isNamed name)) })

def enumVariant (context : Context) (attributes : Attributes) : Bool :=
  context.isEnum && !attributes.modifiers.static

/-- A variable of a definition. The variants of an enumeration are plain names. -/
def definedBinding (r : Rules) (isVariant : Bool) : Parse VariableBinding := do
  let binding ← r.variableBinding
  if isVariant && !binding.pattern.isPlainName then
    verifyError .enumVariantMustBeSimple binding.span
  return binding

def variableDefinition (r : Rules) (attributes : Attributes) (context : Context) (m : Mark)
    (readOnly : Bool) : Parse Ended := do
  let isVariant := enumVariant context attributes
  let bindings ← separated (r.definedBinding isVariant) r.rounds
  let ended ← endStatement
  let span ← finish m
  if isVariant && !readOnly then verifyError .enumVariantDeclarationsMustBeConst span
  else checkContext (!context.isInterface) span
  restrictModifiers span attributes.modifiers [.final, .native, .override, .proxy]
  return (.variableDef span attributes readOnly bindings, ended)

def constructorDefinition (r : Rules) (attributes : Attributes) (m : Mark) (id : Identifier) :
    Parse Ended := do
  let parts ← r.functionParts none .constructor
  let span ← finish m
  checkBody attributes parts.common id
  checkUses parts.common id false
  restrictModifiers id.span attributes.modifiers [.final, .override, .proxy, .static]
  return (.constructorDef span attributes id parts.common, parts.ended)

def accessorDefinition (r : Rules) (attributes : Attributes) (context : Context) (m : Mark)
    (id : Identifier) (isGetter : Bool) : Parse Ended := do
  let parts ← r.functionParts none .definition
  let span ← finish m
  checkMethod attributes context parts.common id
  checkUses parts.common id false
  let statement :=
    if isGetter then Statement.getterDef span attributes id parts.common
    else .setterDef span attributes id parts.common
  return (statement, parts.ended)

/-- Whether a proxy method has just the parameters that its operator asks for. -/
def hasProxyParameters (op : Operator) (common : FunctionCommon) : Bool :=
  common.rest.isNone && common.optional.isEmpty && common.params.length == op.proxyParameters

def checkProxy (attributes : Attributes) (context : Context) (common : FunctionCommon)
    (id : Identifier) (op : Operator) : Parse Unit := do
  if context.allowsProxies then checkBody attributes common id else checkContext false id.span
  checkUses common id (op == .iterateKeys || op == .iterateValues)
  restrictModifiers id.span attributes.modifiers [.final, .override, .static]
  if !hasProxyParameters op common then verifyError .proxyHasWrongNumParams id.span

def proxyDefinition (r : Rules) (attributes : Attributes) (context : Context) (m : Mark)
    (id : Identifier) : Parse Ended := do
  let parts ← r.functionParts none .definition
  let span ← finish m
  match Words.proxyOperator? id.name with
  | some op =>
    checkProxy attributes context parts.common id op
    return (.proxyDef span attributes id op parts.common, parts.ended)
  | none =>
    report .verifyError .unrecognizedProxy id.span [("p", .text id.name)]
    return (.proxyDef span attributes id .within parts.common, parts.ended)

/-- A function, accessor, constructor or proxy method, after its keyword. -/
def functionDefinition (r : Rules) (attributes : Attributes) (context : Context) (m : Mark) :
    Parse Ended := do
  let id ← identifier
  let word ← previous
  let accessor := word.isContextKeyword "get" || word.isContextKeyword "set"
  if accessor && (← at? .identifier) then
    let id ← identifier
    return ← r.accessorDefinition attributes context m id (word.isContextKeyword "get")
  if context.className? == some id.name then return ← r.constructorDefinition attributes m id
  if attributes.modifiers.proxy then return ← r.proxyDefinition attributes context m id
  let generics ← r.optGenerics
  let parts ← r.functionParts generics .definition
  let span ← finish m
  checkMethod attributes context parts.common id
  return (.functionDef span attributes id parts.generics parts.common, parts.ended)

def namespaceAlias (r : Rules) (attributes : Attributes) (context : Context) (m : Mark)
    (id : Identifier) : Parse Ended := do
  let e ← r.expr {}
  let ended ← endStatement
  checkContext (!context.isInterface) id.span
  restrictModifiers id.span attributes.modifiers Modifier.all
  return (.namespaceAlias (← finish m) attributes id e, ended)

def namespaceDefinition (r : Rules) (attributes : Attributes) (context : Context) (m : Mark) :
    Parse Ended := do
  let id ← identifier
  if ← consume .assign then return ← r.namespaceAlias attributes context m id
  let block ← r.block (Context.ofContainer .namespace)
  checkContext context.allowsNamespaces id.span
  restrictModifiers id.span attributes.modifiers Modifier.all
  return (.namespaceDef (← finish m) attributes id block, true)

/-- The clauses between the name of a class or interface and its block. -/
structure Heritage where
  extended : List TypeExpr := []
  implemented : List TypeExpr := []
  generics : Option Generics := none

/-- The clauses of a class. It may extend one type, and the last one written counts. -/
def classHeritage (r : Rules) : Nat → Heritage → Parse Heritage
  | 0, _ => exhausted
  | fuel + 1, h => do
    if ← consumeKeyword "extends" then
      let type ← r.typeExpr
      if !h.extended.isEmpty then syntaxError .extendsClauseMustntDuplicate type.span
      r.classHeritage fuel { h with extended := [type] }
    else if ← consumeKeyword "implements" then
      let types ← separated r.typeExpr r.rounds
      r.classHeritage fuel { h with implemented := h.implemented ++ types }
    else
      match ← r.boundsClause? h.generics with
      | some generics => r.classHeritage fuel { h with generics := some generics }
      | none => return h

def classDefinition (r : Rules) (attributes : Attributes) (context : Context) (m : Mark) :
    Parse Ended := do
  let id ← identifier
  let (namedValue, attributes) := takeDecorator "Value" attributes
  let (isAlgebraic, attributes) := takeDecorator "Algebraic" attributes
  let isValue := namedValue || isAlgebraic
  let generics ← r.optGenerics
  let h ← r.classHeritage r.rounds { generics }
  let block ← r.block (Context.ofContainer (.class id.name))
  checkContext context.allowsTypeDefinitions id.span
  if isValue && !h.extended.isEmpty then verifyError .valueClassMustntExtend id.span
  if isValue && !h.implemented.isEmpty then verifyError .valueClassMustntImplement id.span
  restrictModifiers id.span attributes.modifiers [.native, .override, .proxy, .static]
  let span ← finish m
  return (.classDef span attributes id isValue isAlgebraic h.generics h.extended.head?
    h.implemented block, true)

/-- The clauses of an interface, which may extend many types. -/
def interfaceHeritage (r : Rules) : Nat → Heritage → Parse Heritage
  | 0, _ => exhausted
  | fuel + 1, h => do
    if ← consumeKeyword "extends" then
      let types ← separated r.typeExpr r.rounds
      r.interfaceHeritage fuel { h with extended := h.extended ++ types }
    else
      match ← r.boundsClause? h.generics with
      | some generics => r.interfaceHeritage fuel { h with generics := some generics }
      | none => return h

def interfaceDefinition (r : Rules) (attributes : Attributes) (context : Context) (m : Mark) :
    Parse Ended := do
  let id ← identifier
  let generics ← r.optGenerics
  let h ← r.interfaceHeritage r.rounds { generics }
  let block ← r.block (Context.ofContainer .interface)
  checkContext context.allowsTypeDefinitions id.span
  restrictModifiers id.span attributes.modifiers [.native, .override, .proxy, .static]
  let span ← finish m
  return (.interfaceDef span attributes id h.generics h.extended block, true)

def enumDefinition (r : Rules) (attributes : Attributes) (context : Context) (m : Mark) :
    Parse Ended := do
  let id ← identifier
  let (isFlags, attributes) := takeDecorator "Flags" attributes
  let numericType ← r.optAnnotation
  let block ← r.block (Context.ofContainer .enum)
  checkContext context.allowsTypeDefinitions id.span
  restrictModifiers id.span attributes.modifiers Modifier.all
  return (.enumDef (← finish m) attributes id isFlags numericType block, true)

/-- All `where` clauses that stand here. -/
def boundsClauses (r : Rules) : Nat → Option Generics → Parse (Option Generics)
  | 0, _ => exhausted
  | fuel + 1, generics => do
    match ← r.boundsClause? generics with
    | some longer => r.boundsClauses fuel (some longer)
    | none => return generics

def typeDefinition (r : Rules) (attributes : Attributes) (context : Context) (m : Mark) :
    Parse Ended := do
  let id ← identifier
  let generics ← r.boundsClauses r.rounds (← r.optGenerics)
  expect .assign
  let type ← r.typeExpr
  let ended ← endStatement
  checkContext (!context.isInterface) id.span
  restrictModifiers id.span attributes.modifiers Modifier.all
  return (.typeDef (← finish m) attributes id generics type, ended)

/-- The definition whose keyword has just been consumed. -/
def definition (r : Rules) (attributes : Attributes) (context : Context) (m : Mark) :
    Parse Ended := do
  let keyword ← previous
  if keyword.isKeyword "var" then r.variableDefinition attributes context m false
  else if keyword.isKeyword "const" then r.variableDefinition attributes context m true
  else if keyword.isKeyword "function" then r.functionDefinition attributes context m
  else if keyword.isContextKeyword "namespace" then r.namespaceDefinition attributes context m
  else if keyword.isKeyword "class" then r.classDefinition attributes context m
  else if keyword.isKeyword "interface" then r.interfaceDefinition attributes context m
  else if keyword.isContextKeyword "enum" then r.enumDefinition attributes context m
  else if keyword.isContextKeyword "type" then r.typeDefinition attributes context m
  else unexpected

/-- A definition from its modifiers on, some attributes having been read before. -/
def modifiedDefinition (r : Rules) (attributes : Attributes) (context : Context) (m : Mark) :
    Parse Ended := do
  let attributes ← definitionAttributes r.rounds attributes
  let t ← token
  if Words.isStrictDefinition t || Words.isSoftDefinition t then next
  r.definition attributes context m

end ActionSyntax.Rules
