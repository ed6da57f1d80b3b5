import ActionSyntax.Number.Shortest
import ActionSyntax.Text.Outline
import ActionSyntax.Tree.Node

/-!
Trees as indented text. A node is shown as its kind around a record of its fields, with the range
first; a node that has nothing but its range is shown as its kind around the range.
-/

namespace ActionSyntax

set_option autoImplicit false

/-- Any part of a tree. -/
inductive Part where
  | type (type : TypeExpr)
  | identifier (id : Identifier)
  | generics (generics : Generics)
  | typeParameter (param : TypeParameter)
  | typeBound (bound : TypeBound)
  | pattern (pattern : Pattern)
  | patternField (field : PatternField)
  | patternItem (item : PatternItem)
  | binding (binding : VariableBinding)
  | expr (expr : Expr)
  | objectItem (item : ObjectItem)
  | nodeAttribute (item : NodeAttribute)
  | target (target : AssignmentTarget)
  | function (common : FunctionCommon)
  | functionBody (body : FunctionBody)
  | block (block : Block)
  | attributes (attributes : Attributes)
  | statement (statement : Statement)
  | catchClause (clause : CatchClause)
  | forBinding (binding : ForBinding)
  | declaration (declaration : VariableDeclaration)
  | switchCase (case : SwitchCase)
  | typeCase (case : TypeCase)
  | package (package : Package)
  | program (program : Program)

def Script.outline (s : Script) : Outline :=
  .record "Script"
    [⟨"file_path", .text s.path⟩, ⟨"content_length", .nat s.length⟩, ⟨"valid", .bool s.isValid⟩]

/-- A script on one line. -/
def Script.summary (s : Script) : String := s.outline.flat

namespace Outline

def span (s : Span) : Outline := .leaf s.brief

/-- A record whose first field is its range. -/
def struct (name : String) (s : Span) (fields : List OutlineField) : Outline :=
  .record name (⟨"span", span s⟩ :: fields)

/-- A kind around a record. -/
def node (kind name : String) (s : Span) (fields : List OutlineField) : Outline :=
  .wrapped kind (struct name s fields)

/-- A kind around a range. -/
def mark (kind : String) (s : Span) : Outline := .wrapped kind (span s)

def operator (op : Operator) : Outline := .leaf op.title

/-- From `10 ^ -4` to below `10 ^ 16` numbers are written without an exponent. -/
def number (value : Double) : Outline := .leaf (Shortest.Layout.render ⟨-4, 15⟩ value)

def modifiers (set : Modifiers) : Outline :=
  .wrapped "DefinitionModifiers" <| .leaf <|
    match set.toList with
    | [] => "0x0"
    | words => String.intercalate " | " (words.map fun m => m.word.toUpper)

def access : Access → Outline
  | .pub => .leaf "Public"
  | .priv => .leaf "Private"
  | .prot => .leaf "Protected"
  | .intern => .leaf "Internal"

/-- A part with everything in it. -/
def ofPart : Part → Outline
  | .type (.name s name) => node "Identifier" "IdentifierType" s [⟨"name", .text name⟩]
  | .type (.member s base id) => node "Member" "MemberType" s
      [⟨"base", ofPart (.type base)⟩, ⟨"id", ofPart (.identifier id)⟩]
  | .type (.any s) => mark "Any" s
  | .type (.void s) => mark "Void" s
  | .type (.undefined s) => mark "Undefined" s
  | .type (.null s) => mark "Null" s
  | .type (.function s params optional rest result) => node "Function" "FunctionType" s
      [⟨"params", ofNonempty params fun x _ => ofPart (.identifier x)⟩,
       ⟨"opt_params", ofOption optional fun ids _ => ofList ids fun x _ => ofPart (.identifier x)⟩,
       ⟨"rest_param", ofOption rest fun x _ => ofPart (.identifier x)⟩,
       ⟨"return_type", ofOption result fun x _ => ofPart (.type x)⟩]
  | .type (.array s item) => node "Array" "ArrayType" s [⟨"item_type", ofPart (.type item)⟩]
  | .type (.tuple s items) => node "Tuple" "TupleType" s
      [⟨"item_types", ofList items fun x _ => ofPart (.type x)⟩]
  | .type (.record s fields) => node "Record" "RecordType" s
      [⟨"fields", ofList fields fun x _ => ofPart (.identifier x)⟩]
  | .type (.union s members) => node "Union" "UnionType" s
      [⟨"types", ofList members fun x _ => ofPart (.type x)⟩]
  | .type (.instantiation s base arguments) =>
    node "GenericInstantiation" "GenericInstantiationType" s
      [⟨"base", ofPart (.type base)⟩,
       ⟨"arguments", ofList arguments fun x _ => ofPart (.type x)⟩]
  | .type (.nullable s base) => node "Nullable" "NullableType" s [⟨"base", ofPart (.type base)⟩]
  | .type (.nonNullable s base) => node "NonNullable" "NonNullableType" s
      [⟨"base", ofPart (.type base)⟩]
  | .type (.parens s base) => node "Parens" "ParensType" s [⟨"base", ofPart (.type base)⟩]
  | .type (.typed s base type) => node "Typed" "TypedType" s
      [⟨"base", ofPart (.type base)⟩, ⟨"ty", ofPart (.type type)⟩]
  | .identifier ⟨s, name, type⟩ => struct "Identifier" s
      [⟨"name", .text name⟩, ⟨"ty", ofOption type fun x _ => ofPart (.type x)⟩]
  | .generics ⟨s, params, bounds⟩ => struct "Generics" s
      [⟨"params", ofList params fun x _ => ofPart (.typeParameter x)⟩,
       ⟨"bounds", ofNonempty bounds fun x _ => ofPart (.typeBound x)⟩]
  | .typeParameter ⟨s, id⟩ => struct "GenericTypeParameter" s [⟨"id", ofPart (.identifier id)⟩]
  | .typeBound ⟨s, id, type⟩ => node "Is" "GenericTypeParameterIsBound" s
      [⟨"id", ofPart (.identifier id)⟩, ⟨"ty", ofPart (.type type)⟩]
  | .pattern (.name s name type) => node "NonDestructuring" "NonDestructuringPattern" s
      [⟨"name", .text name⟩, ⟨"ty", ofOption type fun x _ => ofPart (.type x)⟩]
  | .pattern (.object s fields type) => node "Object" "ObjectDestructuringPattern" s
      [⟨"fields", ofList fields fun x _ => ofPart (.patternField x)⟩,
       ⟨"ty", ofOption type fun x _ => ofPart (.type x)⟩]
  | .pattern (.array s items type) => node "Array" "ArrayDestructuringPattern" s
      [⟨"items", ofList items fun x _ => ofPart (.patternItem x)⟩,
       ⟨"ty", ofOption type fun x _ => ofPart (.type x)⟩]
  | .patternField ⟨s, key, pattern⟩ => struct "ObjectDestructuringPatternField" s
      [⟨"key", ofPart (.expr key)⟩,
       ⟨"subpattern", ofOption pattern fun x _ => ofPart (.pattern x)⟩]
  | .patternItem .hole => .leaf "Hole"
  | .patternItem (.pattern p) => .wrapped "Pattern" (ofPart (.pattern p))
  | .patternItem (.spread s p) => node "Spread" "ArrayDestructuringSpread" s
      [⟨"pattern", ofPart (.pattern p)⟩]
  | .binding ⟨s, pattern, init⟩ => struct "VariableBinding" s
      [⟨"pattern", ofPart (.pattern pattern)⟩,
       ⟨"init", ofOption init fun x _ => ofPart (.expr x)⟩]
  | .expr (.identifier id) => .wrapped "Identifier" (ofPart (.identifier id))
  | .expr (.embed s source type) => node "Embed" "EmbedExpression" s
      [⟨"src", .text source⟩, ⟨"ty", ofOption type fun x _ => ofPart (.type x)⟩]
  | .expr (.unary s op operand) => node "Unary" "UnaryExpression" s
      [⟨"operator", operator op⟩, ⟨"operand", ofPart (.expr operand)⟩]
  | .expr (.binary s op left right) => node "Binary" "BinaryExpression" s
      [⟨"operator", operator op⟩, ⟨"left", ofPart (.expr left)⟩,
       ⟨"right", ofPart (.expr right)⟩]
  | .expr (.typeBinary s op left right) => node "TypeBinary" "TypeBinaryExpression" s
      [⟨"operator", operator op⟩, ⟨"left", ofPart (.expr left)⟩,
       ⟨"right", ofPart (.type right)⟩]
  | .expr (.defaultOf s type) => node "Default" "DefaultExpression" s [⟨"ty", ofPart (.type type)⟩]
  | .expr (.function s id common) => node "Function" "FunctionExpression" s
      [⟨"id", ofOption id fun x _ => ofPart (.identifier x)⟩,
       ⟨"common", ofPart (.function common)⟩]
  | .expr (.object s fields type) => node "ObjectInitializer" "ObjectInitializer" s
      [⟨"fields", ofList fields fun x _ => ofPart (.objectItem x)⟩,
       ⟨"ty", ofOption type fun x _ => ofPart (.type x)⟩]
  | .expr (.spread s e) => node "Spread" "Spread" s [⟨"expression", ofPart (.expr e)⟩]
  | .expr (.array s items type) => node "ArrayInitializer" "ArrayInitializer" s
      [⟨"items", ofList items fun item _ => ofOption item fun x _ => ofPart (.expr x)⟩,
       ⟨"ty", ofOption type fun x _ => ofPart (.type x)⟩]
  | .expr (.nodeList s children) => node "NodeListInitializer" "NodeListInitializer" s
      [⟨"children", ofList children fun x _ => ofPart (.expr x)⟩]
  | .expr (.node s id attributes children) => node "NodeInitializer" "NodeInitializer" s
      [⟨"id", ofPart (.expr id)⟩,
       ⟨"attributes", ofList attributes fun x _ => ofPart (.nodeAttribute x)⟩,
       ⟨"children", ofOption children fun es _ => ofList es fun x _ => ofPart (.expr x)⟩]
  | .expr (.member s base id optional) => node "Member" "MemberExpression" s
      [⟨"base", ofPart (.expr base)⟩, ⟨"id", ofPart (.identifier id)⟩,
       ⟨"optional", .bool optional⟩]
  | .expr (.index s base key optional) => node "Index" "IndexExpression" s
      [⟨"base", ofPart (.expr base)⟩, ⟨"key", ofPart (.expr key)⟩,
       ⟨"optional", .bool optional⟩]
  | .expr (.call s base arguments optional) => node "Call" "CallExpression" s
      [⟨"base", ofPart (.expr base)⟩,
       ⟨"arguments", ofList arguments fun x _ => ofPart (.expr x)⟩,
       ⟨"optional", .bool optional⟩]
  | .expr (.importMeta s) => mark "ImportMeta" s
  | .expr (.this s) => mark "This" s
  | .expr (.null s) => mark "Null" s
  | .expr (.super s) => mark "Super" s
  | .expr (.string s value) => node "String" "StringLiteral" s [⟨"value", .text value⟩]
  | .expr (.boolean s value) => node "Boolean" "BooleanLiteral" s [⟨"value", .bool value⟩]
  | .expr (.number s value) => node "Numeric" "NumericLiteral" s [⟨"value", number value⟩]
  | .expr (.regularExpression s body flags) => node "RegExp" "RegExpLiteral" s
      [⟨"body", .text body⟩, ⟨"flags", .text flags⟩]
  | .expr (.conditional s test consequent alternative) =>
    node "Conditional" "ConditionalExpression" s
      [⟨"test", ofPart (.expr test)⟩, ⟨"consequent", ofPart (.expr consequent)⟩,
       ⟨"alternative", ofPart (.expr alternative)⟩]
  | .expr (.parens s e) => node "Parens" "ParensExpression" s [⟨"expression", ofPart (.expr e)⟩]
  | .expr (.list s es) => node "List" "ListExpression" s
      [⟨"expressions", ofList es fun x _ => ofPart (.expr x)⟩]
  | .expr (.instantiation s base arguments) =>
    node "GenericInstantiation" "GenericInstantiationExpression" s
      [⟨"base", ofPart (.expr base)⟩,
       ⟨"arguments", ofList arguments fun x _ => ofPart (.type x)⟩]
  | .expr (.assignment s left compound right) => node "Assignment" "AssignmentExpression" s
      [⟨"left", ofPart (.target left)⟩, ⟨"compound", ofOption compound fun op _ => operator op⟩,
       ⟨"right", ofPart (.expr right)⟩]
  | .expr (.new s base arguments) => node "New" "NewExpression" s
      [⟨"base", ofPart (.expr base)⟩,
       ⟨"arguments", ofList arguments fun x _ => ofPart (.expr x)⟩]
  | .objectItem (.field s key value) => node "Field" "ObjectField" s
      [⟨"key", ofPart (.expr key)⟩, ⟨"value", ofOption value fun x _ => ofPart (.expr x)⟩]
  | .objectItem (.spread s e) => node "Spread" "Spread" s [⟨"expression", ofPart (.expr e)⟩]
  | .nodeAttribute ⟨s, id, value⟩ => struct "NodeAttribute" s
      [⟨"id", ofPart (.identifier id)⟩, ⟨"value", ofOption value fun x _ => ofPart (.expr x)⟩]
  | .target (.expression e) => .wrapped "Expression" (ofPart (.expr e))
  | .target (.pattern p) => .wrapped "Pattern" (ofPart (.pattern p))
  | .function ⟨s, usesAwait, usesYield, params, optional, rest, result, throws, body⟩ =>
    struct "FunctionCommon" s
      [⟨"uses_await", .bool usesAwait⟩, ⟨"uses_yield", .bool usesYield⟩,
       ⟨"params", ofNonempty params fun x _ => ofPart (.binding x)⟩,
       ⟨"opt_params", ofNonempty optional fun x _ => ofPart (.binding x)⟩,
       ⟨"rest_param", ofOption rest fun x _ => ofPart (.binding x)⟩,
       ⟨"return_type", ofOption result fun x _ => ofPart (.type x)⟩,
       ⟨"throws_type", ofOption throws fun x _ => ofPart (.type x)⟩,
       ⟨"body", ofOption body fun x _ => ofPart (.functionBody x)⟩]
  | .functionBody (.block b) => .wrapped "Block" (ofPart (.block b))
  | .functionBody (.expression e) => .wrapped "Expression" (ofPart (.expr e))
  | .block ⟨s, statements⟩ => struct "Block" s
      [⟨"statements", ofList statements fun x _ => ofPart (.statement x)⟩]
  | .attributes ⟨decorators, set, accessModifier⟩ => .record "DefinitionAttributes"
      [⟨"decorators", ofOption decorators fun es _ => ofList es fun x _ => ofPart (.expr x)⟩,
       ⟨"modifiers", modifiers set⟩,
       ⟨"access_modifier", ofOption accessModifier fun x _ => access x⟩]
  | .statement (.expression s e) => node "Expression" "ExpressionStatement" s
      [⟨"expression", ofPart (.expr e)⟩]
  | .statement (.empty s) => mark "Empty" s
  | .statement (.block b) => .wrapped "Block" (ofPart (.block b))
  | .statement (.superCall s arguments) => node "Super" "SuperStatement" s
      [⟨"arguments", ofList arguments fun x _ => ofPart (.expr x)⟩]
  | .statement (.importName s localName name wildcard recursive) => node "Import" "ImportStatement" s
      [⟨"alias", ofOption localName fun x _ => ofPart (.identifier x)⟩,
       ⟨"import_name", ofList name fun x _ => ofPart (.identifier x)⟩,
       ⟨"wildcard", .bool wildcard⟩, ⟨"recursive", .bool recursive⟩]
  | .statement (.ifElse s test consequent alternative) => node "If" "IfStatement" s
      [⟨"test", ofPart (.expr test)⟩, ⟨"consequent", ofPart (.statement consequent)⟩,
       ⟨"alternative", ofOption alternative fun x _ => ofPart (.statement x)⟩]
  | .statement (.doWhile s body test) => node "Do" "DoStatement" s
      [⟨"body", ofPart (.statement body)⟩, ⟨"test", ofPart (.expr test)⟩]
  | .statement (.whileDo s test body) => node "While" "WhileStatement" s
      [⟨"test", ofPart (.expr test)⟩, ⟨"body", ofPart (.statement body)⟩]
  | .statement (.breakOut s label) => node "Break" "BreakStatement" s
      [⟨"label", ofOption label fun x _ => .text x⟩]
  | .statement (.continueOn s label) => node "Continue" "ContinueStatement" s
      [⟨"label", ofOption label fun x _ => .text x⟩]
  | .statement (.returnValue s e) => node "Return" "ReturnStatement" s
      [⟨"expression", ofOption e fun x _ => ofPart (.expr x)⟩]
  | .statement (.throwValue s e) => node "Throw" "ThrowStatement" s
      [⟨"expression", ofPart (.expr e)⟩]
  | .statement (.tryCatch s block catches last) => node "Try" "TryStatement" s
      [⟨"block", ofPart (.block block)⟩,
       ⟨"catch_clauses", ofList catches fun x _ => ofPart (.catchClause x)⟩,
       ⟨"finally_block", ofOption last fun x _ => ofPart (.block x)⟩]
  | .statement (.labeled s label body) => node "Labeled" "LabeledStatement" s
      [⟨"label", .text label⟩, ⟨"statement", ofPart (.statement body)⟩]
  | .statement (.forLoop s init test update body) => node "For" "ForStatement" s
      [⟨"init", ofOption init fun x _ => ofPart (.forBinding x)⟩,
       ⟨"test", ofOption test fun x _ => ofPart (.expr x)⟩,
       ⟨"update", ofOption update fun x _ => ofPart (.expr x)⟩,
       ⟨"body", ofPart (.statement body)⟩]
  | .statement (.forIn s iteratesKeys left right body) => node "ForIn" "ForInStatement" s
      [⟨"iterates_keys", .bool iteratesKeys⟩, ⟨"left", ofPart (.forBinding left)⟩,
       ⟨"right", ofPart (.expr right)⟩, ⟨"body", ofPart (.statement body)⟩]
  | .statement (.switchValue s discriminant cases) => node "Switch" "SwitchStatement" s
      [⟨"discriminant", ofPart (.expr discriminant)⟩,
       ⟨"cases", ofList cases fun x _ => ofPart (.switchCase x)⟩]
  | .statement (.switchType s discriminant cases) => node "SwitchType" "SwitchTypeStatement" s
      [⟨"discriminant", ofPart (.expr discriminant)⟩,
       ⟨"cases", ofList cases fun x _ => ofPart (.typeCase x)⟩]
  | .statement (.includeSource s source child statements) => node "Include" "IncludeStatement" s
      [⟨"src", .text source⟩, ⟨"child_script", .wrapped "Some" child.outline⟩,
       ⟨"child_statements", ofList statements fun x _ => ofPart (.statement x)⟩]
  | .statement (.useNamespace s e) => node "UseNamespace" "UseNamespaceStatement" s
      [⟨"expression", ofPart (.expr e)⟩]
  | .statement (.useResource s bindings block) => node "UseResource" "UseResourceStatement" s
      [⟨"bindings", ofList bindings fun x _ => ofPart (.binding x)⟩,
       ⟨"block", ofPart (.block block)⟩]
  | .statement (.withObject s object body) => node "With" "WithStatement" s
      [⟨"object", ofPart (.expr object)⟩, ⟨"body", ofPart (.statement body)⟩]
  | .statement (.namespaceDef s a id block) => node "Namespace" "NamespaceDefinition" s
      [⟨"attributes", ofPart (.attributes a)⟩, ⟨"id", ofPart (.identifier id)⟩,
       ⟨"block", ofPart (.block block)⟩]
  | .statement (.namespaceAlias s a id e) => node "NamespaceAlias" "NamespaceAliasDefinition" s
      [⟨"attributes", ofPart (.attributes a)⟩, ⟨"id", ofPart (.identifier id)⟩,
       ⟨"expression", ofPart (.expr e)⟩]
  | .statement (.variableDef s a readOnly bindings) => node "Variable" "VariableDefinition" s
      [⟨"attributes", ofPart (.attributes a)⟩, ⟨"read_only", .bool readOnly⟩,
       ⟨"bindings", ofList bindings fun x _ => ofPart (.binding x)⟩]
  | .statement (.functionDef s a id generics common) => node "Function" "FunctionDefinition" s
      [⟨"attributes", ofPart (.attributes a)⟩, ⟨"id", ofPart (.identifier id)⟩,
       ⟨"generics", ofOption generics fun x _ => ofPart (.generics x)⟩,
       ⟨"common", ofPart (.function common)⟩]
  | .statement (.constructorDef s a id common) => node "Constructor" "ConstructorDefinition" s
      [⟨"attributes", ofPart (.attributes a)⟩, ⟨"id", ofPart (.identifier id)⟩,
       ⟨"common", ofPart (.function common)⟩]
  | .statement (.getterDef s a id common) => node "Getter" "GetterDefinition" s
      [⟨"attributes", ofPart (.attributes a)⟩, ⟨"id", ofPart (.identifier id)⟩,
       ⟨"common", ofPart (.function common)⟩]
  | .statement (.setterDef s a id common) => node "Setter" "SetterDefinition" s
      [⟨"attributes", ofPart (.attributes a)⟩, ⟨"id", ofPart (.identifier id)⟩,
       ⟨"common", ofPart (.function common)⟩]
  | .statement (.proxyDef s a id op common) => node "Proxy" "ProxyDefinition" s
      [⟨"attributes", ofPart (.attributes a)⟩, ⟨"id", ofPart (.identifier id)⟩,
       ⟨"operator", operator op⟩, ⟨"common", ofPart (.function common)⟩]
  | .statement (.classDef s a id isValue isAlgebraic generics extended implemented block) =>
    node "Class" "ClassDefinition" s
      [⟨"attributes", ofPart (.attributes a)⟩, ⟨"id", ofPart (.identifier id)⟩,
       ⟨"is_value", .bool isValue⟩, ⟨"is_algebraic", .bool isAlgebraic⟩,
       ⟨"generics", ofOption generics fun x _ => ofPart (.generics x)⟩,
       ⟨"extends_type", ofOption extended fun x _ => ofPart (.type x)⟩,
       ⟨"implements_list", ofNonempty implemented fun x _ => ofPart (.type x)⟩,
       ⟨"block", ofPart (.block block)⟩]
  | .statement (.interfaceDef s a id generics extended block) =>
    node "Interface" "InterfaceDefinition" s
      [⟨"attributes", ofPart (.attributes a)⟩, ⟨"id", ofPart (.identifier id)⟩,
       ⟨"generics", ofOption generics fun x _ => ofPart (.generics x)⟩,
       ⟨"extends_list", ofNonempty extended fun x _ => ofPart (.type x)⟩,
       ⟨"block", ofPart (.block block)⟩]
  | .statement (.enumDef s a id isFlags numericType block) => node "Enum" "EnumDefinition" s
      [⟨"attributes", ofPart (.attributes a)⟩, ⟨"id", ofPart (.identifier id)⟩,
       ⟨"is_flags", .bool isFlags⟩,
       ⟨"numeric_type", ofOption numericType fun x _ => ofPart (.type x)⟩,
       ⟨"block", ofPart (.block block)⟩]
  | .statement (.typeDef s a id generics type) => node "Type" "TypeDefinition" s
      [⟨"attributes", ofPart (.attributes a)⟩, ⟨"id", ofPart (.identifier id)⟩,
       ⟨"generics", ofOption generics fun x _ => ofPart (.generics x)⟩,
       ⟨"ty", ofPart (.type type)⟩]
  | .catchClause ⟨s, pattern, block⟩ => struct "CatchClause" s
      [⟨"pattern", ofPart (.pattern pattern)⟩, ⟨"block", ofPart (.block block)⟩]
  | .forBinding (.variable d) => .wrapped "Variable" (ofPart (.declaration d))
  | .forBinding (.expression e) => .wrapped "Expression" (ofPart (.expr e))
  | .declaration ⟨s, readOnly, bindings⟩ => struct "SimpleVariableDeclaration" s
      [⟨"read_only", .bool readOnly⟩,
       ⟨"bindings", ofList bindings fun x _ => ofPart (.binding x)⟩]
  | .switchCase ⟨s, test, consequent⟩ => struct "SwitchCase" s
      [⟨"test", ofOption test fun x _ => ofPart (.expr x)⟩,
       ⟨"consequent", ofList consequent fun x _ => ofPart (.statement x)⟩]
  | .typeCase ⟨s, pattern, block⟩ => struct "SwitchTypeCase" s
      [⟨"pattern", ofOption pattern fun x _ => ofPart (.pattern x)⟩,
       ⟨"block", ofPart (.block block)⟩]
  | .package ⟨s, id, block⟩ => struct "PackageDefinition" s
      [⟨"id", ofList id fun x _ => .text x⟩, ⟨"block", ofPart (.block block)⟩]
  | .program ⟨s, packages, statements⟩ => struct "Program" s
      [⟨"packages", ofList packages fun x _ => ofPart (.package x)⟩,
       ⟨"statements", ofNonempty statements fun x _ => ofPart (.statement x)⟩]
termination_by part => sizeOf part
decreasing_by
  all_goals subst_vars
  all_goals first
    | have hmem := List.sizeOf_lt_of_mem ‹_ ∈ _›
      simp at hmem ⊢
      omega
    | simp; omega
    | simp

end Outline

end ActionSyntax
