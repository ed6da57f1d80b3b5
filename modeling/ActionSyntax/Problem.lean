import ActionSyntax.Text.Capitals
import ActionSyntax.Token

/-!
Problems found in a program, and the wording of their messages. A message is a template in which
`$name` stands for an argument of the problem and `$$` for a dollar sign.
-/

namespace ActionSyntax

set_option autoImplicit false

inductive Severity where
  | warning | syntaxError | verifyError
deriving DecidableEq, Repr, Inhabited

def Severity.title : Severity → String
  | .warning => "Warning"
  | .syntaxError => "SyntaxError"
  | .verifyError => "VerifyError"

inductive ProblemId where
  | unexpected
  | invalidOrUnexpected
  | keywordMustNotContainEscapes
  | stringMustNotContainLineBreaks
  | requiredParamMustntFollowOptParam
  | invalidDestructuringAssignmentTarget
  | awaitMustntAppearInGenerator
  | yieldMustntAppearInAsyncFunction
  | throwsClauseMustntRepeat
  | undefinedLabel
  | tryStatementMustveAtLeast
  | malformedForInBinding
  | unexpectedSuperStatement
  | tokenMustBeInline
  | enumVariantDeclarationsMustBeConst
  | enumVariantMustBeSimple
  | definitionInUnallowedContext
  | yieldUnexpectedHere
  | definitionMustntHaveModifier
  | nativeFunctionMustntHaveBody
  | functionMustveBody
  | interfaceMethodMustveNoAttributes
  | proxyHasWrongNumParams
  | unrecognizedProxy
  | extendsClauseMustntDuplicate
  | failedToResolveInclude
  | functionMustNotUseAwait
  | functionMustNotUseYield
  | invalidArrowFunctionParam
  | restParamMustntHaveInit
  | valueClassMustntExtend
  | valueClassMustntImplement
  | illegalBreakStatement
  | illegalContinueStatement
deriving DecidableEq, Repr, Inhabited

namespace ProblemId

def all : List ProblemId :=
  [.unexpected, .invalidOrUnexpected, .keywordMustNotContainEscapes,
   .stringMustNotContainLineBreaks, .requiredParamMustntFollowOptParam,
   .invalidDestructuringAssignmentTarget, .awaitMustntAppearInGenerator,
   .yieldMustntAppearInAsyncFunction, .throwsClauseMustntRepeat, .undefinedLabel,
   .tryStatementMustveAtLeast, .malformedForInBinding, .unexpectedSuperStatement,
   .tokenMustBeInline, .enumVariantDeclarationsMustBeConst, .enumVariantMustBeSimple,
   .definitionInUnallowedContext, .yieldUnexpectedHere, .definitionMustntHaveModifier,
   .nativeFunctionMustntHaveBody, .functionMustveBody, .interfaceMethodMustveNoAttributes,
   .proxyHasWrongNumParams, .unrecognizedProxy, .extendsClauseMustntDuplicate,
   .failedToResolveInclude, .functionMustNotUseAwait, .functionMustNotUseYield,
   .invalidArrowFunctionParam, .restParamMustntHaveInit, .valueClassMustntExtend,
   .valueClassMustntImplement, .illegalBreakStatement, .illegalContinueStatement]

/-- The stable name by which tools know the problem. -/
def key : ProblemId → String
  | .unexpected => "unexpected"
  | .invalidOrUnexpected => "invalidOrUnexpected"
  | .keywordMustNotContainEscapes => "keywordMustNotContainEscapes"
  | .stringMustNotContainLineBreaks => "stringMustNotContainLineBreaks"
  | .requiredParamMustntFollowOptParam => "requiredParamMustntFollowOptParam"
  | .invalidDestructuringAssignmentTarget => "invalidDestructuringAssignmentTarget"
  | .awaitMustntAppearInGenerator => "awaitMustntAppearInGenerator"
  | .yieldMustntAppearInAsyncFunction => "yieldMustntAppearInAsyncFunction"
  | .throwsClauseMustntRepeat => "throwsClauseMustntRepeat"
  | .undefinedLabel => "undefinedLabel"
  | .tryStatementMustveAtLeast => "tryStatementMustveAtLeast"
  | .malformedForInBinding => "malformedForInBinding"
  | .unexpectedSuperStatement => "unexpectedSuperStatement"
  | .tokenMustBeInline => "tokenMustBeInline"
  | .enumVariantDeclarationsMustBeConst => "enumVariantDeclarationsMustBeConst"
  | .enumVariantMustBeSimple => "enumVariantMustBeSimple"
  | .definitionInUnallowedContext => "definitionInUnallowedContext"
  | .yieldUnexpectedHere => "yieldUnexpectedHere"
  | .definitionMustntHaveModifier => "definitionMustntHaveModifier"
  | .nativeFunctionMustntHaveBody => "nativeFunctionMustntHaveBody"
  | .functionMustveBody => "functionMustveBody"
  | .interfaceMethodMustveNoAttributes => "interfaceMethodMustveNoAttributes"
  | .proxyHasWrongNumParams => "proxyHasWrongNumParams"
  | .unrecognizedProxy => "unrecognizedProxy"
  | .extendsClauseMustntDuplicate => "extendsClauseMustntDuplicate"
  | .failedToResolveInclude => "failedToResolveInclude"
  | .functionMustNotUseAwait => "functionMustNotUseAwait"
  | .functionMustNotUseYield => "functionMustNotUseYield"
  | .invalidArrowFunctionParam => "invalidArrowFunctionParam"
  | .restParamMustntHaveInit => "restParamMustntHaveInit"
  | .valueClassMustntExtend => "valueClassMustntExtend"
  | .valueClassMustntImplement => "valueClassMustntImplement"
  | .illegalBreakStatement => "illegalBreakStatement"
  | .illegalContinueStatement => "illegalContinueStatement"

/-- The message template of a problem. -/
def template : ProblemId → String
  | .unexpected => "Unexpected $t"
  | .invalidOrUnexpected => "Invalid or unexpected token"
  | .keywordMustNotContainEscapes => "Keyword must not contain escaped characters"
  | .stringMustNotContainLineBreaks => "String must not contain line breaks"
  | .requiredParamMustntFollowOptParam => "Required parameter must not follow optional parameter"
  | .invalidDestructuringAssignmentTarget => "Invalid destructuring assignment target"
  | .awaitMustntAppearInGenerator => "'await' must not appear in generator"
  | .yieldMustntAppearInAsyncFunction => "'yield' must not appear in asynchronous function"
  | .throwsClauseMustntRepeat => "'throws' clause must not repeat"
  | .undefinedLabel => "Undefined label '$label'"
  | .tryStatementMustveAtLeast =>
    "Try statement must have at least one 'catch' or 'finally' clause"
  | .malformedForInBinding => "Mal-formed for..in binding"
  | .unexpectedSuperStatement => "Unexpected super statement"
  | .tokenMustBeInline => "Token must be inline"
  | .enumVariantDeclarationsMustBeConst => "Enum variant declarations must be constant"
  | .enumVariantMustBeSimple => "Enum variant must be simple"
  | .definitionInUnallowedContext => "Definition appears in unallowed context"
  | .yieldUnexpectedHere => "'yield' operator unexpected here"
  | .definitionMustntHaveModifier => "Definition must not have modifier '$m'"
  | .nativeFunctionMustntHaveBody => "Native function must not have body"
  | .functionMustveBody => "Function must have body"
  | .interfaceMethodMustveNoAttributes => "Interface method must have no attributes"
  | .proxyHasWrongNumParams => "Proxy method has wrong number of parameters"
  | .unrecognizedProxy => "Unrecognized proxy '$p'"
  | .extendsClauseMustntDuplicate => "'extends' clause must not duplicate"
  | .failedToResolveInclude => "Failed to resolve include source"
  | .functionMustNotUseAwait => "Function must not use 'await'"
  | .functionMustNotUseYield => "Function must not use 'yield'"
  | .invalidArrowFunctionParam => "Invalid arrow function parameter"
  | .restParamMustntHaveInit => "Rest parameter must not have initializer"
  | .valueClassMustntExtend => "Value class must not have 'extends' clause"
  | .valueClassMustntImplement => "Value class must not have 'implements' clause"
  | .illegalBreakStatement => "Illegal break statement"
  | .illegalContinueStatement =>
    "Illegal continue statement: no surrounding iteration statement"

end ProblemId

/-- What a message may mention: a piece of text, or a token by its kind, operator and text. -/
inductive Argument where
  | text (value : String)
  | token (kind : TokenKind) (operator : Option Operator) (value : String)
deriving DecidableEq, Repr, Inhabited

namespace Argument

def ofKind (kind : TokenKind) : Argument := .token kind none ""

def ofToken (t : Token) : Argument := .token t.kind t.operator t.text

/-- Operators read as their symbol, compound assignments with `=` behind it, keywords in quotes, and
other tokens as their kind. -/
def render : Argument → String
  | .text value => value
  | .token .operator (some op) _ => op.symbol
  | .token .compoundAssignment (some op) _ => op.symbol ++ "="
  | .token .keyword _ value => "'" ++ value ++ "'"
  | .token kind _ _ => kind.description

end Argument

structure Problem where
  id : ProblemId
  severity : Severity
  span : Span
  arguments : List (String × Argument) := []
deriving DecidableEq, Repr, Inhabited

namespace Problem

def isWarning (p : Problem) : Bool := p.severity == .warning

/-- The first argument of that name. -/
def argument? (p : Problem) (name : String) : Option Argument := p.arguments.lookup name

end Problem

namespace Template

def isNameChar (ch : Char) : Bool :=
  ('a' ≤ ch && ch ≤ 'z') || ('A' ≤ ch && ch ≤ 'Z') || ('0' ≤ ch && ch ≤ '9') ||
    ch == '_' || ch == '-'

/-- A piece of a template. -/
inductive Piece where
  | literal (ch : Char)
  | placeholder (name : List Char)
deriving DecidableEq, Repr

/-- Where the reading of a template stands: in plain text, behind a dollar sign, or in a name, whose
characters are kept newest first. -/
inductive Mode where
  | plain
  | dollar
  | name (read : List Char)

/-- Splits a template. A dollar sign that no name or second dollar follows stands for itself. -/
def pieces : Mode → List Char → List Piece
  | .plain, [] => []
  | .dollar, [] => [.literal '$']
  | .name read, [] => [.placeholder read.reverse]
  | .plain, ch :: rest =>
    if ch == '$' then pieces .dollar rest else .literal ch :: pieces .plain rest
  | .dollar, ch :: rest =>
    if ch == '$' then .literal '$' :: pieces .plain rest
    else if isNameChar ch then pieces (.name [ch]) rest
    else .literal '$' :: .literal ch :: pieces .plain rest
  | .name read, ch :: rest =>
    if isNameChar ch then pieces (.name (ch :: read)) rest
    else if ch == '$' then .placeholder read.reverse :: pieces .dollar rest
    else .placeholder read.reverse :: .literal ch :: pieces .plain rest

def Piece.render (lookup : String → String) : Piece → List Char
  | .literal ch => [ch]
  | .placeholder name => (lookup (String.ofList name)).toList

/-- Puts the value of each placeholder in its place; values are not looked at again. -/
def substitute (lookup : String → String) (template : String) : String :=
  String.ofList ((pieces .plain template.toList).flatMap (Piece.render lookup))

end Template

namespace Problem

/-- The message under a given template. A placeholder without an argument reads `undefined`. -/
def messageBy (template : String) (p : Problem) : String :=
  Capitals.capitalize <| Template.substitute
    (fun name => ((p.argument? name).map Argument.render).getD "undefined") template

def message (p : Problem) : String := p.messageBy p.id.template

end Problem

end ActionSyntax
