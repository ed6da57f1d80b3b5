import ActionSyntax.Grammar.Definitions
import ActionSyntax.Grammar.Jumps
import ActionSyntax.Grammar.Loops

/-!
Statements and blocks. A statement sequence stops behind a statement that was not properly ended.
-/

namespace ActionSyntax.Rules

set_option autoImplicit false

open Parse

/-- The statements of a block, up to its closing brace. -/
def blockStatements (r : Rules) (context : Context) : Nat → Parse (List Statement)
  | 0 => exhausted
  | fuel + 1 => do
    if ← at? .rightBrace then return []
    let (first, ended) ← r.statement context
    if ended then return first :: (← r.blockStatements context fuel) else return [first]

def blockRule (r : Rules) (context : Context) : Parse Block := freshSuper do
  let m ← mark
  expect .leftBrace
  let statements ← r.blockStatements context r.rounds
  expect .rightBrace
  return { span := ← finish m, statements }

/-- A statement out of an expression. -/
def expressionStatement (e : Expr) : Parse Ended := do
  let ended ← endStatement
  return (.expression (← finish (Mark.ofSpan e.span)) e, ended)

def optExpressionStatement (r : Rules) : Parse (Option Ended) := do
  match ← r.optExprRule {} with
  | some e => return some (← expressionStatement e)
  | none => return none

/-- The super constructor may be called once, directly in the block of a constructor. -/
def noteSuper (context : Context) (span : Span) : Parse Unit := do
  let s ← get
  if !context.isConstructor || s.superFound then syntaxError .unexpectedSuperStatement span
  else set { s with superFound := true }

def superStatement (r : Rules) (context : Context) : Parse Ended := do
  let m ← mark
  next
  if ← consume .leftParen then
    let arguments ← r.arguments
    let ended ← endStatement
    let span ← finish m
    noteSuper context span
    return (.superCall span arguments, ended)
  else
    let e ← r.continued (.super (← finish m))
    expressionStatement e

/-- What ends the name of an import. -/
inductive ImportEnd where
  | name | wildcard | recursive
deriving DecidableEq, Repr

/-- Further parts of the name of an import, each behind a dot. -/
def importParts : Nat → Parse (List Identifier × ImportEnd)
  | 0 => exhausted
  | fuel + 1 => do
    if ← consume .dot then
      if ← consumeOperator .multiply then return ([], .wildcard)
      if ← consumeOperator .power then return ([], .recursive)
      let first ← wordIdentifier
      let (rest, ending) ← importParts fuel
      return (first :: rest, ending)
    else return ([], .name)

/-- The alias of an import, if it has one, and the first part of its name. -/
def importHead : Parse (Option Identifier × Identifier) := do
  let id ← identifier
  if ← at? .dot then return (none, id)
  expect .assign
  let first ← identifier
  if !(← at? .dot) then unexpected
  return (some id, first)

def importStatement (r : Rules) : Parse Ended := do
  let m ← mark
  next
  if ← consume .dot then
    expectContextKeyword "meta"
    let e ← r.continued (.importMeta (← finish m))
    return ← expressionStatement e
  let (localName, first) ← importHead
  let (rest, ending) ← importParts r.rounds
  let ended ← endStatement
  return (.importName (← finish m) localName (first :: rest) (ending == .wildcard)
    (ending == .recursive), ended)

def returnStatement (r : Rules) : Parse Ended := do
  let m ← mark
  next
  let ended ← endStatement
  let value ← if !ended && (← get).onSameLine then r.optExpr {} else pure none
  let ended ← if value.isSome then endStatement else pure ended
  return (.returnValue (← finish m) value, ended)

def throwStatement (r : Rules) : Parse Ended := do
  let m ← mark
  next
  let e ← r.expr {}
  let ended ← endStatement
  return (.throwValue (← finish m) e, ended)

/-- A `catch` clause, if one stands here. -/
def catchClause? (r : Rules) (context : Context) : Parse (Option CatchClause) := do
  if !(← atKeyword? "catch") then return none
  let m ← mark
  next
  expect .leftParen
  let pattern ← r.pattern
  expect .rightParen
  let block ← r.block context.nested
  return some { span := ← finish m, pattern, block }

def tryStatement (r : Rules) (context : Context) : Parse Ended := do
  let m ← mark
  next
  let block ← r.block context.nested
  let catches ← collectWhile (r.catchClause? context) r.rounds
  let last ← if ← consumeKeyword "finally" then some <$> r.block context.nested else pure none
  let span ← finish m
  if catches.isEmpty && last.isNone then syntaxError .tryStatementMustveAtLeast span
  return (.tryCatch span block catches last, true)

def useResourceStatement (r : Rules) (context : Context) (m : Mark) : Parse Ended := do
  expect .leftParen
  let bindings ← separatedUntil .rightParen r.variableBinding r.rounds
  expect .rightParen
  let block ← r.block context.nested
  return (.useResource (← finish m) bindings block, true)

def useStatement (r : Rules) (context : Context) : Parse Ended := do
  let m ← mark
  next
  if ← consumeContextKeyword "resource" then return ← r.useResourceStatement context m
  expectContextKeyword "namespace"
  let e ← r.expr {}
  let ended ← endStatement
  return (.useNamespace (← finish m) e, ended)

def withStatement (r : Rules) (context : Context) : Parse Ended := do
  let m ← mark
  next
  let object ← r.headExpr
  let (body, ended) ← r.statement context.nested
  return (.withObject (← finish m) object body, ended)

/-- The text of a source to include. One that cannot be read counts as empty. -/
def includedText (r : Rules) (path : String) (span : Span) : Parse String :=
  match r.readFile path with
  | some text => return text
  | none => do
    verifyError .failedToResolveInclude span
    return ""

/-- Notes a script as included. -/
def addIncluded (child : Script) : Parse Unit :=
  modify fun s =>
    { s with scanner := { s.scanner with script := s.scanner.script.addIncluded child } }

/-- The inclusion of a file, at the string that names it. -/
def includeStatement (r : Rules) (context : Context) (m : Mark) (source : String) :
    Parse Ended := do
  next
  let ended ← endStatement
  let span ← finish m
  let path := Path.resolveInclude (← get).script.path source
  let text ← r.includedText path span
  let (child, statements) ← r.included context (Script.ofSource path text)
  addIncluded child
  return (.includeSource span source child statements, ended)

def labeledStatement (r : Rules) (context : Context) (m : Mark) (label : String) :
    Parse Ended := do
  let (statement, ended) ← r.statement (context.withLabel label)
  return (.labeled (← finish m) label statement, ended)

/-- A statement whose first token is a name, which has just been consumed. -/
def identifierStatement (r : Rules) (context : Context) (m : Mark) : Parse Ended := do
  let label := (← previous).text
  if ← consume .colon then return ← r.labeledStatement context m label
  let s ← get
  let name := s.previous
  let t := s.token
  if s.onSameLine && t.kind == .string && name.isContextKeyword "include" then
    return ← r.includeStatement context m t.text
  if s.onSameLine && t.kind == .identifier && Words.isSoftDefinition name then
    return ← r.definition {} context m
  let facing := s.onSameLine && (t.kind == .identifier || Words.beginsDefinition t)
  match (Words.modifier? name).filter fun _ => facing with
  | some modifier =>
    r.modifiedDefinition { modifiers := Modifiers.empty.insert modifier } context m
  | none =>
    let first ← r.identifierPrimary true
    let e ← r.continued first
    expressionStatement e

/-- Whether an expression can be a list of decorators: `[A]`, or `[A][B]` and so on. -/
def isDecorators : Expr → Bool
  | .array _ _ type => type.isNone
  | .index _ base _ optional => !optional && isDecorators base
  | _ => false

def isSpread : Expr → Bool
  | .spread .. => true
  | _ => false

/-- The expressions of a comma list, or the expression alone. -/
def listItems : Expr → List Expr
  | .list _ expressions => expressions
  | e => [e]

/-- The decorators in a list of decorators. Holes and spread items are none. -/
def decoratorsOf : Expr → List Expr
  | .array _ items _ => (items.filterMap id).filter (!isSpread ·)
  | .index _ base key _ => decoratorsOf base ++ listItems key
  | _ => []

/-- More bracketed expressions, as long as all before can be decorators. -/
def moreBrackets (r : Rules) : Nat → List Expr → Parse (List Expr)
  | 0, _ => exhausted
  | fuel + 1, read => do
    let decorating := (read.getLast?.map isDecorators).getD false
    if decorating && (← get).token.kind == .leftBracket then
      let e ← r.expr {}
      r.moreBrackets fuel (read ++ [e])
    else return read

/-- A statement that begins with a bracket: a definition behind its decorators, or an expression. -/
def bracketStatement (r : Rules) (context : Context) (m : Mark) : Parse Ended := do
  let first ← r.exprRule {}
  let all ← r.moreBrackets r.rounds [first]
  let t ← token
  if all.all isDecorators && Words.beginsDecorated t then
    r.modifiedDefinition { decorators := some (all.flatMap decoratorsOf) } context m
  else
    match all with
    | [single] => expressionStatement single
    | several => expressionStatement (.list (← finish m) several)

/-- A statement whose first token is a reserved word. -/
def keywordStatement (r : Rules) (context : Context) (m : Mark) (t : Token) :
    Parse (Option Ended) := do
  match t.text with
  | "super" => some <$> r.superStatement context
  | "import" => some <$> r.importStatement
  | "if" => some <$> r.ifStatement context
  | "do" => some <$> r.doStatement context
  | "while" => some <$> r.whileStatement context
  | "break" => some <$> breakStatement context
  | "continue" => some <$> continueStatement context
  | "return" => some <$> r.returnStatement
  | "throw" => some <$> r.throwStatement
  | "try" => some <$> r.tryStatement context
  | "for" => some <$> r.forStatement context
  | "switch" => some <$> r.switchStatement context
  | "use" => some <$> r.useStatement context
  | "with" => some <$> r.withStatement context
  | _ =>
    if Words.beginsDefinition t then some <$> r.modifiedDefinition {} context m
    else r.optExpressionStatement

/-- A statement, or nothing where none can begin. -/
def optStatement (r : Rules) (context : Context) : Parse (Option Ended) := do
  let m ← mark
  let t ← token
  match t.kind with
  | .keyword => r.keywordStatement context m t
  | .identifier =>
    next
    some <$> r.identifierStatement context m
  | .leftBrace =>
    let block ← r.blockRule context.nested
    return some (.block block, true)
  | .semicolon =>
    next
    return some (.empty t.span, true)
  | .leftBracket => some <$> r.bracketStatement context m
  | _ => r.optExpressionStatement

def statementRule (r : Rules) (context : Context) : Parse Ended := do
  match ← r.optStatement context with
  | some found => return found
  | none => unexpected

end ActionSyntax.Rules
