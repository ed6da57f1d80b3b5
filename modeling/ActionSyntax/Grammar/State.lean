import ActionSyntax.Scanner

/-!
The state of a parser and its elementary steps: looking at the current token, consuming it,
recording problems, and measuring the source a node covers. A step that stops keeps the state it
stopped in, since problems found before are still to be reported.
-/

namespace ActionSyntax

set_option autoImplicit false

/-- What the innermost function has been seen to use. -/
structure FunctionUse where
  usesAwait : Bool := false
  usesYield : Bool := false
deriving DecidableEq, Repr, Inhabited

/-- The functions are those around the current place, the innermost first. `superFound` tells
whether the block being read has called the super constructor. -/
structure ParserState where
  scanner : Scanner
  previous : Token
  functions : List FunctionUse
  superFound : Bool

/-- Why parsing stopped: at a problem, or because nested rules used up the given depth. -/
inductive Stop where
  | problem (problem : Problem)
  | exhausted
deriving DecidableEq, Repr

abbrev Parse := EStateM Stop ParserState

namespace ParserState

def script (s : ParserState) : Script := s.scanner.script

def token (s : ParserState) : Token := s.scanner.token

/-- Before the first token has been read. -/
def ofScript (script : Script) : ParserState where
  scanner := Scanner.ofScript script
  previous := Token.initial
  functions := []
  superFound := false

def collect (s : ParserState) (problem : Problem) : ParserState :=
  { s with scanner := { s.scanner with script := s.scanner.script.collect problem } }

/-- The current token stands on the line where the previous one ends. -/
def onSameLine (s : ParserState) : Bool := s.previous.span.lastLine == s.token.span.firstLine

/-- The line of the current token is indented further than the line of the previous one. -/
def indentedFurther (s : ParserState) : Bool :=
  s.script.lineIndent s.previous.span.firstLine < s.script.lineIndent s.token.span.firstLine

/-- The current token may continue the expression before it. -/
def continues (s : ParserState) : Bool :=
  s.previous.span.firstLine == s.token.span.firstLine || s.indentedFurther

/-- The statement before the current token is over without a semicolon: it ends with a brace, or the
current token begins a line that is not indented further. -/
def endsStatement (s : ParserState) : Bool :=
  s.previous.kind == .rightBrace || (!s.onSameLine && !s.indentedFurther)

end ParserState

/-- Where a node begins. -/
structure Mark where
  line : Nat
  start : Nat
deriving DecidableEq, Repr

namespace Mark

def ofSpan (span : Span) : Mark := ⟨span.firstLine, span.start⟩

def «to» (m : Mark) (stop : Span) : Span := ⟨m.line, stop.lastLine, m.start, stop.stop⟩

end Mark

namespace Parse

def exhausted {α : Type} : Parse α := throw .exhausted

def token : Parse Token := do return (← get).token

def previous : Parse Token := do return (← get).previous

def kind : Parse TokenKind := do return (← get).token.kind

/-- Whether the current token is of a kind. -/
def at? (kind : TokenKind) : Parse Bool := do return (← get).token.kind == kind

def atKeyword? (word : String) : Parse Bool := do return (← get).token.isKeyword word

def atOperator? (op : Operator) : Parse Bool := do return (← get).token.isOperator op

/-- Runs a step of the scanner. -/
def scan (step : Scanner → Except Problem Unit × Scanner) : Parse Unit := fun s =>
  match step s.scanner with
  | (.ok (), scanner) => .ok () { s with scanner }
  | (.error problem, scanner) => .error (.problem problem) { s with scanner }

/-- Makes the current token the previous one and reads the next. -/
def next : Parse Unit := do
  modify fun s => { s with previous := s.token }
  scan Scanner.next

def report (severity : Severity) (id : ProblemId) (span : Span)
    (arguments : List (String × Argument) := []) : Parse Unit :=
  modify fun s => s.collect { id, severity, span, arguments }

def syntaxError (id : ProblemId) (span : Span) : Parse Unit := report .syntaxError id span

def verifyError (id : ProblemId) (span : Span) : Parse Unit := report .verifyError id span

/-- Records a problem and stops at it. -/
def stopAt {α : Type} (id : ProblemId) (span : Span)
    (arguments : List (String × Argument) := []) : Parse α := do
  let problem : Problem := { id, severity := .syntaxError, span, arguments }
  modify fun s => s.collect problem
  throw (.problem problem)

/-- Stops because the current token cannot stand here. -/
def unexpected {α : Type} : Parse α := do
  let token ← token
  stopAt .unexpected token.span [("t", Argument.ofToken token)]

/-- Consumes the current token if it meets a condition. -/
def consumeIf (condition : Token → Bool) : Parse Bool := do
  if condition (← token) then
    next
    return true
  else
    return false

def consume (kind : TokenKind) : Parse Bool := consumeIf fun t => t.kind == kind

/-- Consumes a name. The name is left in the previous token. -/
def consumeIdentifier : Parse Bool := consume .identifier

def isWord (t : Token) : Bool := t.kind == .identifier || t.kind == .keyword

def consumeOperator (op : Operator) : Parse Bool := consumeIf fun t => t.isOperator op

def consumeKeyword (word : String) : Parse Bool := consumeIf fun t => t.isKeyword word

def consumeContextKeyword (word : String) : Parse Bool := consumeIf fun t => t.isContextKeyword word

def expectIf (condition : Token → Bool) : Parse Unit := do
  if !(← consumeIf condition) then unexpected

def expect (kind : TokenKind) : Parse Unit := expectIf fun t => t.kind == kind

def expectOperator (op : Operator) : Parse Unit := expectIf fun t => t.isOperator op

def expectKeyword (word : String) : Parse Unit := expectIf fun t => t.isKeyword word

def expectContextKeyword (word : String) : Parse Unit := expectIf fun t => t.isContextKeyword word

/-- The name that has just been consumed. -/
def expectName : Parse String := do
  expect .identifier
  return (← previous).text

/-- What is left of a token when its first `>` is taken away. -/
def afterGreater? (t : Token) : Option (TokenKind × Option Operator) :=
  match t.kind, t.operator with
  | .operator, some .greaterOrEqual => some (.assign, none)
  | .operator, some .shiftRight => some (.operator, some .greater)
  | .operator, some .shiftRightUnsigned => some (.operator, some .shiftRight)
  | .compoundAssignment, some .shiftRight => some (.operator, some .greaterOrEqual)
  | .compoundAssignment, some .shiftRightUnsigned => some (.compoundAssignment, some .shiftRight)
  | _, _ => none

/-- The first `>` of a longer token. -/
def firstGreater (t : Token) : Token where
  kind := .operator
  operator := some .greater
  span := Span.onLine t.span.firstLine t.span.start (t.span.start + 1)

/-- Consumes `>`, also where it begins a longer token; the rest of that token is then current. -/
def expectGreater : Parse Unit := do
  if ← consumeOperator .greater then return
  let t ← token
  match afterGreater? t with
  | none => unexpected
  | some (kind, operator) =>
    let rest := { t with kind, operator, span := { t.span with start := t.span.start + 1 } }
    modify fun s =>
      { s with previous := firstGreater t, scanner := { s.scanner with token := rest } }

/-- Tries to end a statement, by a semicolon or by layout. -/
def endStatement : Parse Bool := do
  if ← consume .semicolon then return true
  return (← get).endsStatement

/-- Stops unless everything has been read. -/
def expectEnd : Parse Unit := do
  if !(← at? .endOfProgram) then unexpected

/-- Begins a node at the current token. -/
def mark : Parse Mark := do return Mark.ofSpan (← token).span

/-- The range from a mark to the end of the previous token. -/
def finish (m : Mark) : Parse Span := do return m.«to» (← previous).span

def pushFunction : Parse Unit := modify fun s => { s with functions := {} :: s.functions }

/-- Leaves the innermost function and tells what it used. -/
def popFunction : Parse FunctionUse := do
  let s ← get
  set { s with functions := s.functions.tail }
  return s.functions.head?.getD {}

/-- Reads the body of a function and tells what it used. A body that stops is not left. -/
def inFunction {α : Type} (body : Parse α) : Parse (α × FunctionUse) := do
  pushFunction
  let value ← body
  return (value, ← popFunction)

/-- Reads a block that has not called the super constructor yet; how that stands outside of it is
restored afterwards, also when the block stops. -/
def freshSuper {α : Type} (body : Parse α) : Parse α := fun s =>
  match body { s with superFound := false } with
  | .ok value t => .ok value { t with superFound := s.superFound }
  | .error stop t => .error stop { t with superFound := s.superFound }

/-- Items separated by commas, at least one. -/
def separated {α : Type} (item : Parse α) : Nat → Parse (List α)
  | 0 => exhausted
  | fuel + 1 => do
    let first ← item
    if ← consume .comma then return first :: (← separated item fuel)
    else return [first]

/-- Items separated by commas up to a closing token, which stays. The last may have a comma. -/
def separatedUntil {α : Type} (closing : TokenKind) (item : Parse α) : Nat → Parse (List α)
  | 0 => exhausted
  | fuel + 1 => do
    if ← at? closing then return []
    let first ← item
    if ← consume .comma then return first :: (← separatedUntil closing item fuel)
    else return [first]

/-- Values as long as the step finds one. -/
def collectWhile {α : Type} (step : Parse (Option α)) : Nat → Parse (List α)
  | 0 => exhausted
  | fuel + 1 => do
    match ← step with
    | none => return []
    | some first => return first :: (← collectWhile step fuel)

end Parse

end ActionSyntax
