import ActionSyntax.Grammar.Program

/-!
The rules of the grammar, tied to each other. The rules of a level use those of the level below for
what is nested inside, and every use comes after at least one token, so a level above the length of
the text is never used up. Files that are included take a depth of their own.
-/

namespace ActionSyntax

set_option autoImplicit false

namespace Rules

/-- The rules that use the given ones for what is nested inside. -/
def above (r : Unit → Rules) (depth : Nat) : Rules where
  depth
  typeExpr s := (r ()).typeExprRule s
  optExpr mode s := (r ()).optExprRule mode s
  optPrimary allowTyped level s := (r ()).optPrimaryRule allowTyped level s
  node s := (r ()).nodeRule false s
  block context s := (r ()).blockRule context s
  statement context s := (r ()).statementRule context s
  readFile path := (r ()).readFile path
  included context script s := (r ()).included context script s

end Rules

/-- The files that can be included, and how deep inclusion may go. Which file an inclusion asks for is
no choice of the host: its path is always resolved by `Path.resolveInclude`. -/
structure Host where
  readFile : String → Option String
  includeDepth : Nat

namespace Host

/-- Some files, each by its path. As many of them can include each other without a cycle. -/
def ofFiles (files : List (String × String)) : Host where
  readFile path := files.lookup path
  includeDepth := files.length + 1

end Host

/-- How an included script is read in place. -/
abbrev IncludeRule := Context → Script → Parse (Script × List Statement)

namespace Rules

/-- The rules of a level, over the rule for included scripts. -/
def level (readFile : String → Option String) (included : IncludeRule) : Nat → Rules
  | 0 => { spent readFile with included }
  | n + 1 => above (fun _ => level readFile included n) (n + 1)

section Level

variable {readFile : String → Option String} {included : IncludeRule}

theorem level_depth (n : Nat) : (level readFile included n).depth = n := by
  cases n <;> rfl

theorem level_readFile : ∀ n, (level readFile included n).readFile = readFile
  | 0 => rfl
  | n + 1 => level_readFile n

theorem level_included : ∀ n, (level readFile included n).included = included
  | 0 => rfl
  | n + 1 => level_included n

end Level

/-- Enough levels for a text. -/
def levelFor (script : Script) : Nat := script.content.length + 3

/-- What came out of reading statements: those that were read, and why reading stopped. -/
structure Outcome where
  statements : List Statement
  stop : Option Stop
  state : ParserState

/-- Reads statements to the end of an included script and keeps those read before a stop, newest
first. -/
def includedStatements (r : Rules) (context : Context) :
    Nat → List Statement → ParserState → Outcome
  | 0, read, s => ⟨read, some .exhausted, s⟩
  | fuel + 1, read, s =>
    if s.token.kind == .endOfProgram then ⟨read, none, s⟩
    else
      match r.statement context s with
      | .error stop t => ⟨read, some stop, t⟩
      | .ok (statement, true) t => includedStatements r context fuel (statement :: read) t
      | .ok (statement, false) t =>
        match Parse.expectEnd t with
        | .ok () u => ⟨statement :: read, none, u⟩
        | .error stop u => ⟨statement :: read, some stop, u⟩

/-- Reads an included script from its first token on. -/
def includedOutcome (r : Rules) (context : Context) (s : ParserState) : Outcome :=
  match Parse.scan Scanner.next s with
  | .ok () t => includedStatements r context r.rounds [] t
  | .error stop t => ⟨[], some stop, t⟩

/-- Reads a script in place of an inclusion. Functions around the inclusion are around the script as
well, and a problem that stops the script does not stop what includes it. -/
def includeScript (r : Rules) : IncludeRule := fun context script s =>
  let outcome := includedOutcome r context
    { ParserState.ofScript script with functions := s.functions, superFound := s.superFound }
  let after : ParserState :=
    { s with functions := outcome.state.functions, superFound := outcome.state.superFound }
  match outcome.stop with
  | some .exhausted => .error .exhausted after
  | _ => .ok (outcome.state.script, outcome.statements.reverse) after

/-- The rule for included scripts, over those that may include each other below. -/
def includeAt (readFile : String → Option String) : Nat → IncludeRule
  | 0 => fun _ _ => Parse.exhausted
  | depth + 1 => fun context script =>
    (level readFile (includeAt readFile depth) (levelFor script)).includeScript context script

/-- The rules for a script. -/
def ofHost (host : Host) (script : Script) : Rules :=
  level host.readFile (includeAt host.readFile host.includeDepth) (levelFor script)

end Rules

end ActionSyntax
