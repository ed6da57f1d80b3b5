import ActionSyntax.Parser
import ActionSyntax.Report
import ActionSyntax.Tree.Outline

/-!
The command that checks files: what its arguments ask for, and what it answers. Every file is
checked on its own, in the order of the arguments.
-/

namespace ActionSyntax.CommandLine

set_option autoImplicit false

/-- What a file is expected to hold. -/
inductive Mode where
  | program | statement | expression | type
deriving DecidableEq, Repr

namespace Mode

def ofWord? : String → Option Mode
  | "program" => some .program
  | "statement" => some .statement
  | "expression" => some .expression
  | "type" => some .type
  | _ => none

def parse (mode : Mode) (p : Parser) : Option Part × Parser :=
  match mode with
  | .program => let (tree, p) := p.parseProgram; (tree.map .program, p)
  | .statement => let (tree, p) := p.parseStatement; (tree.map .statement, p)
  | .expression => let (tree, p) := p.parseExpression; (tree.map .expr, p)
  | .type => let (tree, p) := p.parseType; (tree.map .type, p)

end Mode

/-- How problems are shown. -/
inductive Format where
  | plain | fancy | json
deriving DecidableEq, Repr

def Format.ofWord? : String → Option Format
  | "plain" => some .plain
  | "fancy" => some .fancy
  | "json" => some .json
  | _ => none

/-- What the arguments ask for. Options that were not given are absent. -/
structure Options where
  files : List String := []
  mode : Option Mode := none
  format : Option Format := none
  dumpTree : Bool := false
  verbosity : Nat := 0
deriving DecidableEq, Repr

namespace Options

def modeOrDefault (o : Options) : Mode := o.mode.getD .program

def formatOrDefault (o : Options) : Format := o.format.getD .plain

def addFile (o : Options) (path : String) : Options := { o with files := o.files ++ [path] }

/-- An option that takes a value. It may be given once. -/
def setValue? (o : Options) (name value : String) : Option Options :=
  match name with
  | "--mode" =>
    if o.mode.isSome then none
    else (Mode.ofWord? value).map fun mode => { o with mode := some mode }
  | "--format" =>
    if o.format.isSome then none
    else (Format.ofWord? value).map fun format => { o with format := some format }
  | _ => none

/-- The name and the value of an argument with an equals sign. -/
def splitValue (arg : String) : String × String :=
  let chars := arg.toList
  (String.ofList (chars.takeWhile (· != '=')),
   String.ofList ((chars.dropWhile (· != '=')).drop 1))

/-- Whether an argument is a dash and some letters `v`. -/
def isVerbosity (arg : String) : Bool :=
  match arg.toList with
  | '-' :: letters => !letters.isEmpty && letters.all (· == 'v')
  | _ => false

/-- An argument that stands alone: a switch, an option with its value, or a file. -/
def addArgument? (o : Options) (arg : String) : Option Options :=
  if arg == "--dump-ast" then
    if o.dumpTree then none else some { o with dumpTree := true }
  else if arg == "--verbose" then some { o with verbosity := o.verbosity + 1 }
  else if isVerbosity arg then some { o with verbosity := o.verbosity + (arg.length - 1) }
  else if arg.toList.head? == some '-' && arg != "-" then
    let (name, value) := splitValue arg
    o.setValue? name value
  else some (o.addFile arg)

/-- Reads arguments. Behind two dashes everything is a file. -/
def read? (o : Options) : List String → Option Options
  | [] => some o
  | "--" :: files => some (files.foldl addFile o)
  | [arg] => o.addArgument? arg
  | arg :: value :: rest =>
    if arg == "--mode" || arg == "--format" then
      (o.setValue? arg value).bind fun o => read? o rest
    else (o.addArgument? arg).bind fun o => read? o (value :: rest)

/-- The options of a command line, which names at least one file. -/
def ofArguments? (args : List String) : Option Options :=
  (read? {} args).filter fun o => !o.files.isEmpty

end Options

/-- A file after the check, its problems in source order. -/
structure Checked where
  tree : Option Part
  script : Script

namespace Checked

/-- Reads a source in the given mode. -/
def ofSource (host : Host) (mode : Mode) (path source : String) : Checked :=
  let (tree, p) := mode.parse (Parser.ofScript host (Script.ofSource path source))
  { tree, script := p.script.sortProblems }

/-- The file at a path, if it can be read. -/
def ofPath? (host : Host) (mode : Mode) (path : String) : Option Checked :=
  (host.readFile path).map (ofSource host mode path)

def records (c : Checked) : List Record := Record.ofScript c.script

def failed (c : Checked) : Bool := c.tree.isNone || c.records.any Record.isError

/-- The tree as text, if there is one. -/
def dump (c : Checked) : String :=
  match c.tree with
  | some part => (Outline.ofPart part).render ++ "\n"
  | none => ""

end Checked

/-- What the command answers. Reports are for a terminal to draw. -/
structure Outcome where
  status : Nat
  output : String := ""
  problemLines : List String := []
  reports : List Report := []

/-- The status for arguments that cannot be read. -/
def usageStatus : Nat := 2

namespace Options

/-- The files, with nothing for those that cannot be read. -/
def checked (o : Options) (host : Host) : List (Option Checked) :=
  o.files.map (Checked.ofPath? host o.modeOrDefault)

def records (files : List Checked) : List Record := files.flatMap Checked.records

def reportLines (files : List Checked) : List String := files.flatMap (·.script.reportLines)

def reports (files : List Checked) : List Report :=
  files.flatMap fun c => c.script.withIncluded.flatMap fun s =>
    s.problems.toList.map (Report.ofProblem s)

/-- A file that cannot be read fails, and does not keep the others from being checked. -/
def run (o : Options) (host : Host) : Outcome :=
  let results := o.checked host
  let files := results.filterMap id
  let failed := results.any fun c => (c.map Checked.failed).getD true
  let dumps := if o.dumpTree then String.join (files.map Checked.dump) else ""
  let format := o.formatOrDefault
  { status := if failed then 1 else 0
    output := dumps ++ if format == .json then Record.jsonArray (records files) ++ "\n" else ""
    problemLines := if format == .plain then reportLines files else []
    reports := if format == .fancy then reports files else [] }

/-- The paths that were asked for and could not be read. -/
def missing (o : Options) (host : Host) : List String :=
  o.files.flatMap fun path =>
    match Checked.ofPath? host o.modeOrDefault path with
    | none => [path]
    | some c => c.script.withIncluded.flatMap unresolved
where
  /-- The file that an inclusion means, from its text. -/
  target (s : Script) (p : Problem) : String :=
    let (_, word) := (Scanner.ofScript (Script.ofSource s.path (s.text p.span))).next
    let (_, source) := word.next
    Path.resolveInclude s.path source.token.text
  unresolved (s : Script) : List String :=
    (s.problems.toList.filter (·.id == .failedToResolveInclude)).map (target s)

end Options

/-- Answers a command line. -/
def run (host : Host) (args : List String) : Outcome :=
  match Options.ofArguments? args with
  | some options => options.run host
  | none => { status := usageStatus }

end ActionSyntax.CommandLine
