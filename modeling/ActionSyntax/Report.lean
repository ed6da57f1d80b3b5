import ActionSyntax.Script
import ActionSyntax.Text.Quoted

/-!
What is told about the problems of a script: one line of text each, a record with plain fields, or a
report that points into the source. Included scripts follow the script that includes them.
-/

namespace ActionSyntax

set_option autoImplicit false

/-- A problem as data. Columns are counted from one. -/
structure Record where
  id : ProblemId
  severity : Severity
  file : String
  line : Nat
  column : Nat
  start : Nat
  stop : Nat
  message : String
deriving DecidableEq, Repr

namespace Record

def ofProblem (s : Script) (p : Problem) : Record where
  id := p.id
  severity := p.severity
  file := s.path
  line := p.span.firstLine
  column := s.firstColumn p.span + 1
  start := p.span.start
  stop := p.span.stop
  message := p.message

/-- The records of a script, then those of the scripts it includes. -/
def ofScript (s : Script) : List Record :=
  s.withIncluded.flatMap fun t => t.problems.toList.map (ofProblem t)

def isError (r : Record) : Bool := r.severity != .warning

/-- The fields in the order in which they are written, with their values in JSON. -/
def fields (r : Record) : List (String × String) :=
  [("id", Quoted.json r.id.key), ("kind", Quoted.json r.severity.title),
   ("file", Quoted.json r.file), ("line", toString r.line), ("column", toString r.column),
   ("start", toString r.start), ("end", toString r.stop), ("message", Quoted.json r.message)]

/-- One record, as an item of an array. -/
def json (r : Record) : String :=
  "  \x7b\n" ++
    String.intercalate ",\n" (r.fields.map fun (name, value) =>
      "    " ++ Quoted.json name ++ ": " ++ value) ++
    "\n  \x7d"

/-- Records as a JSON array over several lines. -/
def jsonArray : List Record → String
  | [] => "[]"
  | records => "[\n" ++ String.intercalate ",\n" (records.map json) ++ "\n]"

end Record

/-- The lines that report the problems of a script, then those of the scripts it includes. -/
def Script.reportLines (s : Script) : List String :=
  s.withIncluded.flatMap fun t => t.problems.toList.map t.report

/-- A problem with a place to point at. -/
structure Report where
  severity : Severity
  message : String
  source : String
  offset : Nat
  length : Nat
  label : String
  help : String
deriving DecidableEq, Repr

namespace Report

def labelOf : Severity → String
  | .warning => "warning here"
  | .syntaxError => "syntax error here"
  | .verifyError => "verify error here"

/-- A range whose end lies before its start is shown as empty. -/
def ofProblem (s : Script) (p : Problem) : Report where
  severity := p.severity
  message := p.message
  source := s.path
  offset := p.span.start
  length := p.span.length
  label := labelOf p.severity
  help := "problem id: " ++ p.id.key

end Report

end ActionSyntax
