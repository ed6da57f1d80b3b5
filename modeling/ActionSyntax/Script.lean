import ActionSyntax.Path
import ActionSyntax.Problem
import ActionSyntax.Text.CharClass
import ActionSyntax.Text.Utf8

/-!
A script: one source text with what has been found in it so far, and the scripts it includes.
-/

namespace ActionSyntax

set_option autoImplicit false

/-- A comment. The content leaves out the delimiters. -/
structure Comment where
  multiLine : Bool
  content : String
  span : Span
deriving DecidableEq, Repr, Inhabited

/-- Line starts are kept in the order in which they were passed, the first line's included. A script
is valid until a problem other than a warning is found in it. -/
structure Script where
  path : String
  content : List Char
  valid : Bool
  lineStarts : Array Nat
  problems : Array Problem
  comments : Array Comment
  included : List Script

namespace Script

def ofSource (path source : String) : Script where
  path
  content := source.toList
  valid := true
  lineStarts := #[0]
  problems := #[]
  comments := #[]
  included := []

def length (s : Script) : Nat := Utf8.byteLength s.content

def isValid (s : Script) : Bool := s.valid

def addLineStart (s : Script) (index : Nat) : Script :=
  { s with lineStarts := s.lineStarts.push index }

def addComment (s : Script) (comment : Comment) : Script :=
  { s with comments := s.comments.push comment }

/-- Records a problem. Anything but a warning makes the script invalid for good. -/
def collect (s : Script) (problem : Problem) : Script :=
  { s with valid := s.valid && problem.isWarning, problems := s.problems.push problem }

def addIncluded (s child : Script) : Script := { s with included := s.included ++ [child] }

/-- The offset at which a line starts. A line not reached yet counts as the last known one. -/
def lineStart (s : Script) (line : Nat) : Nat :=
  match line with
  | 0 => 0
  | n + 1 => (s.lineStarts[n]?).getD (s.lineStarts.back?.getD 0)

/-- The number of blanks at the beginning of a line. -/
def lineIndent (s : Script) (line : Nat) : Nat :=
  match Utf8.dropBytes? s.content (s.lineStart line) with
  | some rest => (rest.takeWhile CharClass.isBlank).length
  | none => 0

/-- The source text of a range, empty when the range does not fit the text. -/
def text (s : Script) (span : Span) : String :=
  String.ofList ((Utf8.slice? s.content span.start span.stop).getD [])

/-- The distance of the range's start from the start of its line. -/
def firstColumn (s : Script) (span : Span) : Nat := span.start - s.lineStart span.firstLine

def lastColumn (s : Script) (span : Span) : Nat := span.stop - s.lineStart span.lastLine

def fullSpan (s : Script) : Span := ⟨1, max s.lineStarts.size 1, 0, s.length⟩

def fileUrl (s : Script) : String := Path.fileUrl s.path

/-- Problems by the start of their range; those with one start keep their order. -/
def sortedProblems (problems : Array Problem) : Array Problem :=
  (problems.toList.mergeSort fun a b => a.span.start ≤ b.span.start).toArray

mutual

/-- Sorts the problems of the script and of all it includes. -/
def sortProblems : Script → Script
  | ⟨path, content, valid, lineStarts, problems, comments, included⟩ =>
    ⟨path, content, valid, lineStarts, sortedProblems problems, comments,
      sortProblemsOfAll included⟩

def sortProblemsOfAll : List Script → List Script
  | [] => []
  | script :: rest => sortProblems script :: sortProblemsOfAll rest

end

mutual

/-- The script, and after it everything it includes, depth first. -/
def withIncluded : Script → List Script
  | script@⟨_, _, _, _, _, _, included⟩ => script :: withIncludedOfAll included

def withIncludedOfAll : List Script → List Script
  | [] => []
  | script :: rest => withIncluded script ++ withIncludedOfAll rest

end

/-- Where a problem is, and of what kind it is. -/
def describe (s : Script) (p : Problem) : String :=
  s.fileUrl ++ ":" ++ toString p.span.firstLine ++ ":" ++ toString (s.firstColumn p.span + 1) ++
    ": " ++ p.severity.title ++ ": "

/-- The line that reports a problem. -/
def report (s : Script) (p : Problem) : String := s.describe p ++ p.message

/-- The short form of a problem that stops the reading of a script. -/
def stopText (s : Script) (p : Problem) : String :=
  p.severity.title ++ ": " ++ p.id.key ++ " at " ++ toString p.span.firstLine ++ ":" ++
    toString (s.firstColumn p.span + 1)

end Script

end ActionSyntax
