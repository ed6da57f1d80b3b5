import ActionSyntax.Grammar.Context
import ActionSyntax.Grammar.State
import ActionSyntax.Precedence
import ActionSyntax.Tree.Node

/-!
The rules of the grammar that refer to each other. A rule is written against a record of all of
them, to be used for what is nested inside; tying the knot level by level bounds how deep that goes.
-/

namespace ActionSyntax

set_option autoImplicit false

/-- How an expression may go on: whether `in` is an operator, the least level of its operators, and
whether a name at its beginning may have a type. -/
structure ExprMode where
  allowIn : Bool := true
  level : Precedence := .list
  allowTyped : Bool := true
deriving DecidableEq, Repr

/-- A statement, and whether it was properly ended. -/
abbrev Ended := Statement × Bool

/-- `depth` bounds the number of tokens left, and so the rounds of every loop. -/
structure Rules where
  depth : Nat
  typeExpr : Parse TypeExpr
  optExpr : ExprMode → Parse (Option Expr)
  optPrimary : Bool → Precedence → Parse (Option Expr)
  /-- A node inside another one. -/
  node : Parse Expr
  block : Context → Parse Block
  statement : Context → Parse Ended
  /-- The text of a file, if it can be read. -/
  readFile : String → Option String
  /-- Reads the statements of an included script in place. -/
  included : Context → Script → Parse (Script × List Statement)

namespace Rules

/-- No rule can be used any more. -/
def spent (readFile : String → Option String) : Rules where
  depth := 0
  typeExpr := Parse.exhausted
  optExpr _ := Parse.exhausted
  optPrimary _ _ := Parse.exhausted
  node := Parse.exhausted
  block _ := Parse.exhausted
  statement _ := Parse.exhausted
  readFile
  included _ _ := Parse.exhausted

/-- Enough rounds for any loop over the tokens left. -/
def rounds (r : Rules) : Nat := r.depth + 2

def expr (r : Rules) (mode : ExprMode) : Parse Expr := do
  match ← r.optExpr mode with
  | some e => return e
  | none => Parse.unexpected

/-- An expression without commas at its outermost level. -/
def assignmentExpr (r : Rules) (allowIn : Bool := true) : Parse Expr :=
  r.expr { allowIn, level := .assignment }

/-- A type behind a colon, if there is a colon. -/
def optAnnotation (r : Rules) : Parse (Option TypeExpr) := do
  if ← Parse.consume .colon then return some (← r.typeExpr) else return none

end Rules

namespace Parse

/-- An identifier; any word will do if keywords count as names. -/
def identifierOf (condition : Token → Bool) : Parse Identifier := do
  let m ← mark
  expectIf condition
  return { span := ← finish m, name := (← previous).text }

def identifier : Parse Identifier := identifierOf fun t => t.kind == .identifier

def wordIdentifier : Parse Identifier := identifierOf isWord

/-- The identifier that has just been consumed. -/
def previousIdentifier : Parse Identifier := do
  let t ← previous
  return { span := t.span, name := t.text }

end Parse

end ActionSyntax
