import ActionSyntax.Number.Double
import ActionSyntax.Operator
import ActionSyntax.Span

/-!
Tokens. A lexeme is what a token says wherever it stands; a token adds its place.
-/

namespace ActionSyntax

set_option autoImplicit false

inductive TokenKind where
  | endOfProgram | identifier | string | number | regularExpression | keyword | operator
  | compoundAssignment | leftBrace | rightBrace | leftParen | rightParen | leftBracket
  | rightBracket | dot | questionDot | ellipsis | semicolon | comma | questionMark
  | exclamationMark | colon | assign | arrow | closingTag
deriving DecidableEq, Repr, Inhabited

/-- How a kind of token is named in messages. -/
def TokenKind.description : TokenKind → String
  | .endOfProgram => "end of program"
  | .identifier => "identifier"
  | .string => "string"
  | .number => "number"
  | .regularExpression => "regular expression"
  | .keyword => "keyword"
  | .operator => "operator"
  | .compoundAssignment => "assignment"
  | .leftBrace => "\x7b"
  | .rightBrace => "\x7d"
  | .leftParen => "("
  | .rightParen => ")"
  | .leftBracket => "["
  | .rightBracket => "]"
  | .dot => "."
  | .questionDot => "?."
  | .ellipsis => "..."
  | .semicolon => ";"
  | .comma => ","
  | .questionMark => "?"
  | .exclamationMark => "!"
  | .colon => ":"
  | .assign => "="
  | .arrow => "->"
  | .closingTag => "</"

/-- A token without its place. The text is the decoded name, string or regular expression body; the
operator belongs to operators and compound assignments, the flags to regular expressions. -/
structure Lexeme where
  kind : TokenKind
  text : String := ""
  number : Double := Double.zero
  flags : String := ""
  operator : Option Operator := none
deriving DecidableEq, Repr, Inhabited

structure Token extends Lexeme where
  span : Span
deriving DecidableEq, Repr, Inhabited

namespace Token

/-- What stands before the first token. -/
def initial : Token where
  kind := .endOfProgram
  span := Span.point 1 0

def rawLength (t : Token) : Nat := t.span.length

def isKeyword (t : Token) (word : String) : Bool := t.kind == .keyword && t.text == word

/-- A name spelled out letter by letter, without escapes or a leading `#`. -/
def isContextKeyword (t : Token) (word : String) : Bool :=
  t.kind == .identifier && t.text == word && t.rawLength == word.utf8ByteSize

def isOperator (t : Token) (op : Operator) : Bool := t.kind == .operator && t.operator == some op

def isCompoundAssignment (t : Token) (op : Operator) : Bool :=
  t.kind == .compoundAssignment && t.operator == some op

end Token

end ActionSyntax
