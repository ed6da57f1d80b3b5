import ActionSyntax.Scan.Cursor
import ActionSyntax.Token

/-!
Operators and punctuation marks. The longest spelling that fits is taken, so the table lists longer
ones first. A single dot is not in it, since a digit may follow it.
-/

namespace ActionSyntax.Scan

set_option autoImplicit false

private def mark (kind : TokenKind) : Lexeme := { kind }

private def op (operator : Operator) : Lexeme := { kind := .operator, operator := some operator }

private def compound (operator : Operator) : Lexeme :=
  { kind := .compoundAssignment, operator := some operator }

def spellings : List (String × Lexeme) :=
  [(">>>=", compound .shiftRightUnsigned),
   ("...", mark .ellipsis), (">>>", op .shiftRightUnsigned), ("===", op .strictEqual),
   ("!==", op .strictNotEqual), ("**=", compound .power), ("&&=", compound .logicalAnd),
   ("^^=", compound .logicalXor), ("||=", compound .logicalOr), ("??=", compound .nullCoalescing),
   ("<<=", compound .shiftLeft), (">>=", compound .shiftRight),
   ("?.", mark .questionDot), ("</", mark .closingTag), ("->", mark .arrow), ("**", op .power),
   ("&&", op .logicalAnd), ("^^", op .logicalXor), ("||", op .logicalOr),
   ("??", op .nullCoalescing), ("<<", op .shiftLeft), (">>", op .shiftRight), ("==", op .equal),
   ("!=", op .notEqual), ("<=", op .lessOrEqual), (">=", op .greaterOrEqual),
   ("++", op .preIncrement), ("--", op .preDecrement), ("+=", compound .add),
   ("-=", compound .subtract), ("*=", compound .multiply), ("/=", compound .divide),
   ("%=", compound .remainder), ("&=", compound .bitwiseAnd), ("^=", compound .bitwiseXor),
   ("|=", compound .bitwiseOr),
   ("\x7b", mark .leftBrace), ("\x7d", mark .rightBrace), ("(", mark .leftParen),
   (")", mark .rightParen), ("[", mark .leftBracket), ("]", mark .rightBracket),
   (";", mark .semicolon), (",", mark .comma), ("?", mark .questionMark),
   ("!", mark .exclamationMark), (":", mark .colon), ("=", mark .assign), ("+", op .add),
   ("-", op .subtract), ("*", op .multiply), ("/", op .divide), ("%", op .remainder),
   ("&", op .bitwiseAnd), ("^", op .bitwiseXor), ("|", op .bitwiseOr), ("<", op .less),
   (">", op .greater), ("~", op .bitwiseNot)]

/-- The spellings as characters. -/
def spelledChars : List (List Char × Lexeme) := spellings.map fun entry => (entry.1.toList, entry.2)

/-- The operator or punctuation mark that stands here. -/
def punctuation? (c : Cursor) : Option (Lexeme × Cursor) :=
  (spelledChars.find? fun entry => c.startsWith entry.1).map fun entry =>
    (entry.2, c.skip entry.1.length)

end ActionSyntax.Scan
