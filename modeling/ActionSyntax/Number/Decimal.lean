import ActionSyntax.Number.Double
import ActionSyntax.Text.CharClass

/-!
Reading decimal text such as `12.5e-3`. Anything that is no digit, point, exponent mark or sign,
such as a digit separator, has been taken out before.
-/

namespace ActionSyntax.Decimal

set_option autoImplicit false

def digitValue (ch : Char) : Nat := ch.toNat - '0'.toNat

def ofDigits (digits : List Char) : Nat :=
  digits.foldl (fun value ch => value * 10 + digitValue ch) 0

/-- The exponent that follows an exponent mark. -/
def exponent : List Char → Int
  | '-' :: digits => - (ofDigits digits : Int)
  | '+' :: digits => ofDigits digits
  | digits => ofDigits digits

def isExponentMark (ch : Char) : Bool := ch == 'e' || ch == 'E'

/-- The number a decimal text stands for. -/
def parse (text : List Char) : Double :=
  let mantissa := text.takeWhile fun ch => !isExponentMark ch
  let power := exponent ((text.dropWhile fun ch => !isExponentMark ch).drop 1)
  let whole := mantissa.takeWhile CharClass.isDecimalDigit
  let fraction := (mantissa.dropWhile CharClass.isDecimalDigit).drop 1
  let digits := whole ++ fraction
  Double.ofDecimal (ofDigits digits) digits.length (power - fraction.length)

end ActionSyntax.Decimal
