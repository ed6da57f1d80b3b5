import ActionSyntax.Number.Decimal
import ActionSyntax.Scan.Cursor
import ActionSyntax.Token

/-!
Number literals: decimal, and in radix two and sixteen. Single `_` may separate digits.
-/

namespace ActionSyntax.Scan

set_option autoImplicit false

/-- The length of a run of digits, and whether the run is well formed. A separator without a digit
behind it belongs to the run and spoils it. -/
def digitRun (isDigit : Char → Bool) : List Char → Nat × Bool
  | [] => (0, true)
  | '_' :: ch :: rest =>
    if isDigit ch then
      let (length, good) := digitRun isDigit rest
      (length + 2, good)
    else (1, false)
  | '_' :: [] => (1, false)
  | ch :: rest =>
    if isDigit ch then
      let (length, good) := digitRun isDigit rest
      (length + 1, good)
    else (0, true)

/-- Passes a run of digits, which may be empty. -/
def digits (isDigit : Char → Bool) (c : Cursor) : Except Failure Cursor :=
  let (length, good) := digitRun isDigit c.rest
  if good then .ok (c.skip length) else .error (.unexpected (c.skip length))

def nextIs (p : Char → Bool) (c : Cursor) : Bool := c.rest.head?.any p

/-- The text of a literal without its separators. -/
def withoutSeparators (text : List Char) : List Char := text.filter (· != '_')

/-- A literal in a radix, from its radix letter on. -/
def radixLiteral (radix : Nat) (isDigit : Char → Bool) (c : Cursor) :
    Except Failure (Lexeme × Cursor) := do
  let inside := c.skip 1
  if !nextIs isDigit inside then .error (.unexpected inside)
  else
    let c ← digits isDigit inside
    let values := (withoutSeparators (inside.textTo c)).filterMap CharClass.hexDigitValue?
    pure ({ kind := .number, number := Double.ofDigits radix values }, c)

/-- Passes the exponent of a decimal literal, if there is one. -/
def exponentPart (c : Cursor) : Except Failure Cursor :=
  if nextIs Decimal.isExponentMark c then
    let c := c.skip 1
    let c := if nextIs (fun ch => ch == '+' || ch == '-') c then c.skip 1 else c
    if nextIs CharClass.isDecimalDigit c then digits CharClass.isDecimalDigit c
    else .error (.unexpected c)
  else .ok c

/-- Passes the point and the digits behind it, if there is a point. -/
def fractionPart (c : Cursor) : Except Failure Cursor :=
  if nextIs (· == '.') c then digits CharClass.isDecimalDigit (c.skip 1) else .ok c

/-- A decimal literal whose whole part has been passed. -/
def decimalFrom (start c : Cursor) : Except Failure (Lexeme × Cursor) := do
  let c ← fractionPart c
  let c ← exponentPart c
  let number := Decimal.parse (withoutSeparators (start.textTo c))
  pure ({ kind := .number, number }, c)

/-- A literal that starts with a digit. -/
def numberLiteral (c : Cursor) : Except Failure (Lexeme × Cursor) := do
  let behind := c.skip 1
  if nextIs (· == '0') c then
    if nextIs (fun ch => ch == 'x' || ch == 'X') behind then
      radixLiteral 16 CharClass.isHexDigit behind
    else if nextIs (fun ch => ch == 'b' || ch == 'B') behind then
      radixLiteral 2 CharClass.isBinaryDigit behind
    else if nextIs CharClass.isDecimalDigit behind then .error (.unexpected behind)
    else decimalFrom c (← digits CharClass.isDecimalDigit behind)
  else decimalFrom c (← digits CharClass.isDecimalDigit behind)

/-- A literal that starts with a point. -/
def fractionLiteral (c : Cursor) : Except Failure (Lexeme × Cursor) := do
  let behind ← digits CharClass.isDecimalDigit (c.skip 2)
  let behind ← exponentPart behind
  let number := Decimal.parse (withoutSeparators (c.textTo behind))
  pure ({ kind := .number, number }, behind)

end ActionSyntax.Scan
