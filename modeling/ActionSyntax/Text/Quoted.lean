import ActionSyntax.Text.CharClass
import ActionSyntax.Text.HiddenRanges

/-!
Text between double quotes, in two forms: a printable one, which spells out the characters that do
not show, and the one of JSON, which spells out control characters alone. Both escape quotes and
backslashes. Either form is given by what stands for a single character.
-/

namespace ActionSyntax.Quoted

set_option autoImplicit false

/-- A text in quotes, each character by what stands for it. -/
def quote (escape : Char → List Char) (text : String) : String :=
  String.ofList ('"' :: text.toList.flatMap escape ++ ['"'])

def hexDigits (ch : Char) : List Char := Nat.toDigits 16 ch.toNat

def printableChar (ch : Char) : List Char :=
  match ch with
  | '"' => ['\\', '"']
  | '\\' => ['\\', '\\']
  | '\n' => ['\\', 'n']
  | '\r' => ['\\', 'r']
  | '\t' => ['\\', 't']
  | '\x00' => ['\\', '0']
  | ch =>
    if CharClass.inRanges HiddenRanges.hidden ch then '\\' :: 'u' :: '{' :: hexDigits ch ++ ['}']
    else [ch]

def jsonChar (ch : Char) : List Char :=
  match ch with
  | '"' => ['\\', '"']
  | '\\' => ['\\', '\\']
  | '\n' => ['\\', 'n']
  | '\r' => ['\\', 'r']
  | '\t' => ['\\', 't']
  | '\x08' => ['\\', 'b']
  | '\x0c' => ['\\', 'f']
  | ch =>
    if ch < ' ' then
      let digits := hexDigits ch
      '\\' :: 'u' :: List.replicate (4 - digits.length) '0' ++ digits
    else [ch]

def printable (text : String) : String := quote printableChar text

def json (text : String) : String := quote jsonChar text

end ActionSyntax.Quoted
