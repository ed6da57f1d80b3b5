import ActionSyntax.Scan.Cursor

/-!
Escapes in names and strings: `\xHH`, `\uHHHH` and, behind either letter, any number of hexadecimal
digits in braces. A value that is no character reads as the replacement character.
-/

namespace ActionSyntax.Scan

set_option autoImplicit false

def greatestCodePoint : Nat := 0x10FFFF

def charOfValue (value : Nat) : Char :=
  if value.isValidChar then Char.ofNat value else '\ufffd'

def hexDigit (c : Cursor) : Except Failure (Nat × Cursor) :=
  match c.rest with
  | [] => .error (.unexpected c)
  | ch :: _ =>
    match CharClass.hexDigitValue? ch with
    | some value => .ok (value, c.skip 1)
    | none => .error (.unexpected c)

/-- Reads `count` digits onto a value. -/
def fixedDigits : Nat → Nat → Cursor → Except Failure (Nat × Cursor)
  | 0, value, c => .ok (value, c)
  | count + 1, value, c => do
    let (digit, c) ← hexDigit c
    fixedDigits count (value * 16 + digit) c

/-- Reads digits onto a value up to a closing brace, and the brace. A value beyond the last code
point ends the reading behind the digit that made it so. -/
def bracedDigits : Nat → Nat → Cursor → Except Failure (Nat × Cursor)
  | 0, _, c => .error (.unexpected c)
  | fuel + 1, value, c =>
    if c.startsWith ['\x7d'] then .ok (value, c.skip 1)
    else do
      let (digit, c) ← hexDigit c
      let value := value * 16 + digit
      if greatestCodePoint < value then .error (.unexpected c) else bracedDigits fuel value c

/-- The braced form, from its opening brace on. -/
def bracedValue (c : Cursor) : Except Failure (Nat × Cursor) := do
  let (value, c) ← hexDigit (c.skip 1)
  bracedDigits (c.rest.length + 1) value c

/-- What stands behind the letter of an escape, for a letter that asks for `count` digits. -/
def escapeValue (count : Nat) (c : Cursor) : Except Failure (Nat × Cursor) :=
  if c.startsWith ['\x7b'] then bracedValue c else fixedDigits count 0 c

/-- An escaped character, from the letter of its escape on. -/
def escapedChar (c : Cursor) : Except Failure (Char × Cursor) := do
  let count ←
    match c.rest with
    | 'u' :: _ => pure 4
    | 'x' :: _ => pure 2
    | _ => .error (.unexpected c)
  let (value, c) ← escapeValue count (c.skip 1)
  pure (charOfValue value, c)

end ActionSyntax.Scan
