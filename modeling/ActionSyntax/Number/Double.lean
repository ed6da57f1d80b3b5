/-!
Numbers of double precision, kept as their bits. A finite positive number is `m * 2 ^ (q - 1074)`
with `m < 2 ^ 53`, and `m * 2 ^ (q - 1074)` has the bits `q * 2 ^ 52 + m`; so rounding a quotient is
integer division with a half going to the even neighbour.
-/

namespace ActionSyntax

set_option autoImplicit false

structure Double where
  bits : UInt64
deriving DecidableEq, Repr, Inhabited

namespace Double

def zero : Double := ⟨0⟩

def infinity : Double := ⟨0x7FF0000000000000⟩

/-- The quotient to the nearest integer, a half to the even one. -/
def roundQuotient (num den : Nat) : Nat :=
  let q := num / den
  let r := num % den
  if 2 * r < den then q else if den < 2 * r then q + 1 else q + q % 2

/-- The bits of the number nearest to `num / den`, not yet limited to finite numbers. -/
def nearestBits (num den : Nat) : Nat :=
  let scaled := num * Nat.pow 2 1074
  let q := (scaled / den).log2 - 52
  q * Nat.pow 2 52 + roundQuotient scaled (den * Nat.pow 2 q)

/-- The number nearest to `num / den`, infinite when that is too large. -/
def ofQuotient (num den : Nat) : Double :=
  let bits := nearestBits num den
  if bits < infinity.bits.toNat then ⟨UInt64.ofNat bits⟩ else infinity

/-- The number nearest to `mantissa * 10 ^ exponent`, where the mantissa has at most `digits`
digits. Exponents far outside the range of doubles are settled without computing the power. -/
def ofDecimal (mantissa digits : Nat) (exponent : Int) : Double :=
  if mantissa = 0 then zero
  else if 0 ≤ exponent then
    if 400 < exponent then infinity else ofQuotient (mantissa * Nat.pow 10 exponent.toNat) 1
  else if digits + exponent < -400 then zero
  else ofQuotient mantissa (Nat.pow 10 (-exponent).toNat)

/-- An integer rounded to 53 significant bits. -/
def roundNat (n : Nat) : Nat :=
  let q := n.log2 - 52
  roundQuotient n (Nat.pow 2 q) * Nat.pow 2 q

/-- The value of digits in a radix, rounded after each digit. -/
def ofDigits (radix : Nat) (digits : List Nat) : Double :=
  ofQuotient (digits.foldl (fun value digit => roundNat (value * radix + digit)) 0) 1

/-- The digits of the bits in hexadecimal, sixteen of them. -/
def hex (d : Double) : String :=
  let digits := Nat.toDigits 16 d.bits.toNat
  String.ofList (List.replicate (16 - digits.length) '0' ++ digits)

end Double

end ActionSyntax
