import ActionSyntax.Number.Double

/-!
The shortest decimal text that reads back as the same double. For 1, 2, … 17 digits the two
neighbours of the value on that decimal grid are tested against the interval of reals that round to
it; the first grid with a hit wins, and of two hits the nearer.
-/

namespace ActionSyntax.Shortest

set_option autoImplicit false

/-- A positive value with the ends of the interval that rounds to it, over one denominator. -/
structure Target where
  value : Nat
  lower : Nat
  upper : Nat
  den : Nat
  closed : Bool

/-- The target of a finite positive double. Below a power of two the interval is narrower. -/
def target (bits : Nat) : Target :=
  let field := bits / Nat.pow 2 52
  let fraction := bits % Nat.pow 2 52
  let m := if field = 0 then fraction else Nat.pow 2 52 + fraction
  let q := field - 1
  let scale := Nat.pow 2 q
  let narrow := fraction = 0 ∧ 1 < field
  { value := 4 * m * scale
    lower := (if narrow then 4 * m - 1 else 4 * m - 2) * scale
    upper := (4 * m + 2) * scale
    den := Nat.pow 2 1076
    closed := m % 2 = 0 }

/-- Decimal digits and the power of ten of the first one. -/
structure Digits where
  digits : Nat
  power : Int
deriving DecidableEq, Repr

def digitCount (n : Nat) : Nat := (Nat.toDigits 10 n).length

/-- The power of ten of the first digit of `num / den`, for values above `10 ^ (-400)`. -/
def leadingPower (num den : Nat) : Int := digitCount (num * Nat.pow 10 400 / den) - 401

/-- A power of ten as a quotient. -/
def powerOfTen (k : Int) : Nat × Nat :=
  if 0 ≤ k then (Nat.pow 10 k.toNat, 1) else (1, Nat.pow 10 (-k).toNat)

def Target.contains (t : Target) (num den : Nat) : Bool :=
  let x := num * t.den
  if t.closed then t.lower * den ≤ x && x ≤ t.upper * den
  else t.lower * den < x && x < t.upper * den

/-- The better neighbour of the value on the grid of multiples of `10 ^ k`, if one reads back. At
equal distance the larger is taken. -/
def Target.onGrid? (t : Target) (k : Int) : Option Nat :=
  let (num, den) := powerOfTen k
  let below := t.value * den / (t.den * num)
  let rest := t.value * den % (t.den * num)
  let hitBelow := t.contains (below * num) den
  let hitAbove := t.contains ((below + 1) * num) den
  if hitBelow && (!hitAbove || 2 * rest < t.den * num) then some below
  else if hitAbove then some (below + 1)
  else none

/-- The first grid with a hit, trying `count` more of them. -/
def search (t : Target) (leading : Int) (tried : Nat) : Nat → Digits
  | 0 => ⟨t.value / t.den, 0⟩
  | count + 1 =>
    let k := leading - tried
    match t.onGrid? k with
    | some n => ⟨n, k⟩
    | none => search t leading (tried + 1) count

def shortest (bits : Nat) : Digits :=
  let t := target bits
  search t (leadingPower t.value t.den) 0 17

/-- Which powers of ten are written out in full, rather than with an exponent. -/
structure Layout where
  leastPower : Int
  greatestPower : Int

def zeros (n : Nat) : List Char := List.replicate n '0'

/-- Positional digits, at least one of them behind the point. -/
def positional (digits : List Char) (leading : Int) : List Char :=
  if leading < 0 then '0' :: '.' :: zeros (-leading - 1).toNat ++ digits
  else
    let places := leading.toNat + 1
    let whole := digits.take places ++ zeros (places - digits.length)
    let fraction := digits.drop places
    whole ++ '.' :: (if fraction.isEmpty then ['0'] else fraction)

def scientific (digits : List Char) (leading : Int) : List Char :=
  let fraction := digits.drop 1
  digits.take 1 ++ (if fraction.isEmpty then [] else '.' :: fraction) ++ 'e' ::
    (toString leading).toList

def stripZeros (digits : List Char) : List Char :=
  (digits.reverse.dropWhile (· == '0')).reverse

def Layout.render (layout : Layout) (d : Double) : String :=
  let bits := d.bits.toNat
  if bits = 0 then "0.0"
  else if Double.infinity.bits.toNat ≤ bits then "inf"
  else
    let found := shortest bits
    let all := Nat.toDigits 10 found.digits
    let leading := found.power + (all.length - 1 : Nat)
    let digits := stripZeros all
    String.ofList <|
      if layout.leastPower ≤ leading ∧ leading ≤ layout.greatestPower then
        positional digits leading
      else scientific digits leading

end ActionSyntax.Shortest
