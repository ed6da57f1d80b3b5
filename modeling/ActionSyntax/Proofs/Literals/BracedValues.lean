import ActionSyntax.Proofs.Literals.CodePoints

/-!
The braced form of a code point, read in 32 bits. The value is looked at behind each digit, so it has
never more than four bits above the last code point and no shift loses one; where the reading fails
stands the first character that cannot belong to the spelling of a code point.
-/

namespace ActionSyntax

set_option autoImplicit false

open Scan Cursor CharClass

namespace Scan

/-- The digits up to a closing brace, shifted into 32 bits. -/
def bracedDigits32 : Nat → UInt32 → Cursor → Except Failure (UInt32 × Cursor)
  | 0, _, c => .error (.unexpected c)
  | fuel + 1, value, c =>
    if c.startsWith ['\x7d'] then .ok (value, c.skip 1)
    else do
      let (digit, c) ← hexDigit c
      let value := value <<< 4 ||| UInt32.ofNat digit
      if UInt32.ofNat greatestCodePoint < value then .error (.unexpected c)
      else bracedDigits32 fuel value c

/-- The braced form in 32 bits, from its opening brace on. -/
def bracedValue32 (c : Cursor) : Except Failure (UInt32 × Cursor) := do
  let (value, c) ← hexDigit (c.skip 1)
  bracedDigits32 (c.rest.length + 1) (UInt32.ofNat value) c

/-- What has been read in 32 bits, as a number. -/
def widen : UInt32 × Cursor → Nat × Cursor := Prod.map UInt32.toNat id

/-- Behind the digits, what comes next does not belong to the spelling of a code point. -/
def Offends (read : List Char) (next : Option Char) : Prop :=
  greatestCodePoint < hexValue read ∨
    ∀ ch ∈ next, isHexDigit ch = false ∧ (ch = '\x7d' → read = [])

section Machine

variable {c d : Cursor} {v digit : Nat} {value : UInt32}

theorem toNat_greatest : (UInt32.ofNat greatestCodePoint).toNat = greatestCodePoint := by decide

/-- Four bits are free above a code point. -/
theorem toNat_shifted (hvalue : value.toNat ≤ greatestCodePoint) (hdigit : digit < 16) :
    (value <<< 4 ||| UInt32.ofNat digit).toNat = value.toNat * 16 + digit := by
  have hgreatest : greatestCodePoint = 0x10FFFF := rfl
  have hsmall : (UInt32.ofNat digit).toNat = digit :=
    UInt32.toNat_ofNat_of_lt' (show digit < 2 ^ 32 by omega)
  have hshift : (value <<< 4).toNat = value.toNat * 2 ^ 4 := by
    rw [UInt32.toNat_shiftLeft, show (4 : UInt32).toNat % 32 = 4 from rfl, Nat.shiftLeft_eq]
    exact Nat.mod_eq_of_lt (by omega)
  rw [UInt32.toNat_or, hsmall, hshift, ← Nat.shiftLeft_eq,
    ← Nat.shiftLeft_add_eq_or_of_lt (show digit < 2 ^ 4 by omega), Nat.shiftLeft_eq]

theorem hexDigit_lt (h : hexDigit c = .ok (v, d)) : v < 16 := by
  obtain ⟨digit, -, -, rfl, -⟩ := hexDigit_ok_iff.mp h
  exact hexDigitValue_lt digit

/-- In 32 bits the digits stand for the same number. -/
theorem bracedDigits32_widen : ∀ {fuel : Nat} {value : UInt32} {c : Cursor},
    value.toNat ≤ greatestCodePoint →
      (bracedDigits32 fuel value c).map widen = bracedDigits fuel value.toNat c
  | 0, _, _, _ => rfl
  | fuel + 1, value, c, hvalue => by
    unfold bracedDigits32 bracedDigits
    split
    · rfl
    · cases hdigit : hexDigit c with
      | error f => rfl
      | ok read =>
        obtain ⟨digit, d⟩ := read
        have hshifted := toNat_shifted hvalue (hexDigit_lt hdigit)
        show (if _ then _ else _ : Except Failure (UInt32 × Cursor)).map widen =
          if _ then _ else _
        simp only [UInt32.lt_iff_toNat_lt, toNat_greatest, hshifted]
        split
        · rfl
        · rename_i hle
          rw [← hshifted]
          exact bracedDigits32_widen (by omega)

theorem bracedValue32_widen (c : Cursor) : (bracedValue32 c).map widen = bracedValue c := by
  unfold bracedValue32 bracedValue
  cases hdigit : hexDigit (c.skip 1) with
  | error f => rfl
  | ok read =>
    obtain ⟨digit, d⟩ := read
    have hlt := hexDigit_lt hdigit
    have hsmall : (UInt32.ofNat digit).toNat = digit :=
      UInt32.toNat_ofNat_of_lt' (show digit < 2 ^ 32 by omega)
    show (bracedDigits32 (d.rest.length + 1) (UInt32.ofNat digit) d).map widen =
      bracedDigits (d.rest.length + 1) digit d
    have hle : (UInt32.ofNat digit).toNat ≤ greatestCodePoint := by
      rw [hsmall]
      unfold greatestCodePoint
      omega
    rw [bracedDigits32_widen hle, hsmall]

end Machine

section Reading

variable {c : Cursor} {value fuel : Nat} {digit : Char} {digits more after : List Char}

theorem hexDigit_of_rest (hrest : c.rest = digit :: more) (hdigit : isHexDigit digit = true) :
    hexDigit c = .ok ((hexDigitValue? digit).getD 0, c.skip 1) :=
  hexDigit_ok_iff.mpr ⟨digit, by rw [hrest]; rfl, hdigit, rfl, rfl⟩

theorem hexDigit_offended (h : ∀ ch ∈ c.rest.head?, isHexDigit ch = false) :
    hexDigit c = .error (.unexpected c) := by
  unfold hexDigit
  cases hrest : c.rest with
  | nil => rfl
  | cons ch rest =>
    have hnot := h ch (by rw [hrest]; rfl)
    unfold isHexDigit at hnot
    cases hvalue : hexDigitValue? ch with
    | none => simp [hvalue]
    | some value =>
      rw [hvalue] at hnot
      cases hnot

theorem bracedDigits_digit (hrest : c.rest = digit :: more) (hdigit : isHexDigit digit = true) :
    bracedDigits (fuel + 1) value c =
      if greatestCodePoint < hexValueFrom value [digit] then .error (.unexpected (c.skip 1))
      else bracedDigits fuel (hexValueFrom value [digit]) (c.skip 1) := by
  have hopen : ¬ c.startsWith ['\x7d'] = true := by
    rw [startsWith_iff, prefix_cons_iff, hrest]
    rintro ⟨⟨⟩, -⟩
    exact absurd hdigit (by decide)
  rw [bracedDigits, if_neg hopen, hexDigit_of_rest hrest hdigit]
  rfl

/-- Digits are passed as long as they stand for a code point. -/
theorem bracedDigits_pass : ∀ {digits : List Char} {value : Nat} {c : Cursor},
    c.rest = digits ++ after → AllHex digits → hexValueFrom value digits ≤ greatestCodePoint →
      bracedDigits (fuel + digits.length) value c =
        bracedDigits fuel (hexValueFrom value digits) (c.skip digits.length)
  | [], _, _, _, _, _ => rfl
  | digit :: digits, value, c, hrest, hdigits, hbound => by
    obtain ⟨hdigit, hdigits⟩ := allHex_cons.mp hdigits
    have hmore : (c.skip 1).rest = digits ++ after := @rest_skip c [digit] _ hrest
    have hbound : hexValueFrom (hexValueFrom value [digit]) digits ≤ greatestCodePoint := hbound
    have hle := Nat.le_trans (le_hexValueFrom _ digits) hbound
    rw [List.length_cons, ← Nat.add_assoc, bracedDigits_digit hrest hdigit,
      if_neg (Nat.not_lt.mpr hle), bracedDigits_pass hmore hdigits hbound, skip_skip,
      Nat.add_comm 1]
    rfl

theorem bracedDigits_offended (hclose : ∀ ch ∈ c.rest.head?, ch ≠ '\x7d')
    (hdigit : ∀ ch ∈ c.rest.head?, isHexDigit ch = false) :
    bracedDigits (fuel + 1) value c = .error (.unexpected c) := by
  have hopen : ¬ c.startsWith ['\x7d'] = true := by
    rw [startsWith_iff, prefix_cons_iff]
    exact fun h => hclose _ h.1 rfl
  rw [bracedDigits, if_neg hopen, hexDigit_offended hdigit]
  rfl

end Reading

end Scan

namespace CharClass

theorem hexValueFrom_append (value : Nat) (front back : List Char) :
    hexValueFrom value (front ++ back) = hexValueFrom (hexValueFrom value front) back :=
  List.foldl_append

/-- Digits of too great a value have a first one behind which it is too great. -/
theorem exists_exceeding {bound value : Nat} {digits : List Char} (hle : value ≤ bound)
    (hlt : bound < hexValueFrom value digits) : ∃ front digit back, digits = front ++ digit :: back ∧
      hexValueFrom value front ≤ bound ∧ bound < hexValueFrom value (front ++ [digit]) := by
  induction digits generalizing value with
  | nil => exact absurd hlt (Nat.not_lt.mpr hle)
  | cons digit digits ih =>
    by_cases hdigit : bound < hexValueFrom value [digit]
    · exact ⟨[], digit, digits, rfl, hle, hdigit⟩
    · obtain ⟨front, next, back, rfl, hfront, hnext⟩ := ih (Nat.le_of_not_lt hdigit) hlt
      exact ⟨digit :: front, next, back, rfl, hfront, hnext⟩

theorem hexValue_le_append (front back : List Char) : hexValue front ≤ hexValue (front ++ back) := by
  rw [hexValue, hexValue, hexValueFrom_append]
  exact le_hexValueFrom _ back

/-- One more digit takes four bits. -/
theorem hexValue_lt_of_dropLast {digits : List Char} {bound : Nat}
    (h : hexValue digits.dropLast ≤ bound) : hexValue digits < bound * 16 + 16 := by
  rcases List.eq_nil_or_concat digits with rfl | ⟨front, last, rfl⟩
  · simp [hexValue]
  · rw [List.concat_eq_append, List.dropLast_concat] at h
    have hlast := hexDigitValue_lt last
    rw [List.concat_eq_append, hexValue, hexValueFrom_append]
    show hexValue front * 16 + (hexDigitValue? last).getD 0 < _
    omega

/-- Digits end where no digit follows. -/
theorem allHex_append_inj {digits others after behind : List Char}
    (h : digits ++ after = others ++ behind) (hdigits : AllHex digits) (hothers : AllHex others)
    (hafter : ∀ ch ∈ after.head?, isHexDigit ch = false)
    (hbehind : ∀ ch ∈ behind.head?, isHexDigit ch = false) : digits = others ∧ after = behind := by
  have stops : ∀ text : List Char, (∀ ch ∈ text.head?, isHexDigit ch = false) →
      text.takeWhile isHexDigit = [] := by
    intro text htext
    cases text with
    | nil => rfl
    | cons ch text => exact List.takeWhile_cons_of_neg (by simp [htext ch rfl])
  have hsame := congrArg (List.takeWhile isHexDigit) h
  rw [List.takeWhile_append_of_pos hdigits, List.takeWhile_append_of_pos hothers, stops after hafter,
    stops behind hbehind, List.append_nil, List.append_nil] at hsame
  subst hsame
  exact ⟨rfl, List.append_cancel_left h⟩

end CharClass

namespace Scan

variable {c : Cursor} {digits after : List Char}

/-- Before a digit that is too much, and before the end of digits without a brace, no digit is an
offence. -/
theorem not_offends {front back : List Char} {ch : Char} (hdigits : AllHex (front ++ ch :: back))
    (hbound : hexValue (front ++ ch :: back).dropLast ≤ greatestCodePoint) :
    ¬ Offends front (some ch) := by
  rw [List.dropLast_append_of_ne_nil (List.cons_ne_nil _ _)] at hbound
  rintro (hover | hnot)
  · exact absurd (Nat.le_trans (hexValue_le_append front _) hbound) (Nat.not_le.mpr hover)
  · have hhex := hdigits ch (by simp)
    rw [(hnot ch rfl).1] at hhex
    cases hhex

/-- Where the reading of digits in braces stops that does not succeed, behind digits of which all but
the last stand for a code point. -/
theorem bracedValue_offended (hrest : c.rest = '\x7b' :: (digits ++ after)) (hdigits : AllHex digits)
    (hafter : ∀ ch ∈ after.head?, isHexDigit ch = false)
    (hnot : ¬ (digits ≠ [] ∧ after.head? = some '\x7d' ∧ hexValue digits ≤ greatestCodePoint)) :
    ∃ read more, digits = read ++ more ∧
      bracedValue c = .error (.unexpected (c.skip (read.length + 1))) ∧
      Offends read (more ++ after).head? ∧ hexValue read.dropLast ≤ greatestCodePoint := by
  have hbehind : (c.skip 1).rest = digits ++ after := @rest_skip c ['\x7b'] _ hrest
  cases digits with
  | nil =>
    refine ⟨[], [], rfl, ?_, Or.inr fun ch hch => ⟨hafter ch hch, fun _ => rfl⟩, Nat.zero_le _⟩
    rw [bracedValue, hexDigit_offended (by rw [hbehind]; exact hafter)]
    rfl
  | cons first digits =>
    obtain ⟨hfirst, hmore⟩ := allHex_cons.mp hdigits
    generalize hvalue : (hexDigitValue? first).getD 0 = value
    have hlt : value < 16 := hvalue ▸ hexDigitValue_lt first
    have hle : value ≤ greatestCodePoint := by
      unfold greatestCodePoint
      omega
    have hfrom : ∀ text, hexValue (first :: text) = hexValueFrom value text := by
      intro text
      rw [hexValue, hexValueFrom_cons, Nat.zero_mul, Nat.zero_add, hvalue]
    have hinside : (c.skip 2).rest = digits ++ after := @rest_skip c ['\x7b', first] _ hrest
    have hread : bracedValue c =
        bracedDigits (1 + after.length + digits.length) value (c.skip 2) := by
      rw [bracedValue, hexDigit_of_rest hbehind hfirst, hvalue, skip_skip]
      show bracedDigits ((c.skip 2).rest.length + 1) value (c.skip 2) = _
      rw [hinside, List.length_append]
      congr 1
      omega
    by_cases hover : greatestCodePoint < hexValueFrom value digits
    · -- Behind some digit the value is too great, and whatever follows is an offence.
      obtain ⟨front, digit, back, rfl, hfront, hexceeds⟩ := exists_exceeding hle hover
      have hall : AllHex front := fun ch hch => hmore ch (by simp [hch])
      have hnext : ((c.skip 2).skip front.length).rest = digit :: (back ++ after) :=
        rest_skip (by rw [hinside]; simp)
      refine ⟨first :: (front ++ [digit]), back, by simp, ?_, Or.inl (by rwa [hfrom]), ?_⟩
      · have hrounds : 1 + after.length + (front ++ digit :: back).length =
            1 + after.length + back.length + 1 + front.length := by
          rw [List.length_append, List.length_cons]
          omega
        rw [hread, hrounds, bracedDigits_pass (by rw [hinside, List.append_assoc]) hall hfront,
          bracedDigits_digit hnext (hmore digit (by simp)), if_pos (by rwa [← hexValueFrom_append]),
          skip_skip, skip_skip]
        congr 3
        simp only [List.length_cons, List.length_append, List.length_nil]
        omega
      · rw [← List.cons_append, List.dropLast_concat, hfrom]
        exact hfront
    · -- All digits are passed, and behind them stands no closing brace.
      have hbound := Nat.le_of_not_lt hover
      have hclose : ∀ ch ∈ after.head?, ch ≠ '\x7d' := by
        rintro ch hch rfl
        exact hnot ⟨List.cons_ne_nil _ _, hch, by rwa [hfrom]⟩
      have hlast : ((c.skip 2).skip digits.length).rest = after := rest_skip hinside
      refine ⟨first :: digits, [], by simp, ?_, Or.inr fun ch hch => ?_, ?_⟩
      · rw [hread, bracedDigits_pass hinside hmore hbound, Nat.add_comm 1,
          bracedDigits_offended (by rwa [hlast]) (by rwa [hlast]), skip_skip, List.length_cons]
        congr 3
        omega
      · exact ⟨hafter ch hch, fun heq => absurd heq (hclose ch hch)⟩
      · obtain ⟨last, hsplit⟩ := List.dropLast_prefix (first :: digits)
        refine Nat.le_trans (hexValue_le_append _ last) ?_
        rwa [hsplit, hfrom]

/-- Digits in braces are read if the closing brace follows and they stand for a code point, of whatever
length they are; then all is passed and their value is returned. Otherwise the reading fails at the
first character that is an offence. The value of what is read fits into 25 bits, and the reading in 32
bits is the same. -/
theorem bracedValue_decides (hrest : c.rest = '\x7b' :: (digits ++ after)) (hdigits : AllHex digits)
    (hafter : ∀ ch ∈ after.head?, isHexDigit ch = false) :
    (∀ v d, bracedValue c = .ok (v, d) ↔
      (digits ≠ [] ∧ after.head? = some '\x7d' ∧ hexValue digits ≤ greatestCodePoint) ∧
        v = hexValue digits ∧ d = c.skip (digits.length + 2)) ∧
    (¬ (digits ≠ [] ∧ after.head? = some '\x7d' ∧ hexValue digits ≤ greatestCodePoint) →
      ∃ read more, digits = read ++ more ∧
        bracedValue c = .error (.unexpected (c.skip (read.length + 1))) ∧
        Offends read (more ++ after).head? ∧ hexValue read < 1 <<< 25 ∧
        ∀ front ch back, read = front ++ ch :: back → ¬ Offends front (some ch)) ∧
    (bracedValue32 c).map widen = bracedValue c := by
  refine ⟨fun v d => ?_, fun hnot => ?_, bracedValue32_widen c⟩
  · rw [bracedValue_ok_iff (by rw [hrest]; exact List.prefix_append ['\x7b'] _)]
    constructor
    · rintro ⟨others, hothers, hne, ⟨more, hmore⟩, rfl, hbound, rfl⟩
      have hsame : others ++ '\x7d' :: more = digits ++ after := by
        rw [hrest] at hmore
        simpa using hmore
      have hbrace : ∀ ch ∈ ('\x7d' :: more).head?, isHexDigit ch = false := by
        rintro ch ⟨⟩
        decide
      obtain ⟨rfl, rfl⟩ := allHex_append_inj hsame hothers hdigits hbrace hafter
      exact ⟨⟨hne, rfl, hbound⟩, rfl, rfl⟩
    · rintro ⟨⟨hne, hclose, hbound⟩, rfl, rfl⟩
      obtain ⟨more, rfl⟩ := List.head?_eq_some_iff.mp hclose
      exact ⟨digits, hdigits, hne, ⟨more, by rw [hrest]; simp⟩, rfl, hbound, rfl⟩
  · obtain ⟨read, more, rfl, herror, hoffends, hbound⟩ :=
      bracedValue_offended hrest hdigits hafter hnot
    refine ⟨read, more, rfl, herror, hoffends, ?_, ?_⟩
    · have hlt := hexValue_lt_of_dropLast hbound
      unfold greatestCodePoint at hlt
      omega
    · rintro front ch back rfl
      exact not_offends (fun digit hmem => hdigits digit (List.mem_append_left more hmem)) hbound

/-- Zeros may lead, and the last code point is read; of greater digits the seventh is an offence. -/
theorem bracedValue_lastCodePoint :
    (∃ d, bracedValue (Cursor.ofContent "\x7b00000010ffff\x7d".toList) = .ok (0x10FFFF, d)) ∧
      ∃ d, bracedValue (Cursor.ofContent "\x7b1100000".toList) = .error (.unexpected d) ∧
        d.index = 7 := by
  have hclosed : ∀ ch ∈ ['\x7d'].head?, isHexDigit ch = false := by
    rintro _ ⟨⟩
    rfl
  have hread := @bracedValue_decides (Cursor.ofContent "\x7b00000010ffff\x7d".toList)
    "00000010ffff".toList ['\x7d'] rfl (by decide +kernel) hclosed
  have hstop := @bracedValue_decides (Cursor.ofContent "\x7b1100000".toList) "1100000".toList []
    rfl (by decide +kernel) nofun
  constructor
  · exact ⟨_, (hread.1 _ _).mpr ⟨by decide +kernel, by decide +kernel, rfl⟩⟩
  · obtain ⟨read, more, -, herror, -⟩ := hstop.2.1 (by decide +kernel)
    have hplace : (match bracedValue (Cursor.ofContent "\x7b1100000".toList) with
        | .ok read => read.2.index
        | .error f => f.span.start) = 7 := by decide +kernel
    rw [herror] at hplace
    refine ⟨_, herror, Eq.trans ?_ hplace⟩
    dsimp only [Failure.unexpected]
    split <;> rfl

end Scan

end ActionSyntax
