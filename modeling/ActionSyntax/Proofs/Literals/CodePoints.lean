import ActionSyntax.Proofs.Places.Passing

/-!
Characters spelled by their code points: two hexadecimal digits behind `x`, four behind `u`, or any
number of them in braces behind either letter. Such a spelling is read wherever it stands, and nothing
else is.
-/

namespace ActionSyntax

set_option autoImplicit false

open Scan Cursor

namespace CharClass

/-- The value of hexadecimal digits behind others that have the given value. -/
def hexValueFrom (value : Nat) (digits : List Char) : Nat :=
  digits.foldl (fun value digit => value * 16 + (hexDigitValue? digit).getD 0) value

def hexValue (digits : List Char) : Nat := hexValueFrom 0 digits

def AllHex (digits : List Char) : Prop := ∀ digit ∈ digits, isHexDigit digit = true

instance (digits : List Char) : Decidable (AllHex digits) :=
  decidable_of_iff (digits.all isHexDigit = true) (by simp [AllHex])

@[simp] theorem hexValueFrom_nil (value : Nat) : hexValueFrom value [] = value := rfl

@[simp] theorem hexValueFrom_cons (value : Nat) (digit : Char) (digits : List Char) :
    hexValueFrom value (digit :: digits) =
      hexValueFrom (value * 16 + (hexDigitValue? digit).getD 0) digits := rfl

theorem le_hexValueFrom (value : Nat) (digits : List Char) : value ≤ hexValueFrom value digits := by
  induction digits generalizing value with
  | nil => exact Nat.le_refl value
  | cons digit digits ih =>
    rw [hexValueFrom_cons]
    exact Nat.le_trans (by omega) (ih _)

theorem allHex_cons {digit : Char} {digits : List Char} :
    AllHex (digit :: digits) ↔ isHexDigit digit = true ∧ AllHex digits := by
  simp [AllHex]

theorem hexDigitValue_lt (digit : Char) : (hexDigitValue? digit).getD 0 < 16 := by
  have hat : ∀ ch : Char, ch.toNat = ch.val.toNat := fun _ => rfl
  have hlast : ('9' : Char).toNat = 57 ∧ ('f' : Char).toNat = 102 ∧ ('F' : Char).toNat = 70 ∧
    ('0' : Char).toNat = 48 ∧ ('a' : Char).toNat = 97 ∧ ('A' : Char).toNat = 65 := by decide
  unfold hexDigitValue?
  simp only [Char.le_def, UInt32.le_iff_toNat_le, ← hat, Bool.and_eq_true, decide_eq_true_eq]
  split
  · simp only [Option.getD_some]
    omega
  split
  · simp only [Option.getD_some]
    omega
  split
  · simp only [Option.getD_some]
    omega
  · decide

theorem AllHex.narrow {digits : List Char} (h : AllHex digits) : AllNarrow digits :=
  fun digit hmem => .isHexDigit (h digit hmem)

end CharClass

open CharClass

namespace Cursor

theorem startsWith_of_rest {c : Cursor} {text rest : List Char} (h : c.rest = text ++ rest) :
    c.startsWith text = true := startsWith_iff.mpr (h ▸ List.prefix_append text rest)

theorem rest_skip {c : Cursor} {text rest : List Char} (h : c.rest = text ++ rest) :
    (c.skip text.length).rest = rest := by
  simp [skip, h]

/-- A text and its notes lead to a single place. -/
theorem Passes.unique {c d d' : Cursor} {text : List Char} {notes : List Comment}
    (h : c.Passes text notes d) (h' : c.Passes text notes d') : d = d' := by
  have hrest : d.rest = d'.rest := List.append_cancel_left (h.rest.symm.trans h'.rest)
  cases d
  cases d'
  simp only [Cursor.mk.injEq]
  exact ⟨hrest, h.index.trans h'.index.symm, h.line.trans h'.line.symm, h.lines.trans h'.lines.symm,
    h.noted.trans h'.noted.symm⟩

/-- What stands here is passed by skipping it, and what follows in turn. -/
theorem prefix_cons_iff {c : Cursor} {ch : Char} {text : List Char} :
    ch :: text <+: c.rest ↔ c.rest.head? = some ch ∧ text <+: (c.skip 1).rest := by
  cases hrest : c.rest with
  | nil => simp
  | cons first rest =>
    rw [List.cons_prefix_cons, List.head?_cons, Option.some.injEq, @eq_comm _ ch]
    simp [skip, hrest]

end Cursor

namespace Scan

section Digits

variable {c d : Cursor} {v value : Nat}

theorem hexDigit_ok_iff : hexDigit c = .ok (v, d) ↔
    ∃ digit, c.rest.head? = some digit ∧ isHexDigit digit = true ∧
      v = (hexDigitValue? digit).getD 0 ∧ d = c.skip 1 := by
  unfold hexDigit isHexDigit
  cases hrest : c.rest with
  | nil => simp
  | cons digit rest =>
    cases hvalue : hexDigitValue? digit with
    | none => simp [hvalue]
    | some w =>
      simp only [hvalue]
      constructor
      · rintro ⟨⟩
        exact ⟨digit, rfl, by rw [hvalue]; rfl, by rw [hvalue]; rfl, rfl⟩
      · rintro ⟨_, ⟨⟩, -, rfl, rfl⟩
        rw [hvalue]
        rfl

theorem fixedDigits_ok_iff {count : Nat} : fixedDigits count value c = .ok (v, d) ↔
    ∃ digits, AllHex digits ∧ digits.length = count ∧ digits <+: c.rest ∧
      v = hexValueFrom value digits ∧ d = c.skip digits.length := by
  induction count generalizing value c with
  | zero =>
    constructor
    · rintro ⟨⟩
      exact ⟨[], nofun, rfl, List.nil_prefix, rfl, by simp [skip]⟩
    · rintro ⟨digits, -, hlength, -, rfl, rfl⟩
      obtain rfl := List.length_eq_zero_iff.mp hlength
      simp [fixedDigits, skip]
  | succ count ih =>
    constructor
    · intro h
      obtain ⟨⟨w, e⟩, hdigit, hmore⟩ := ok_of_bind h
      obtain ⟨digit, hhead, hhex, rfl, rfl⟩ := hexDigit_ok_iff.mp hdigit
      obtain ⟨digits, hall, rfl, hbegin, rfl, rfl⟩ := ih.mp hmore
      exact ⟨digit :: digits, allHex_cons.mpr ⟨hhex, hall⟩, rfl, prefix_cons_iff.mpr ⟨hhead, hbegin⟩,
        rfl, by rw [skip_skip, List.length_cons, Nat.add_comm]⟩
    · rintro ⟨digits, hall, hlength, hbegin, rfl, rfl⟩
      cases digits with
      | nil => cases hlength
      | cons digit digits =>
        obtain ⟨hhex, hall⟩ := allHex_cons.mp hall
        obtain ⟨hhead, hbegin⟩ := prefix_cons_iff.mp hbegin
        unfold fixedDigits
        rw [hexDigit_ok_iff.mpr ⟨digit, hhead, hhex, rfl, rfl⟩]
        refine ih.mpr ⟨digits, hall, Nat.succ.inj hlength, hbegin, rfl, ?_⟩
        rw [skip_skip, List.length_cons, Nat.add_comm]

/-- A value that is too great stays so, whatever digits follow; so it does not matter that it is looked
at behind each digit. -/
theorem bracedDigits_ok_iff {fuel : Nat} (hfuel : c.rest.length < fuel) :
    bracedDigits fuel value c = .ok (v, d) ↔
      ∃ digits, AllHex digits ∧ digits ++ ['\x7d'] <+: c.rest ∧ v = hexValueFrom value digits ∧
        (digits ≠ [] → v ≤ greatestCodePoint) ∧ d = c.skip (digits.length + 1) := by
  have hclose : isHexDigit '\x7d' = false := by decide
  induction fuel generalizing value c with
  | zero => omega
  | succ fuel ih =>
    have hlength : ∀ digit, c.rest.head? = some digit → (c.skip 1).rest.length < fuel := by
      intro digit hhead
      have hpos : 0 < c.rest.length := List.length_pos_iff.mpr (by rintro h; simp [h] at hhead)
      simp only [skip, List.length_drop]
      omega
    unfold bracedDigits
    by_cases hs : c.startsWith ['\x7d'] = true
    · have hbegin := startsWith_iff.mp hs
      rw [if_pos hs]
      constructor
      · rintro ⟨⟩
        exact ⟨[], List.forall_mem_nil _, hbegin, rfl, fun h => absurd rfl h, rfl⟩
      · rintro ⟨digits, hall, hdigits, rfl, -, rfl⟩
        cases digits with
        | nil => rfl
        | cons digit digits =>
          have hhead := (prefix_cons_iff.mp hdigits).1
          rw [(prefix_cons_iff.mp hbegin).1] at hhead
          cases hhead
          simp [(allHex_cons.mp hall).1] at hclose
    · rw [if_neg hs]
      constructor
      · intro h
        obtain ⟨⟨w, e⟩, hdigit, hmore⟩ := ok_of_bind h
        obtain ⟨digit, hhead, hhex, rfl, rfl⟩ := hexDigit_ok_iff.mp hdigit
        dsimp only at hmore
        split at hmore
        · cases hmore
        · rename_i hle
          obtain ⟨digits, hall, hbegin, rfl, hbound, rfl⟩ := (ih (hlength digit hhead)).mp hmore
          refine ⟨digit :: digits, allHex_cons.mpr ⟨hhex, hall⟩, prefix_cons_iff.mpr ⟨hhead, hbegin⟩,
            rfl, fun _ => ?_, ?_⟩
          · cases digits with
            | nil => exact Nat.le_of_not_lt hle
            | cons => exact hbound (List.cons_ne_nil _ _)
          · rw [skip_skip, List.length_cons]
            congr 1
            omega
      · rintro ⟨digits, hall, hbegin, rfl, hbound, rfl⟩
        cases digits with
        | nil => exact absurd (startsWith_iff.mpr hbegin) hs
        | cons digit digits =>
          obtain ⟨hhex, hall⟩ := allHex_cons.mp hall
          obtain ⟨hhead, hbegin⟩ := prefix_cons_iff.mp hbegin
          have hbound := hbound (List.cons_ne_nil _ _)
          rw [hexDigit_ok_iff.mpr ⟨digit, hhead, hhex, rfl, rfl⟩]
          have hle := Nat.le_trans (le_hexValueFrom _ digits) hbound
          refine (if_neg (Nat.not_lt.mpr hle)).trans ?_
          refine (ih (hlength digit hhead)).mpr ⟨digits, hall, hbegin, rfl, fun _ => hbound, ?_⟩
          rw [skip_skip, List.length_cons]
          congr 1
          omega

end Digits

/-- A code point as it is spelled. -/
structure CodePoint where
  letter : Char
  braced : Bool
  digits : List Char

namespace CodePoint

/-- What stands behind the letter. -/
def body (p : CodePoint) : List Char :=
  if p.braced then '\x7b' :: (p.digits ++ ['\x7d']) else p.digits

def text (p : CodePoint) : List Char := p.letter :: p.body

/-- How many digits a letter asks for that no brace follows. -/
def width (letter : Char) : Nat := if letter = 'x' then 2 else 4

structure Proper (p : CodePoint) : Prop where
  letter : p.letter = 'x' ∨ p.letter = 'u'
  digits : AllHex p.digits
  nonempty : p.digits ≠ []
  width : p.braced = false → p.digits.length = width p.letter
  bound : p.braced = true → hexValue p.digits ≤ greatestCodePoint

/-- The character, which is the replacement character for a surrogate. -/
def char (p : CodePoint) : Char := charOfValue (hexValue p.digits)

theorem Proper.narrow {p : CodePoint} (h : p.Proper) : AllNarrow p.text := by
  have hdigits := h.digits.narrow
  have hletter : Narrow p.letter := by rcases h.letter with heq | heq <;> rw [heq] <;> decide
  have hends : Narrow '\x7b' ∧ AllNarrow ['\x7d'] := by decide
  refine List.forall_mem_cons.mpr ⟨hletter, ?_⟩
  unfold body
  split
  · exact List.forall_mem_cons.mpr ⟨hends.1, List.forall_mem_append.mpr ⟨hdigits, hends.2⟩⟩
  · exact hdigits

end CodePoint

section Characters

variable {c d : Cursor} {v : Nat} {letter : Char}

theorem bracedValue_ok_iff (hopen : ['\x7b'] <+: c.rest) : bracedValue c = .ok (v, d) ↔
    ∃ digits, AllHex digits ∧ digits ≠ [] ∧ '\x7b' :: (digits ++ ['\x7d']) <+: c.rest ∧
      v = hexValue digits ∧ v ≤ greatestCodePoint ∧ d = c.skip (digits.length + 2) := by
  have hhead := (prefix_cons_iff.mp hopen).1
  unfold bracedValue
  constructor
  · intro h
    obtain ⟨⟨w, e⟩, hdigit, hmore⟩ := ok_of_bind h
    obtain ⟨digit, hfirst, hhex, rfl, rfl⟩ := hexDigit_ok_iff.mp hdigit
    obtain ⟨digits, hall, hbegin, rfl, hbound, rfl⟩ :=
      (bracedDigits_ok_iff (Nat.lt_succ_self _)).mp hmore
    refine ⟨digit :: digits, allHex_cons.mpr ⟨hhex, hall⟩, List.cons_ne_nil _ _,
      prefix_cons_iff.mpr ⟨hhead, prefix_cons_iff.mpr ⟨hfirst, hbegin⟩⟩, ?_, ?_, ?_⟩
    · simp [hexValue]
    · cases digits with
      | nil =>
        have hlt := hexDigitValue_lt digit
        simp only [hexValueFrom_nil, greatestCodePoint]
        omega
      | cons => exact hbound (List.cons_ne_nil _ _)
    · simp only [skip_skip, List.length_cons]
      congr 1
      omega
  · rintro ⟨digits, hall, hne, hbegin, rfl, hbound, rfl⟩
    obtain ⟨digit, digits, rfl⟩ := List.exists_cons_of_ne_nil hne
    obtain ⟨hhex, hall⟩ := allHex_cons.mp hall
    obtain ⟨hfirst, hbegin⟩ := prefix_cons_iff.mp (prefix_cons_iff.mp hbegin).2
    rw [hexDigit_ok_iff.mpr ⟨digit, hfirst, hhex, rfl, rfl⟩]
    refine (bracedDigits_ok_iff (Nat.lt_succ_self _)).mpr ⟨digits, hall, hbegin, ?_, fun _ => hbound, ?_⟩
    · simp [hexValue]
    · simp only [skip_skip, List.length_cons]
      congr 1
      omega

theorem escapeValue_ok_iff (hletter : letter = 'x' ∨ letter = 'u') :
    escapeValue (CodePoint.width letter) c = .ok (v, d) ↔
      ∃ p : CodePoint, p.Proper ∧ p.letter = letter ∧ p.body <+: c.rest ∧ v = hexValue p.digits ∧
        d = c.skip p.body.length := by
  unfold escapeValue
  by_cases hs : c.startsWith ['\x7b'] = true
  · rw [if_pos hs, bracedValue_ok_iff (startsWith_iff.mp hs)]
    constructor
    · rintro ⟨digits, hall, hne, hbegin, rfl, hbound, rfl⟩
      exact ⟨⟨letter, true, digits⟩, ⟨hletter, hall, hne, nofun, fun _ => hbound⟩, rfl, hbegin, rfl,
        by simp [CodePoint.body]⟩
    · rintro ⟨⟨_, braced, digits⟩, hp, rfl, hbegin, rfl, rfl⟩
      cases braced with
      | true =>
        exact ⟨digits, hp.digits, hp.nonempty, hbegin, rfl, hp.bound rfl, by simp [CodePoint.body]⟩
      | false =>
        exfalso
        obtain ⟨digit, digits, rfl⟩ := List.exists_cons_of_ne_nil hp.nonempty
        have hdigit := (prefix_cons_iff.mp hbegin).1
        rw [(prefix_cons_iff.mp (startsWith_iff.mp hs)).1] at hdigit
        cases hdigit
        exact absurd (hp.digits _ List.mem_cons_self) (by decide)
  · rw [if_neg hs, fixedDigits_ok_iff]
    constructor
    · rintro ⟨digits, hall, hlength, hbegin, rfl, rfl⟩
      refine ⟨⟨letter, false, digits⟩, ⟨hletter, hall, ?_, fun _ => hlength, nofun⟩, rfl, hbegin, rfl, rfl⟩
      rintro rfl
      rcases hletter with rfl | rfl <;> exact absurd hlength (by decide)
    · rintro ⟨⟨_, braced, digits⟩, hp, rfl, hbegin, rfl, rfl⟩
      cases braced with
      | true =>
        refine absurd (startsWith_iff.mpr ?_) hs
        exact List.IsPrefix.trans (by simp [CodePoint.body]) hbegin
      | false => exact ⟨digits, hp.digits, hp.width rfl, hbegin, rfl, rfl⟩

/-- From its letter on, just the spelling of a code point is read. -/
theorem escapedChar_ok_iff {ch : Char} : escapedChar c = .ok (ch, d) ↔
    ∃ p : CodePoint, p.Proper ∧ p.text <+: c.rest ∧ ch = p.char ∧ d = c.skip p.text.length := by
  have value : ∀ letter, letter = 'x' ∨ letter = 'u' → c.rest.head? = some letter →
      ((escapeValue (CodePoint.width letter) (c.skip 1) >>= fun x => pure (charOfValue x.1, x.2)) =
          .ok (ch, d) ↔
        ∃ p : CodePoint, p.Proper ∧ p.text <+: c.rest ∧ ch = p.char ∧ d = c.skip p.text.length) := by
    intro letter hletter hhead
    constructor
    · intro h
      obtain ⟨⟨v, e⟩, hvalue, hpure⟩ := ok_of_bind h
      obtain ⟨p, hp, rfl, hbegin, rfl, rfl⟩ := (escapeValue_ok_iff hletter).mp hvalue
      cases hpure
      exact ⟨p, hp, prefix_cons_iff.mpr ⟨hhead, hbegin⟩, rfl,
        by rw [skip_skip, CodePoint.text, List.length_cons, Nat.add_comm]⟩
    · rintro ⟨p, hp, hbegin, rfl, rfl⟩
      obtain ⟨hhead', hbegin⟩ := prefix_cons_iff.mp hbegin
      obtain rfl : letter = p.letter := Option.some.inj (hhead.symm.trans hhead')
      rw [(escapeValue_ok_iff hletter).mpr ⟨p, hp, rfl, hbegin, rfl, rfl⟩]
      show Except.ok _ = _
      rw [skip_skip, CodePoint.text, List.length_cons, Nat.add_comm]
      rfl
  unfold escapedChar
  dsimp only
  split
  · rename_i hrest
    exact value 'u' (Or.inr rfl) (by simp [hrest])
  · rename_i hrest
    exact value 'x' (Or.inl rfl) (by simp [hrest])
  · rename_i hu hx
    constructor
    · rintro ⟨⟩
    · rintro ⟨p, hp, ⟨more, hrest⟩, -⟩
      have hrest : c.rest = p.letter :: (p.body ++ more) := hrest.symm
      rcases hp.letter with heq | heq
      · exact absurd (heq ▸ hrest) (hx _)
      · exact absurd (heq ▸ hrest) (hu _)

end Characters

end Scan

end ActionSyntax
