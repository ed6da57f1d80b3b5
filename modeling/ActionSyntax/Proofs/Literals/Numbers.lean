import ActionSyntax.Proofs.Literals.NumberParts
import ActionSyntax.Proofs.Literals.Strings

/-!
Number literals. Where one begins it is read as far as a number goes; or it has begun something that is not
carried through, and then there is no token at all, also where a shorter number would have been one. The
number does not depend on where the separators stand, and without them its text is one that can be
converted: a radix with digits of it, or a mantissa of at least one digit.
-/

namespace ActionSyntax

set_option autoImplicit false

open Scan Cursor CharClass Decimal

namespace Scan

inductive Radix where
  | hexadecimal
  | binary

namespace Radix

def base : Radix → Nat
  | hexadecimal => 16
  | binary => 2

def isDigit : Radix → Char → Bool
  | hexadecimal => isHexDigit
  | binary => isBinaryDigit

def ofLetter? (ch : Char) : Option Radix :=
  if ch == 'x' || ch == 'X' then some hexadecimal
  else if ch == 'b' || ch == 'B' then some binary
  else none

end Radix

/-- The literals for numbers. -/
inductive Numeral : List Char → Prop
  | radix {r : Radix} {letter : Char} {run : List Char} : Radix.ofLetter? letter = some r →
      Run r.isDigit run → Numeral ('0' :: letter :: run)
  | whole {run fraction exponent : List Char} : Run isDecimalDigit run → Fraction fraction →
      Exponent exponent → Numeral (run ++ (fraction ++ exponent))
  | point {run exponent : List Char} : Run isDecimalDigit run → Exponent exponent →
      Numeral ('.' :: (run ++ exponent))

/-- A number has begun that is not carried through. -/
inductive Stumbles : List Char → Prop
  | zero {digit : Char} {rest : List Char} : isDecimalDigit digit = true →
      Stumbles ('0' :: digit :: rest)
  | radix {r : Radix} {letter : Char} {rest : List Char} : Radix.ofLetter? letter = some r →
      LoseRun r.isDigit rest → Stumbles ('0' :: letter :: rest)
  | whole {rest : List Char} : Begins isDecimalDigit rest → LoseDigits isDecimalDigit rest →
      Stumbles rest
  | fraction {run rest : List Char} : Run isDecimalDigit run → LoseFraction rest →
      Stumbles (run ++ rest)
  | exponent {run fraction rest : List Char} : Run isDecimalDigit run → Fraction fraction →
      LoseExponent rest → Stumbles (run ++ (fraction ++ rest))
  | point {rest : List Char} : Begins isDecimalDigit rest → LoseDigits isDecimalDigit rest →
      Stumbles ('.' :: rest)
  | pointExponent {run rest : List Char} : Run isDecimalDigit run → LoseExponent rest →
      Stumbles ('.' :: (run ++ rest))

/-- Here a number begins. -/
inductive LeadsNumeral : List Char → Prop
  | digit {ch : Char} {rest : List Char} : isDecimalDigit ch = true → LeadsNumeral (ch :: rest)
  | point {ch : Char} {rest : List Char} : isDecimalDigit ch = true →
      LeadsNumeral ('.' :: ch :: rest)

/-- The number that a literal without its separators stands for. -/
def numeralValue : List Char → Double
  | '0' :: letter :: digits =>
    match Radix.ofLetter? letter with
    | some r => Double.ofDigits r.base (digits.filterMap hexDigitValue?)
    | none => Decimal.parse ('0' :: letter :: digits)
  | text => Decimal.parse text

section Reading

variable {c d : Cursor} {text rest : List Char} {r : Radix} {letter : Char}

/-- The parts of a decimal number that begins with a digit. -/
def Whole : List Char → Prop := Behind (Run isDecimalDigit) (Behind Fraction Exponent)

def LoseWhole (rest : List Char) : Prop :=
  LoseRun isDecimalDigit rest ∨
    Behind (Run isDecimalDigit) (fun rest => LoseFraction rest ∨ Behind Fraction LoseExponent rest) rest

def wholeNumber (c : Cursor) : Except Failure Cursor :=
  run isDecimalDigit c >>= fun c => fractionPart c >>= exponentPart

def pointNumber (c : Cursor) : Except Failure Cursor := run isDecimalDigit c >>= exponentPart

def isPointOrMark (ch : Char) : Bool := ch == '.' || isExponentMark ch

theorem mark_not_digit (ch : Char) (h : isDecimalDigit ch = true) : isExponentMark ch = false := by
  rw [Bool.eq_false_iff]
  intro hmark
  simp only [isExponentMark, Bool.or_eq_true, beq_iff_eq] at hmark
  rcases hmark with rfl | rfl <;> revert h <;> decide

theorem pointOrMark_not_digit (ch : Char) (h : isDecimalDigit ch = true) :
    isPointOrMark ch = false := by
  have hpoint : ch ≠ '.' := by
    rintro rfl
    revert h
    decide
  simp [isPointOrMark, mark_not_digit ch h, hpoint]

theorem Begins.pointOrMark (h : Begins (· == '.') text ∨ Begins isExponentMark text) :
    Begins isPointOrMark text := by
  rcases h with h | h <;> obtain ⟨ch, after, rfl, hch⟩ := h.cons
  · exact Bool.or_eq_true_iff.mpr (Or.inl hch)
  · exact Bool.or_eq_true_iff.mpr (Or.inr hch)

theorem Behind.begins {second : List Char → Prop} (h : Behind Fraction second text)
    (hsecond : ∀ text, second text → text = [] ∨ Begins isExponentMark text) :
    text = [] ∨ Begins isPointOrMark text := by
  obtain ⟨before, after, hbefore, hafter, rfl⟩ := h
  rcases hbefore with rfl | ⟨ch, inside, hch, -, rfl⟩
  · exact (hsecond after hafter).imp_right fun h => .pointOrMark (Or.inr h)
  · exact Or.inr (.pointOrMark (Or.inl hch))

theorem fractionExponent_exact : Exact (Behind Fraction Exponent)
    (fun rest => LoseFraction rest ∨ Behind Fraction LoseExponent rest)
    (fun c => fractionPart c >>= exponentPart) := by
  refine fractionPart_exact.append exponentPart_exact ?_ (fun _ h => h.imp_right Led.begins)
    (fun _ => Led.begins)
  rintro text (rfl | ⟨ch, after, hch, hafter, rfl⟩)
  · exact fun _ hmem => nomatch hmem
  · refine List.forall_mem_cons.mpr ⟨?_, hafter.forall (by decide) mark_not_digit⟩
    rw [eq_of_beq hch]
    decide

theorem run_exact_decimal :
    Exact (Run isDecimalDigit) (LoseRun isDecimalDigit) (run isDecimalDigit) :=
  run_exact (by decide) fun _ => .isDecimalDigit

theorem wholeNumber_exact : Exact Whole LoseWhole wholeNumber := by
  refine run_exact_decimal.append fractionExponent_exact
    (fun _ h => h.digits.forall (by decide) pointOrMark_not_digit)
    (fun _ h => h.begins fun _ h => h.imp_right Led.begins) ?_
  rintro text (h | ⟨before, after, hbefore, hafter, rfl⟩)
  · exact .pointOrMark (Or.inl h.begins)
  · refine (Behind.begins ⟨before, after, hbefore, hafter, rfl⟩ fun _ h =>
      Or.inr h.begins).resolve_left fun hnil => ?_
    rw [(List.append_eq_nil_iff.mp hnil).2] at hafter
    exact not_begins_nil hafter.begins

theorem pointNumber_exact : Exact (Behind (Run isDecimalDigit) Exponent)
    (fun rest => LoseRun isDecimalDigit rest ∨ Behind (Run isDecimalDigit) LoseExponent rest)
    pointNumber :=
  run_exact_decimal.append exponentPart_exact
    (fun _ h => h.digits.forall (by decide) mark_not_digit) (fun _ h => h.imp_right Led.begins)
    (fun _ => Led.begins)

/-- The number that has been passed to the cursor is the literal. -/
def literalOf (text : List Char) : Lexeme :=
  { kind := .number, number := numeralValue (withoutSeparators text) }

/-- At the cursor the longest number is read, or something has begun that is not carried through. -/
def ReadsNumeral (c : Cursor) (read : Except Failure (Lexeme × Cursor)) : Prop :=
  (∃ text d, Longest Numeral text c.rest ∧ c.Passes text [] d ∧ ¬ Stumbles c.rest ∧
    read = .ok (literalOf text, d)) ∨ (Stumbles c.rest ∧ ∃ failure, read = .error failure)

theorem textTo_passes {notes : List Comment} (h : c.Passes text notes d) : c.textTo d = text := by
  rw [textTo, h.rest, h.index, Nat.add_sub_cancel_left, Utf8.takeBytes_append]

section Radix

theorem withoutSeparators_cons {ch : Char} (hch : ch ≠ '_') (text : List Char) :
    withoutSeparators (ch :: text) = ch :: withoutSeparators text := by
  simp [withoutSeparators, hch]

theorem Radix.isDigit_narrow (r : Radix) (ch : Char) (h : r.isDigit ch = true) : Narrow ch := by
  cases r with
  | hexadecimal => exact .isHexDigit h
  | binary => exact .isBinaryDigit h

theorem Radix.separator (r : Radix) : r.isDigit '_' = false := by cases r <;> decide

theorem Radix.ofLetter?_some (h : ofLetter? letter = some r) :
    (letter = 'x' ∨ letter = 'X') ∧ r = hexadecimal ∨ (letter = 'b' ∨ letter = 'B') ∧ r = binary := by
  unfold ofLetter? at h
  split at h
  · rename_i hletter
    cases h
    simpa using hletter
  · split at h
    · rename_i hletter
      cases h
      simpa using hletter
    · cases h

theorem Radix.ofLetter?_eq_none {ch : Char} (h : ofLetter? ch = none) :
    (ch == 'x' || ch == 'X') = false ∧ (ch == 'b' || ch == 'B') = false := by
  unfold ofLetter? at h
  split at h
  · cases h
  · split at h
    · cases h
    · exact ⟨Bool.eq_false_iff.mpr ‹_›, Bool.eq_false_iff.mpr ‹_›⟩

/-- No radix letter goes on a decimal number. -/
theorem Radix.letter_free (h : ofLetter? letter = some r) : Narrow letter ∧ letter ≠ '_' ∧
    isDecimalDigit letter = false ∧ isPointOrMark letter = false ∧ isSign letter = false := by
  rcases ofLetter?_some h with ⟨rfl | rfl, -⟩ | ⟨rfl | rfl, -⟩ <;> decide

theorem numeralValue_radix (hletter : Radix.ofLetter? letter = some r) (text : List Char) :
    numeralValue (withoutSeparators ('0' :: letter :: text)) =
      Double.ofDigits r.base ((withoutSeparators text).filterMap hexDigitValue?) := by
  rw [withoutSeparators_cons (by decide), withoutSeparators_cons (Radix.letter_free hletter).2.1]
  simp only [numeralValue, hletter]

theorem numberLiteral_radix (hletter : Radix.ofLetter? letter = some r)
    (hrest : c.rest = '0' :: letter :: rest) :
    numberLiteral c = radixLiteral r.base r.isDigit (c.skip 1) := by
  have hzero : nextIs (· == '0') c = true := by simp [nextIs, hrest]
  have hbehind : (c.skip 1).rest.head? = some letter := by simp [skip, hrest]
  unfold numberLiteral
  rw [if_pos hzero]
  unfold nextIs
  rw [hbehind]
  rcases Radix.ofLetter?_some hletter with ⟨rfl | rfl, rfl⟩ | ⟨rfl | rfl, rfl⟩ <;> rfl

theorem radixLiteral_eq (radix : Nat) (isDigit : Char → Bool) (c : Cursor) :
    radixLiteral radix isDigit c = run isDigit (c.skip 1) >>= fun d =>
      let values := (withoutSeparators ((c.skip 1).textTo d)).filterMap hexDigitValue?
      .ok ({ kind := .number, number := Double.ofDigits radix values }, d) := by
  unfold radixLiteral run
  by_cases hnext : nextIs isDigit (c.skip 1) = true
  · rw [if_pos hnext, if_neg (by simpa using hnext)]
    rfl
  · rw [if_neg hnext, if_pos (by simpa using hnext)]
    rfl

theorem digits_one {ch : Char} (hrest : c.rest = ch :: rest) (hch : isDecimalDigit ch = true)
    (hnext : ∀ next after, rest = next :: after → next ≠ '_' ∧ isDecimalDigit next = false) :
    digits isDecimalDigit c = .ok (c.skip 1) := by
  have hne : ch ≠ '_' := by
    rintro rfl
    revert hch
    decide
  unfold digits
  rw [hrest, digitRun_cons hne, if_pos hch]
  cases rest with
  | nil => rfl
  | cons next after =>
    obtain ⟨hsep, hdigit⟩ := hnext next after rfl
    rw [digitRun_cons hsep, hdigit]
    rfl

/-- Before a radix letter a decimal number has but one digit. -/
theorem wholeNumber_letter (hletter : Radix.ofLetter? letter = some r)
    (hrest : c.rest = '0' :: letter :: rest) : wholeNumber c = .ok (c.skip 1) := by
  obtain ⟨-, hsep, hdigit, hmark, -⟩ := Radix.letter_free hletter
  obtain ⟨hpoint, hmark⟩ := Bool.or_eq_false_iff.mp hmark
  have hbehind : (c.skip 1).rest.head? = some letter := by simp [skip, hrest]
  have hdigits : digits isDecimalDigit c = .ok (c.skip 1) :=
    digits_one hrest (by decide) (by rintro _ _ ⟨⟩; exact ⟨hsep, hdigit⟩)
  have hrun : run isDecimalDigit c = .ok (c.skip 1) := by
    have hnext : nextIs isDecimalDigit c = true := by rw [nextIs, hrest]; rfl
    rw [run, if_pos hnext, hdigits]
  have hfraction : fractionPart (c.skip 1) = .ok (c.skip 1) := by
    rw [fractionPart, if_neg (by simpa [nextIs, hbehind] using hpoint)]
  have hexponent : exponentPart (c.skip 1) = .ok (c.skip 1) := by
    rw [exponentPart, if_neg (by simpa [nextIs, hbehind] using hmark)]
  rw [wholeNumber, hrun]
  show (fractionPart (c.skip 1) >>= exponentPart) = _
  rw [hfraction]
  exact hexponent

end Radix

section Stumbling

theorem numeral_iff : Numeral text ↔
    (∃ r letter run, Radix.ofLetter? letter = some r ∧ Run r.isDigit run ∧
      text = '0' :: letter :: run) ∨
    Whole text ∨ Led (· == '.') (Behind (Run isDecimalDigit) Exponent) text := by
  constructor
  · rintro (⟨hletter, hrun⟩ | ⟨hrun, hfraction, hexponent⟩ | ⟨hrun, hexponent⟩)
    · exact Or.inl ⟨_, _, _, hletter, hrun, rfl⟩
    · exact Or.inr (Or.inl ⟨_, _, hrun, ⟨_, _, hfraction, hexponent, rfl⟩, rfl⟩)
    · exact Or.inr (Or.inr ⟨_, _, rfl, ⟨_, _, hrun, hexponent, rfl⟩, rfl⟩)
  · rintro (⟨r, letter, run, hletter, hrun, rfl⟩ | ⟨run, _, hrun, ⟨_, _, hfraction, hexponent, rfl⟩, rfl⟩ |
      ⟨ch, _, hch, ⟨run, exponent, hrun, hexponent, rfl⟩, rfl⟩)
    · exact .radix hletter hrun
    · exact .whole hrun hfraction hexponent
    · rw [eq_of_beq hch]
      exact .point hrun hexponent

def LosePoint (rest : List Char) : Prop :=
  LoseRun isDecimalDigit rest ∨ Behind (Run isDecimalDigit) LoseExponent rest

theorem Behind.begins_run {second : List Char → Prop} {p : Char → Bool} (h : Behind (Run p) second rest) :
    Begins p rest := by
  obtain ⟨_, _, ⟨ch, after, hch, -, rfl⟩, -, rfl⟩ := h
  exact hch

theorem loseRun_iff {p : Char → Bool} (h : Begins p rest) : LoseRun p rest ↔ LoseDigits p rest :=
  or_iff_right (not_not_intro h)

theorem stumbles_iff : Stumbles rest ↔
    (∃ digit after, isDecimalDigit digit = true ∧ rest = '0' :: digit :: after) ∨
    (∃ r letter after, Radix.ofLetter? letter = some r ∧ LoseRun r.isDigit after ∧
      rest = '0' :: letter :: after) ∨
    (Begins isDecimalDigit rest ∧ LoseWhole rest) ∨
    Led (· == '.') (fun rest => Begins isDecimalDigit rest ∧ LosePoint rest) rest := by
  constructor
  · rintro (hdigit | ⟨hletter, hlose⟩ | ⟨hbegins, hlose⟩ | ⟨hrun, hlose⟩ | ⟨hrun, hfraction, hlose⟩ |
      ⟨hbegins, hlose⟩ | ⟨hrun, hlose⟩)
    · exact Or.inl ⟨_, _, hdigit, rfl⟩
    · exact Or.inr (Or.inl ⟨_, _, _, hletter, hlose, rfl⟩)
    · exact Or.inr (Or.inr (Or.inl ⟨hbegins, Or.inl (Or.inr hlose)⟩))
    · have h : Behind (Run isDecimalDigit) LoseFraction _ := ⟨_, _, hrun, hlose, rfl⟩
      exact Or.inr (Or.inr (Or.inl ⟨h.begins_run, Or.inr ⟨_, _, hrun, Or.inl hlose, rfl⟩⟩))
    · have h : Behind (Run isDecimalDigit) (Behind Fraction LoseExponent) _ :=
        ⟨_, _, hrun, ⟨_, _, hfraction, hlose, rfl⟩, rfl⟩
      exact Or.inr (Or.inr (Or.inl ⟨h.begins_run,
        Or.inr ⟨_, _, hrun, Or.inr ⟨_, _, hfraction, hlose, rfl⟩, rfl⟩⟩))
    · exact Or.inr (Or.inr (Or.inr ⟨_, _, rfl, ⟨hbegins, Or.inl (Or.inr hlose)⟩, rfl⟩))
    · have h : Behind (Run isDecimalDigit) LoseExponent _ := ⟨_, _, hrun, hlose, rfl⟩
      exact Or.inr (Or.inr (Or.inr ⟨_, _, rfl, ⟨h.begins_run, Or.inr h⟩, rfl⟩))
  · rintro (⟨digit, after, hdigit, rfl⟩ | ⟨r, letter, after, hletter, hlose, rfl⟩ | ⟨hbegins, hlose⟩ |
      ⟨ch, after, hch, ⟨hbegins, hlose⟩, rfl⟩)
    · exact .zero hdigit
    · exact .radix hletter hlose
    · rcases hlose with hlose | ⟨run, _, hrun, hlose | ⟨fraction, _, hfraction, hlose, rfl⟩, rfl⟩
      · exact .whole hbegins ((loseRun_iff hbegins).mp hlose)
      · exact .fraction hrun hlose
      · exact .exponent hrun hfraction hlose
    · rw [eq_of_beq hch]
      rcases hlose with hlose | ⟨run, _, hrun, hlose, rfl⟩
      · exact .point hbegins ((loseRun_iff hbegins).mp hlose)
      · exact .pointExponent hrun hlose

end Stumbling

theorem Longest.of_iff {good good' : List Char → Prop} (h : Longest good text rest)
    (hiff : ∀ other, other <+: rest → (good' other ↔ good other)) : Longest good' text rest :=
  ⟨(hiff text h.begins).mpr h.fits, h.begins,
    fun other hother hbegin => h.most other ((hiff other hbegin).mp hother) hbegin⟩

theorem numberLiteral_reads_radix (hletter : Radix.ofLetter? letter = some r)
    (hrest : c.rest = '0' :: letter :: rest) : ReadsNumeral c (numberLiteral c) := by
  have hletterNarrow := (Radix.letter_free hletter).1
  have hdigit := (Radix.letter_free hletter).2.2.1
  -- the only decimal number here is the zero
  obtain ⟨zero, d, hzero, hpasses, hnot, hread⟩ | ⟨-, failure, hread⟩ := wholeNumber_exact c
  swap
  · rw [wholeNumber_letter hletter hrest] at hread
    cases hread
  rw [wholeNumber_letter hletter hrest] at hread
  cases hread
  obtain rfl : zero = ['0'] := by
    have hsame := hpasses.rest
    rw [skip, hrest] at hsame
    exact (List.append_cancel_right (show ['0'] ++ letter :: rest = _ from hsame)).symm
  have hbegin : c.rest = ['0', letter] ++ rest := hrest
  have hpassed : c.Passes ['0', letter] [] (c.skip 2) :=
    passes_skip hbegin (List.forall_mem_cons.mpr ⟨by decide, by simpa using hletterNarrow⟩)
  have hbehind : ((c.skip 1).skip 1).rest = rest := by rw [skip_skip]; exact rest_skip hbegin
  have hstumbles : Stumbles c.rest ↔ LoseRun r.isDigit rest := by
    rw [stumbles_iff]
    constructor
    · rintro (⟨digit, after, hch, heq⟩ | ⟨r', letter', after, hletter', hlose, heq⟩ | ⟨-, hlose⟩ | hpoint)
      · cases hrest.symm.trans heq
        rw [hdigit] at hch
        cases hch
      · cases hrest.symm.trans heq
        cases hletter.symm.trans hletter'
        exact hlose
      · exact absurd hlose hnot
      · rw [hrest, led_cons] at hpoint
        exact absurd hpoint.1 (by decide)
    · exact fun hlose => Or.inr (Or.inl ⟨r, letter, rest, hletter, hlose, hrest⟩)
  rw [numberLiteral_radix hletter hrest, radixLiteral_eq]
  rcases run_exact r.separator r.isDigit_narrow ((c.skip 1).skip 1) with
    ⟨run, stop, hlongest, hpasses', hgood, hread⟩ | ⟨hbad, failure, hread⟩
  · rw [hbehind] at hlongest hgood
    refine Or.inl ⟨'0' :: letter :: run, stop, ⟨.radix hletter hlongest.fits, ?_, ?_⟩,
      hpassed.trans (skip_skip c 1 1 ▸ hpasses'), mt hstumbles.mp hgood, ?_⟩
    · rw [hrest]
      simpa using hlongest.begins
    · intro other hother hbegin
      rcases numeral_iff.mp hother with ⟨r', letter', run', hletter', hrun', rfl⟩ | hwhole | hpoint
      · rw [hrest] at hbegin
        obtain ⟨heq, hinside⟩ := List.cons_prefix_cons.mp (List.cons_prefix_cons.mp hbegin).2
        subst heq
        cases hletter.symm.trans hletter'
        simpa using hlongest.most run' hrun' hinside
      · exact (hzero.most other hwhole hbegin).trans ⟨letter :: run, rfl⟩
      · obtain ⟨ch, after, hch, -, rfl⟩ := hpoint
        rw [hrest] at hbegin
        obtain ⟨rfl, -⟩ := List.cons_prefix_cons.mp hbegin
        exact absurd hch (by decide)
    · rw [hread]
      dsimp only [bind, Except.bind]
      rw [textTo_passes hpasses', literalOf, numeralValue_radix hletter]
  · rw [hbehind] at hbad
    exact Or.inr ⟨hstumbles.mpr hbad, failure, by rw [hread]; rfl⟩

theorem numeralValue_decimal (h : ∀ ch ∈ text, Radix.ofLetter? ch = none) :
    numeralValue text = Decimal.parse text := by
  unfold numeralValue
  split
  · rename_i letter digits
    rw [h letter (by simp)]
  · rfl

section Letters

variable {P : Char → Prop}

theorem Fraction.forall (h : Fraction text) (hsep : P '_')
    (hdigit : ∀ ch, isDecimalDigit ch = true → P ch) (hpoint : P '.') : ∀ ch ∈ text, P ch := by
  rcases h with rfl | ⟨ch, after, hch, hafter, rfl⟩
  · exact fun _ hmem => nomatch hmem
  · rw [eq_of_beq hch]
    exact List.forall_mem_cons.mpr ⟨hpoint, hafter.forall hsep hdigit⟩

theorem Exponent.forall (h : Exponent text) (hsep : P '_')
    (hdigit : ∀ ch, isDecimalDigit ch = true → P ch)
    (hmark : ∀ ch, isExponentMark ch = true → P ch) (hsign : ∀ ch, isSign ch = true → P ch) :
    ∀ ch ∈ text, P ch := by
  rcases h with rfl | ⟨ch, after, hch, hafter, rfl⟩
  · exact fun _ hmem => nomatch hmem
  refine List.forall_mem_cons.mpr ⟨hmark ch hch, ?_⟩
  rcases hafter with hrun | ⟨sign, run, hs, hrun, rfl⟩
  · exact hrun.digits.forall hsep hdigit
  · exact List.forall_mem_cons.mpr ⟨hsign sign hs, hrun.digits.forall hsep hdigit⟩

/-- What goes on a decimal number is no radix letter. -/
theorem Radix.ofLetter?_none {p : Char → Bool} (hfree : ∀ letter r, ofLetter? letter = some r →
    p letter = false) (ch : Char) (hch : p ch = true) : ofLetter? ch = none := by
  cases hletter : ofLetter? ch with
  | none => rfl
  | some r =>
    rw [hfree ch r hletter] at hch
    cases hch

theorem Radix.digit_none : ∀ ch, isDecimalDigit ch = true → ofLetter? ch = none :=
  ofLetter?_none fun _ _ h => (letter_free h).2.2.1

theorem Radix.mark_none : ∀ ch, isExponentMark ch = true → ofLetter? ch = none :=
  ofLetter?_none fun _ _ h => (Bool.or_eq_false_iff.mp (letter_free h).2.2.2.1).2

theorem Radix.sign_none : ∀ ch, isSign ch = true → ofLetter? ch = none :=
  ofLetter?_none fun _ _ h => (letter_free h).2.2.2.2

theorem Run.letter_none (h : Run isDecimalDigit text) : ∀ ch ∈ text, Radix.ofLetter? ch = none :=
  h.digits.forall rfl Radix.digit_none

theorem Exponent.letter_none (h : Exponent text) : ∀ ch ∈ text, Radix.ofLetter? ch = none :=
  h.forall rfl Radix.digit_none Radix.mark_none Radix.sign_none

theorem Whole.letter_none (h : Whole text) : ∀ ch ∈ text, Radix.ofLetter? ch = none := by
  obtain ⟨run, _, hrun, ⟨fraction, exponent, hfraction, hexponent, rfl⟩, rfl⟩ := h
  rw [List.forall_mem_append, List.forall_mem_append]
  exact ⟨hrun.letter_none, hfraction.forall rfl Radix.digit_none rfl, hexponent.letter_none⟩

theorem Led.letter_none (h : Led (· == '.') (Behind (Run isDecimalDigit) Exponent) text) :
    ∀ ch ∈ text, Radix.ofLetter? ch = none := by
  obtain ⟨ch, _, hch, ⟨run, exponent, hrun, hexponent, rfl⟩, rfl⟩ := h
  rw [List.forall_mem_cons, List.forall_mem_append, eq_of_beq hch]
  exact ⟨rfl, hrun.letter_none, hexponent.letter_none⟩

end Letters

/-- A decimal number is read as its parts are. -/
theorem reads_decimal {good bad : List Char → Prop} {read : Except Failure Cursor}
    (hexact : ExactAt good bad c read)
    (hnumeral : ∀ other, other <+: c.rest → (Numeral other ↔ good other))
    (hstumbles : Stumbles c.rest ↔ bad c.rest)
    (hletters : ∀ text, good text → ∀ ch ∈ text, Radix.ofLetter? ch = none) :
    ReadsNumeral c (read >>= fun d =>
      .ok ({ kind := .number, number := Decimal.parse (withoutSeparators (c.textTo d)) }, d)) := by
  rcases hexact with ⟨text, d, hlongest, hpasses, hgood, hread⟩ | ⟨hbad, failure, hread⟩
  · refine Or.inl ⟨text, d, hlongest.of_iff hnumeral, hpasses, mt hstumbles.mp hgood, ?_⟩
    have hfree : ∀ ch ∈ withoutSeparators text, Radix.ofLetter? ch = none :=
      fun ch hch => hletters text hlongest.fits ch (List.mem_of_mem_filter hch)
    rw [hread, literalOf, numeralValue_decimal hfree, ← textTo_passes hpasses]
    rfl
  · exact Or.inr ⟨hstumbles.mpr hbad, failure, by rw [hread]; rfl⟩

theorem numberLiteral_whole {ch : Char} (hrest : c.rest = ch :: rest) (hch : isDecimalDigit ch = true)
    (hplain : ∀ next after, c.rest = '0' :: next :: after →
      Radix.ofLetter? next = none ∧ isDecimalDigit next = false) :
    numberLiteral c = wholeNumber c >>= fun d =>
      .ok ({ kind := .number, number := Decimal.parse (withoutSeparators (c.textTo d)) }, d) := by
  have hnext : nextIs isDecimalDigit c = true := by
    rw [nextIs, hrest]
    exact hch
  have hdecimal : digits isDecimalDigit (c.skip 1) >>= decimalFrom c = wholeNumber c >>= fun d =>
      .ok ({ kind := .number, number := Decimal.parse (withoutSeparators (c.textTo d)) }, d) := by
    rw [wholeNumber, run, if_pos hnext, digits_skip (by decide) hnext]
    cases digits isDecimalDigit c with
    | error failure => rfl
    | ok d =>
      show decimalFrom c d = (fractionPart d >>= exponentPart) >>= _
      unfold decimalFrom
      cases fractionPart d with
      | error failure => rfl
      | ok e => rfl
  unfold numberLiteral
  rw [← hdecimal]
  by_cases hzero : nextIs (· == '0') c = true
  · obtain ⟨zero, after, hafter, hzero'⟩ := nextIs_rest hzero
    rw [eq_of_beq hzero'] at hafter
    have hnot : ∀ {p : Char → Bool}, (∀ next, Radix.ofLetter? next = none →
        isDecimalDigit next = false → p next = false) → ¬ nextIs p (c.skip 1) = true := by
      intro p hp hbehind
      obtain ⟨next, more, hmore, hnext⟩ := nextIs_rest hbehind
      have hrest' : c.rest = '0' :: next :: more := by
        rw [skip, hafter] at hmore
        rw [hafter]
        exact congrArg _ hmore
      obtain ⟨hletter, hdigit⟩ := hplain next more hrest'
      rw [hp next hletter hdigit] at hnext
      cases hnext
    rw [if_pos hzero, if_neg, if_neg, if_neg]
    · exact hnot fun _ _ h => h
    · exact hnot fun _ h _ => (Radix.ofLetter?_eq_none h).2
    · exact hnot fun _ h _ => (Radix.ofLetter?_eq_none h).1
  · rw [if_neg hzero]

theorem numberLiteral_reads_whole {ch : Char} (hrest : c.rest = ch :: rest)
    (hch : isDecimalDigit ch = true)
    (hplain : ∀ next after, c.rest = '0' :: next :: after →
      Radix.ofLetter? next = none ∧ isDecimalDigit next = false) :
    ReadsNumeral c (numberLiteral c) := by
  rw [numberLiteral_whole hrest hch hplain]
  have hpoint : ∀ {second : List Char → Prop} {other : List Char}, other <+: c.rest →
      ¬ Led (· == '.') second other := by
    rintro second _ hbegin ⟨point, after, hpoint, -, rfl⟩
    rw [hrest] at hbegin
    obtain ⟨rfl, -⟩ := List.cons_prefix_cons.mp hbegin
    rw [eq_of_beq hpoint] at hch
    revert hch
    decide
  refine reads_decimal (wholeNumber_exact c) (fun other hbegin => ?_) ?_ fun _ => Whole.letter_none
  · rw [numeral_iff]
    constructor
    · rintro (⟨r, letter, run, hletter, -, rfl⟩ | hwhole | hled)
      · obtain ⟨after, hafter⟩ := hbegin
        cases hletter.symm.trans (hplain letter (run ++ after) hafter.symm).1
      · exact hwhole
      · exact absurd hled (hpoint hbegin)
    · exact fun hwhole => Or.inr (Or.inl hwhole)
  · rw [stumbles_iff]
    constructor
    · rintro (⟨digit, after, hdigit, heq⟩ | ⟨r, letter, after, hletter, -, heq⟩ | ⟨-, hlose⟩ | hled)
      · rw [(hplain digit after heq).2] at hdigit
        cases hdigit
      · cases hletter.symm.trans (hplain letter after heq).1
      · exact hlose
      · exact absurd hled (hpoint (List.prefix_refl _))
    · exact fun hlose => Or.inr (Or.inr (Or.inl ⟨hrest ▸ hch, hlose⟩))

theorem fractionLiteral_eq {after : List Char} (hrest : c.rest = '.' :: after)
    (hafter : Begins isDecimalDigit after) : fractionLiteral c = pointNumber (c.skip 1) >>= fun d =>
      .ok ({ kind := .number, number := Decimal.parse (withoutSeparators (c.textTo d)) }, d) := by
  have hskip : (c.skip 1).rest = after := rest_skip (show c.rest = ['.'] ++ after from hrest)
  have hnext : Begins isDecimalDigit (c.skip 1).rest := hskip ▸ hafter
  rw [fractionLiteral, pointNumber, run, if_pos (nextIs_iff.mpr hnext),
    ← digits_skip (by decide) hnext, skip_skip]
  cases digits isDecimalDigit (c.skip 2) with
  | error failure => rfl
  | ok d => rfl

theorem fractionLiteral_reads {after : List Char} (hrest : c.rest = '.' :: after)
    (hafter : Begins isDecimalDigit after) : ReadsNumeral c (fractionLiteral c) := by
  rw [fractionLiteral_eq hrest hafter]
  have hpoint : ∀ ch : Char, (ch == '.') = true → Narrow ch := fun ch h => by
    rw [eq_of_beq h]
    decide
  have hdigit : ¬ Begins isDecimalDigit c.rest := by
    rw [hrest]
    exact Bool.false_ne_true
  refine reads_decimal (pointNumber_exact.behind_lead hpoint (fun _ h _ => h) (fun _ h => h)
    (hrest ▸ begins_cons.mpr rfl)) (fun other hbegin => ?_) ?_ fun _ => Led.letter_none
  · rw [numeral_iff]
    refine ⟨?_, fun h => Or.inr (Or.inr h)⟩
    rintro (⟨r, letter, run, -, -, rfl⟩ | hwhole | hled)
    · rw [hrest] at hbegin
      exact absurd (List.cons_prefix_cons.mp hbegin).1 (by decide)
    · obtain ⟨more, hmore⟩ := hbegin
      obtain ⟨ch, others, rfl, hch⟩ := (Behind.begins_run hwhole).cons
      exact absurd (hmore ▸ hch) hdigit
    · exact hled
  · rw [stumbles_iff]
    constructor
    · rintro (⟨digit, more, -, heq⟩ | ⟨r, letter, more, -, -, heq⟩ | ⟨hbegins, -⟩ | hled)
      · cases hrest.symm.trans heq
      · cases hrest.symm.trans heq
      · exact absurd hbegins hdigit
      · rw [hrest, led_cons] at hled ⊢
        exact ⟨hled.1, hled.2.2⟩
    · intro hled
      rw [hrest, led_cons] at hled ⊢
      exact Or.inr (Or.inr (Or.inr ⟨hled.1, hafter, hled.2⟩))

theorem numberLiteral_reads {ch : Char} (hrest : c.rest = ch :: rest)
    (hch : isDecimalDigit ch = true) : ReadsNumeral c (numberLiteral c) := by
  by_cases hradix : ∃ letter r after, c.rest = '0' :: letter :: after ∧ Radix.ofLetter? letter = some r
  · obtain ⟨letter, r, after, hafter, hletter⟩ := hradix
    exact numberLiteral_reads_radix hletter hafter
  by_cases hzero : ∃ digit after, c.rest = '0' :: digit :: after ∧ isDecimalDigit digit = true
  · obtain ⟨digit, after, hafter, hdigit⟩ := hzero
    refine Or.inr ⟨hafter ▸ .zero hdigit, .unexpected (c.skip 1), ?_⟩
    obtain ⟨hx, hb⟩ := Radix.ofLetter?_eq_none (Radix.digit_none digit hdigit)
    have hbehind : (c.skip 1).rest.head? = some digit := by simp [skip, hafter]
    unfold numberLiteral nextIs
    simp [hafter, hbehind, hx, hb, hdigit]
  · refine numberLiteral_reads_whole hrest hch fun next after h => ⟨?_, ?_⟩
    · exact Option.eq_none_iff_forall_not_mem.mpr fun r hr => hradix ⟨next, r, after, h, hr⟩
    · exact Bool.eq_false_iff.mpr fun hdigit => hzero ⟨next, after, h, hdigit⟩

theorem digit_not_start {ch : Char} (h : isDecimalDigit ch = true) : isIdentifierStart ch = false := by
  simp only [isDecimalDigit, Bool.and_eq_true, decide_eq_true_eq, Char.le_def,
    UInt32.le_iff_toNat_le] at h
  have hhigh : ch.toNat ≤ 57 := h.2
  have hlow : ∀ letter : Char, 57 < letter.toNat → ¬ letter ≤ ch := fun letter hletter hle => by
    rw [Char.le_def, UInt32.le_iff_toNat_le] at hle
    exact absurd (Nat.le_trans hle hhigh) (Nat.not_le.mpr hletter)
  have hascii : isAscii ch = true := decide_eq_true (by omega)
  have hline : ch ≠ '_' := by
    rintro rfl
    exact absurd hhigh (by decide)
  have hdollar : ch ≠ '$' := by
    rintro rfl
    exact absurd h.1 (by decide)
  simp [isIdentifierStart, hascii, isAsciiLetter, hlow 'a' (by decide), hlow 'A' (by decide), hline,
    hdollar]

theorem lexeme_numeral (hleads : LeadsNumeral c.rest) : ReadsNumeral c (lexeme c) := by
  generalize hrest : c.rest = rest at hleads
  cases hleads with
  | @digit ch rest hch =>
    have hlexeme : lexeme c = numberLiteral c := by
      unfold lexeme
      simp [hrest, digit_not_start hch, hch]
    rw [hlexeme]
    exact numberLiteral_reads hrest hch
  | @point ch rest hch =>
    have hstart : isIdentifierStart '.' = false ∧ isDecimalDigit '.' = false := by decide
    have hnext : nextIs isDecimalDigit (c.skip 1) = true := by simpa [nextIs, skip, hrest] using hch
    have hlexeme : lexeme c = fractionLiteral c := by
      have hsecond : (ch :: rest).head? ≠ some '.' := by
        rintro heq
        cases heq
        revert hch
        decide
      unfold lexeme otherLexeme
      simp [hrest, hstart, punctuation?_point hrest hsecond, hnext]
    rw [hlexeme]
    exact fractionLiteral_reads hrest hch

end Reading

section Values

variable {text run fraction exponent : List Char} {isDigit : Char → Bool}

/-- The power of ten that an exponent without separators stands for. -/
inductive Powers : List Char → Int → Prop
  | none : Powers [] 0
  | plain {mark : Char} {digits : List Char} : isExponentMark mark = true → digits ≠ [] →
      digits.all isDecimalDigit = true → Powers (mark :: digits) (ofDigits digits)
  | positive {mark : Char} {digits : List Char} : isExponentMark mark = true → digits ≠ [] →
      digits.all isDecimalDigit = true → Powers (mark :: '+' :: digits) (ofDigits digits)
  | negative {mark : Char} {digits : List Char} : isExponentMark mark = true → digits ≠ [] →
      digits.all isDecimalDigit = true → Powers (mark :: '-' :: digits) (-(ofDigits digits : Int))

/-- Texts without separators that are converted, with the numbers they are converted to. -/
inductive Converts : List Char → Double → Prop
  | radix {r : Radix} {letter : Char} {digits : List Char} {values : List Nat} :
      Radix.ofLetter? letter = some r → digits ≠ [] → digits.map hexDigitValue? = values.map some →
      (∀ value ∈ values, value < r.base) →
      Converts ('0' :: letter :: digits) (Double.ofDigits r.base values)
  | decimal {whole point fraction exponent : List Char} {power : Int} :
      whole.all isDecimalDigit = true → fraction.all isDecimalDigit = true →
      whole ++ fraction ≠ [] → point = ['.'] ∨ point = [] ∧ fraction = [] → Powers exponent power →
      Converts (whole ++ (point ++ (fraction ++ exponent)))
        (Double.ofDecimal (ofDigits (whole ++ fraction)) (whole ++ fraction).length
          (power - fraction.length))

theorem withoutSeparators_append (a b : List Char) :
    withoutSeparators (a ++ b) = withoutSeparators a ++ withoutSeparators b := List.filter_append ..

/-- Only digits are left of digits. -/
theorem Digits.values (h : Digits isDigit text) (hsep : isDigit '_' = false) :
    (withoutSeparators text).all isDigit = true := by
  have hne : ∀ {ch : Char}, isDigit ch = true → ch ≠ '_' := by
    rintro _ hch rfl
    simp [hsep] at hch
  induction h with
  | nil => rfl
  | digit hch _ ih => rw [withoutSeparators_cons (hne hch), List.all_cons, hch, ih]; rfl
  | @separated ch text hch _ ih =>
    show (withoutSeparators (ch :: text)).all isDigit = true
    rw [withoutSeparators_cons (hne hch), List.all_cons, hch, ih]
    rfl

theorem Run.values (h : Run isDigit text) (hsep : isDigit '_' = false) :
    withoutSeparators text ≠ [] ∧ (withoutSeparators text).all isDigit = true := by
  refine ⟨?_, h.digits.values hsep⟩
  obtain ⟨ch, after, hch, -, rfl⟩ := h
  have hne : ch ≠ '_' := by
    rintro rfl
    simp [hsep] at hch
  rw [withoutSeparators_cons hne]
  exact List.cons_ne_nil _ _

theorem Exponent.powers (h : Exponent text) : ∃ power, Powers (withoutSeparators text) power := by
  rcases h with rfl | ⟨mark, after, hmark, hafter, rfl⟩
  · exact ⟨0, .none⟩
  have hne : mark ≠ '_' := by
    rintro rfl
    revert hmark
    decide
  rw [withoutSeparators_cons hne]
  rcases hafter with hrun | ⟨sign, run, hsign, hrun, rfl⟩
  · obtain ⟨hdigits, hall⟩ := hrun.values (by decide)
    exact ⟨_, .plain hmark hdigits hall⟩
  · obtain ⟨hdigits, hall⟩ := hrun.values (by decide)
    simp only [isSign, Bool.or_eq_true, beq_iff_eq] at hsign
    rcases hsign with rfl | rfl
    · rw [withoutSeparators_cons (by decide)]
      exact ⟨_, .positive hmark hdigits hall⟩
    · rw [withoutSeparators_cons (by decide)]
      exact ⟨_, .negative hmark hdigits hall⟩

/-- The power is read behind the mark. -/
theorem Powers.exponent_eq {power : Int} (h : Powers exponent power) :
    Decimal.exponent (exponent.drop 1) = power := by
  have hplain : ∀ {digits : List Char}, digits.all isDecimalDigit = true →
      Decimal.exponent digits = ofDigits digits := by
    intro digits hall
    unfold Decimal.exponent
    split
    · simp [show isDecimalDigit '-' = false by decide] at hall
    · simp [show isDecimalDigit '+' = false by decide] at hall
    · rfl
  cases h with
  | none => rfl
  | plain _ _ hall => exact hplain hall
  | positive => rfl
  | negative => rfl

theorem Powers.begins {power : Int} (h : Powers exponent power) :
    exponent = [] ∨ Begins isExponentMark exponent := by
  cases h with
  | none => exact Or.inl rfl
  | plain hmark => exact Or.inr hmark
  | positive hmark => exact Or.inr hmark
  | negative hmark => exact Or.inr hmark

/-- The text is taken apart where what stands behind does not belong to the class. -/
theorem span_eq {p : Char → Bool} {before after : List Char} (hbefore : before.all p = true)
    (hafter : ¬ Begins p after) :
    (before ++ after).takeWhile p = before ∧ (before ++ after).dropWhile p = after := by
  rw [List.all_eq_true] at hbefore
  rw [List.takeWhile_append_of_pos hbefore, List.dropWhile_append_of_pos hbefore]
  cases after with
  | nil => simp
  | cons ch after =>
    rw [begins_cons] at hafter
    simp [hafter]

/-- Decimal text is read as its parts are. -/
theorem parse_eq {whole point fraction exponent : List Char} {power : Int}
    (hwhole : whole.all isDecimalDigit = true) (hfraction : fraction.all isDecimalDigit = true)
    (hpoint : point = ['.'] ∨ point = [] ∧ fraction = []) (hexponent : Powers exponent power) :
    Decimal.parse (whole ++ (point ++ (fraction ++ exponent))) =
      Double.ofDecimal (ofDigits (whole ++ fraction)) (whole ++ fraction).length
        (power - fraction.length) := by
  have hdigit : ∀ {digits : List Char}, digits.all isDecimalDigit = true →
      digits.all (fun ch => !isExponentMark ch) = true := by
    intro digits hall
    rw [List.all_eq_true] at hall ⊢
    exact fun ch hch => by rw [mark_not_digit ch (hall ch hch)]; rfl
  have hmantissa : (whole ++ (point ++ fraction)).all (fun ch => !isExponentMark ch) = true := by
    rw [List.all_append, List.all_append, hdigit hwhole, hdigit hfraction]
    rcases hpoint with rfl | ⟨rfl, -⟩ <;> rfl
  have hmark : ¬ Begins (fun ch => !isExponentMark ch) exponent := by
    rcases hexponent.begins with rfl | h
    · exact not_begins_nil
    · obtain ⟨ch, after, rfl, hch⟩ := h.cons
      simp [hch]
  have hparts := span_eq hmantissa hmark
  have hinside : ¬ Begins isDecimalDigit (point ++ fraction) := by
    rcases hpoint with rfl | ⟨rfl, rfl⟩
    · exact Bool.false_ne_true
    · exact not_begins_nil
  have hdigits := span_eq hwhole hinside
  have hfractionDigits : (point ++ fraction).drop 1 = fraction := by
    rcases hpoint with rfl | ⟨rfl, rfl⟩ <;> rfl
  unfold Decimal.parse
  rw [List.append_assoc, List.append_assoc] at hparts
  simp only [hparts, hdigits, hfractionDigits, hexponent.exponent_eq]

/-- Every digit of a radix has a value below the base. -/
theorem Radix.digit_value {r : Radix} {ch : Char} (h : r.isDigit ch = true) :
    ∃ value, hexDigitValue? ch = some value ∧ value < r.base := by
  cases r with
  | hexadecimal =>
    obtain ⟨value, hvalue⟩ := Option.isSome_iff_exists.mp h
    have hlt := hexDigitValue_lt ch
    rw [hvalue] at hlt
    exact ⟨value, hvalue, hlt⟩
  | binary =>
    have h : ch = '0' ∨ ch = '1' := by simpa [isDigit, isBinaryDigit] using h
    rcases h with rfl | rfl
    · exact ⟨0, rfl, by decide⟩
    · exact ⟨1, rfl, by decide⟩

theorem Radix.digit_values {r : Radix} {digits : List Char} (h : digits.all r.isDigit = true) :
    digits.map hexDigitValue? = (digits.filterMap hexDigitValue?).map some ∧
      ∀ value ∈ digits.filterMap hexDigitValue?, value < r.base := by
  induction digits with
  | nil => exact ⟨rfl, nofun⟩
  | cons ch digits ih =>
    rw [List.all_cons, Bool.and_eq_true] at h
    obtain ⟨hmap, hlt⟩ := ih h.2
    obtain ⟨value, hvalue, hbase⟩ := digit_value h.1
    rw [List.filterMap_cons_some hvalue, List.map_cons, List.map_cons, hvalue, hmap]
    exact ⟨rfl, List.forall_mem_cons.mpr ⟨hbase, hlt⟩⟩

theorem Fraction.values (h : Fraction text) : ∃ point digits, digits.all isDecimalDigit = true ∧
    (point = ['.'] ∨ point = [] ∧ digits = []) ∧ withoutSeparators text = point ++ digits := by
  rcases h with rfl | ⟨ch, after, hch, hafter, rfl⟩
  · exact ⟨[], [], rfl, Or.inr ⟨rfl, rfl⟩, rfl⟩
  · obtain rfl := eq_of_beq hch
    exact ⟨['.'], withoutSeparators after, hafter.values (by decide), Or.inl rfl,
      withoutSeparators_cons (by decide) after⟩

/-- Without its separators every number can be converted. -/
theorem Numeral.converts (h : Numeral text) :
    Converts (withoutSeparators text) (numeralValue (withoutSeparators text)) := by
  have hdecimal : (∀ ch ∈ text, Radix.ofLetter? ch = none) →
      numeralValue (withoutSeparators text) = Decimal.parse (withoutSeparators text) := fun hfree =>
    numeralValue_decimal fun ch hch => hfree ch (List.mem_of_mem_filter hch)
  rcases numeral_iff.mp h with ⟨r, letter, run, hletter, hrun, rfl⟩ | hwhole | hpoint
  · obtain ⟨hdigits, hall⟩ := hrun.values r.separator
    obtain ⟨hmap, hlt⟩ := Radix.digit_values hall
    rw [numeralValue_radix hletter, withoutSeparators_cons (by decide),
      withoutSeparators_cons (Radix.letter_free hletter).2.1]
    exact .radix hletter hdigits hmap hlt
  · rw [hdecimal hwhole.letter_none]
    obtain ⟨run, _, hrun, ⟨fraction, exponent, hfraction, hexponent, rfl⟩, rfl⟩ := hwhole
    obtain ⟨hdigits, hall⟩ := hrun.values (by decide)
    obtain ⟨point, behind, hbehind, hpoint, heq⟩ := hfraction.values
    obtain ⟨power, hpower⟩ := hexponent.powers
    rw [withoutSeparators_append, withoutSeparators_append, heq, List.append_assoc,
      parse_eq hall hbehind hpoint hpower]
    exact .decimal hall hbehind (fun hnil => hdigits (List.append_eq_nil_iff.mp hnil).1) hpoint hpower
  · rw [hdecimal hpoint.letter_none]
    obtain ⟨ch, _, hch, ⟨run, exponent, hrun, hexponent, rfl⟩, rfl⟩ := hpoint
    obtain rfl := eq_of_beq hch
    obtain ⟨hdigits, hall⟩ := hrun.values (by decide)
    obtain ⟨power, hpower⟩ := hexponent.powers
    have hparts : withoutSeparators ('.' :: (run ++ exponent)) =
        [] ++ (['.'] ++ (withoutSeparators run ++ withoutSeparators exponent)) := by
      rw [withoutSeparators_cons (by decide), withoutSeparators_append]
      rfl
    rw [hparts, parse_eq rfl hall (Or.inl rfl) hpower]
    exact .decimal rfl hall hdigits (Or.inl rfl) hpower

end Values

end Scan

namespace Scanner

/-- Where a token begins like a number, it is the longest number that stands there, or nothing is read since
a number has begun that is not carried through. Its text without the separators can always be converted, and
nothing but that text is. -/
theorem next_number (s : Scanner) {start : Cursor} (hstart : trivia s.cursor = .ok start)
    (hleads : LeadsNumeral start.rest) :
    ((∃ problem, s.next.1 = .error problem) ↔ Stumbles start.rest) ∧
    ∀ t, s.next = (.ok (), t) → ∃ text stop, Longest Numeral text start.rest ∧
      start.Passes text [] stop ∧ t.cursor.rest = stop.rest ∧ t.token.span = start.spanTo stop ∧
      t.token.kind = .number ∧ t.token.number = numeralValue (withoutSeparators text) ∧
      Converts (withoutSeparators text) t.token.number := by
  rw [next_of_start hstart]
  rcases lexeme_numeral hleads with ⟨text, stop, hlongest, hpasses, hgood, hread⟩ |
    ⟨hbad, failure, hread⟩
  · rw [hread]
    refine ⟨⟨?_, fun h => absurd h hgood⟩, ?_⟩
    · rintro ⟨problem, hproblem⟩
      cases hproblem
    · rintro t hnext
      cases hnext
      exact ⟨text, stop, hlongest, hpasses, rfl, rfl, rfl, rfl, hlongest.fits.converts⟩
  · rw [hread]
    refine ⟨⟨fun _ => hbad, fun _ => ⟨_, rfl⟩⟩, fun t hnext => ?_⟩
    cases hnext

/-- A number with separators, a fraction and an exponent. -/
theorem next_number_separated : ∃ t,
    (Scanner.ofScript (Script.ofSource "/a.es" "1_0.2_5e+1_0;")).next = (.ok (), t) ∧
      t.cursor.rest = [';'] ∧ t.token.kind = .number ∧
      Converts "10.25e+10".toList t.token.number := by
  let s := Scanner.ofScript (Script.ofSource "/a.es" "1_0.2_5e+1_0;")
  have hnext : s.next = (.ok (), s.next.2) := Prod.ext (by rfl) rfl
  obtain ⟨-, hnumber⟩ := next_number s (show trivia s.cursor = .ok s.cursor from rfl) (.digit (by decide))
  obtain ⟨text, stop, -, hpasses, hrest, -, hkind, -, hconverts⟩ := hnumber _ hnext
  have hcursor : s.next.2.cursor.rest = [';'] := by rfl
  have htext : text = "1_0.2_5e+1_0".toList := by
    refine List.append_cancel_right (hpasses.rest.symm.trans ?_)
    rw [← hrest, hcursor]
    rfl
  have hplain : withoutSeparators text = "10.25e+10".toList := by
    rw [htext]
    decide +kernel
  rw [hplain] at hconverts
  exact ⟨_, hnext, hcursor, hkind, hconverts⟩

end Scanner

end ActionSyntax
