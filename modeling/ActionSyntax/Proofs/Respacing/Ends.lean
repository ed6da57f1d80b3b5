import ActionSyntax.Proofs.Places.Lexemes
import ActionSyntax.Proofs.ScanAmid

/-!
Where a lexeme ends. Its last character is no blank and ends no line, so that no blank behind a lexeme
counts as the indentation of the line.
-/

namespace ActionSyntax

set_option autoImplicit false

/-- Blanks, and the characters that end a line. -/
def spacing : List Char :=
  [' ', '\t', '\x0b', '\x0c', '\u00a0', '\n', '\r', '\u2028', '\u2029']

/-- A character that a token may end with. -/
def Solid (ch : Char) : Prop := ch ∉ spacing

instance (ch : Char) : Decidable (Solid ch) := inferInstanceAs (Decidable (ch ∉ spacing))

namespace Solid

variable {ch : Char}

theorem not_blank (h : Solid ch) : CharClass.isBlank ch = false := by
  simp_all [Solid, spacing, CharClass.isBlank]

theorem not_lineTerminator (h : Solid ch) : CharClass.isLineTerminator ch = false := by
  simp_all [Solid, spacing, CharClass.isLineTerminator]

theorem of_class {p : Char → Bool} (hp : ∀ ch ∈ spacing, p ch = false) (h : p ch = true) :
    Solid ch := fun hmem => by
  rw [hp ch hmem] at h
  cases h

theorem of_part (h : CharClass.isIdentifierPart ch = true) : Solid ch :=
  of_class (p := CharClass.isIdentifierPart) (by decide +kernel) h

theorem of_hexDigit (h : CharClass.isHexDigit ch = true) : Solid ch :=
  of_class (p := CharClass.isHexDigit) (by decide) h

theorem of_decimalDigit (h : CharClass.isDecimalDigit ch = true) : Solid ch :=
  of_class (p := CharClass.isDecimalDigit) (by decide) h

theorem of_binaryDigit (h : CharClass.isBinaryDigit ch = true) : Solid ch :=
  of_class (p := CharClass.isBinaryDigit) (by decide) h

end Solid

namespace Cursor

/-- Something has been taken between the cursors, and its last character is solid. -/
def Firm (c d : Cursor) : Prop := ∃ passed ch, c.rest = passed ++ ch :: d.rest ∧ Solid ch

/-- What has been taken between the cursors, if anything, ends with a solid character. -/
def Steady (c d : Cursor) : Prop := d.rest = c.rest ∨ c.Firm d

variable {c d e : Cursor} {ch : Char} {rest : List Char}

theorem Firm.leads (h : c.Firm d) : c.Leads d := by
  obtain ⟨passed, ch, hrest, -⟩ := h
  exact ⟨passed ++ [ch], by simp [hrest]⟩

theorem Firm.length_lt (h : c.Firm d) : d.rest.length < c.rest.length := by
  obtain ⟨passed, ch, hrest, -⟩ := h
  rw [hrest, List.length_append, List.length_cons]
  omega

theorem Firm.after (hcd : c.Leads d) (hde : d.Firm e) : c.Firm e := by
  obtain ⟨more, hmore⟩ := hcd
  obtain ⟨passed, ch, hrest, hch⟩ := hde
  exact ⟨more ++ passed, ch, by rw [← hmore, hrest, List.append_assoc], hch⟩

theorem Firm.then_steady (hcd : c.Firm d) (hde : d.Steady e) : c.Firm e := by
  obtain heq | hfirm := hde
  · obtain ⟨passed, ch, hrest, hch⟩ := hcd
    exact ⟨passed, ch, heq ▸ hrest, hch⟩
  · exact hfirm.after hcd.leads

theorem Steady.refl (c : Cursor) : c.Steady c := Or.inl rfl

theorem Firm.steady (h : c.Firm d) : c.Steady d := Or.inr h

theorem Steady.trans (hcd : c.Steady d) (hde : d.Steady e) : c.Steady e := by
  obtain heq | hfirm := hcd
  · obtain heq' | ⟨passed, ch, hrest, hch⟩ := hde
    · exact Or.inl (heq'.trans heq)
    · exact Or.inr ⟨passed, ch, heq ▸ hrest, hch⟩
  · exact Or.inr (hfirm.then_steady hde)

theorem firm_skip_one (hrest : c.rest = ch :: rest) (hch : Solid ch) : c.Firm (c.skip 1) :=
  ⟨[], ch, by simp [skip, hrest], hch⟩

theorem firm_skip (text : List Char) {last : Char} (h : c.startsWith (text ++ [last]) = true)
    (hlast : Solid last) : c.Firm (c.skip (text ++ [last]).length) := by
  obtain ⟨more, hmore⟩ := startsWith_iff.mp h
  exact ⟨text, last, by simp [skip, ← hmore], hlast⟩

theorem firm_advance (hrest : c.rest = ch :: rest) (hch : Solid ch) : c.Firm c.advance :=
  ⟨[], ch, by simp [advance, hrest], hch⟩

end Cursor

namespace Scan

open Cursor

section Escapes

variable {c d : Cursor} {v : Nat}

theorem hexDigit_firm (h : hexDigit c = .ok (v, d)) : c.Firm d := by
  unfold hexDigit at h
  split at h
  · cases h
  · rename_i hrest
    split at h
    · rename_i hvalue
      cases h
      exact firm_skip_one hrest (.of_hexDigit (by simp [CharClass.isHexDigit, hvalue]))
    · cases h

theorem fixedDigits_steady : ∀ {count value : Nat} {c : Cursor},
    fixedDigits count value c = .ok (v, d) → c.Steady d
  | 0, _, _, h => by
    cases h
    exact .refl d
  | _ + 1, _, _, h => by
    obtain ⟨⟨_, _⟩, hdigit, hmore⟩ := ok_of_bind h
    exact ((hexDigit_firm hdigit).then_steady (fixedDigits_steady hmore)).steady

theorem fixedDigits_firm {count value : Nat} (h : fixedDigits (count + 1) value c = .ok (v, d)) :
    c.Firm d := by
  obtain ⟨⟨_, _⟩, hdigit, hmore⟩ := ok_of_bind h
  exact (hexDigit_firm hdigit).then_steady (fixedDigits_steady hmore)

theorem bracedDigits_firm : ∀ {fuel value : Nat} {c : Cursor},
    bracedDigits fuel value c = .ok (v, d) → c.Firm d
  | 0, _, _, h => by cases h
  | _ + 1, _, _, h => by
    unfold bracedDigits at h
    split at h
    · rename_i hclose
      cases h
      exact firm_skip [] hclose (by decide)
    · obtain ⟨⟨_, _⟩, hdigit, hmore⟩ := ok_of_bind h
      dsimp only at hmore
      split at hmore
      · cases hmore
      · exact (bracedDigits_firm hmore).after (hexDigit_leads hdigit)

theorem escapeValue_firm {count : Nat} (h : escapeValue (count + 1) c = .ok (v, d)) : c.Firm d := by
  unfold escapeValue at h
  split at h
  · obtain ⟨⟨_, _⟩, hdigit, hmore⟩ := ok_of_bind h
    exact (bracedDigits_firm hmore).after (.of_skip (hexDigit_leads hdigit))
  · exact fixedDigits_firm h

theorem escapedChar_firm {ch : Char} (h : escapedChar c = .ok (ch, d)) : c.Firm d := by
  obtain ⟨count, hvalue⟩ : ∃ count, (escapeValue (count + 1) (c.skip 1) >>= fun x =>
      pure (charOfValue x.1, x.2)) = Except.ok (ε := Failure) (ch, d) := by
    unfold escapedChar at h
    dsimp only at h
    split at h
    · exact ⟨3, h⟩
    · exact ⟨1, h⟩
    · cases h
  obtain ⟨⟨_, _⟩, hread, hpure⟩ := ok_of_bind hvalue
  cases hpure
  exact (escapeValue_firm hread).after (.skip c 1)

end Escapes

section Names

variable {allowed : Char → Bool} {c d start : Cursor} {l : Lexeme}

theorem nameEscape_firm {ch : Char} (h : nameEscape allowed c = .ok (ch, d)) : c.Firm d := by
  obtain ⟨⟨_, _⟩, hread, hmore⟩ := ok_of_bind h
  dsimp only at hmore
  split at hmore
  · cases hmore
    exact (escapedChar_firm hread).after (.skip c 1)
  · cases hmore

theorem nameChars_steady : ∀ {fuel : Nat} {read out : List Char} {c : Cursor},
    nameChars allowed fuel read c = .ok (out, d) → c.Steady d
  | 0, _, _, _, h => by
    cases h
    exact .refl d
  | _ + 1, _, _, _, h => by
    unfold nameChars at h
    split at h
    · cases h
      exact .refl d
    · rename_i hrest
      split at h
      · rename_i hpart
        exact ((firm_advance hrest (.of_part hpart)).then_steady (nameChars_steady h)).steady
      · split at h
        · obtain ⟨⟨_, _⟩, hescape, hmore⟩ := ok_of_bind h
          exact ((nameEscape_firm hescape).then_steady (nameChars_steady hmore)).steady
        · cases h
          exact .refl d

theorem nameFrom_steady {read : List Char} {reserving : Bool}
    (h : nameFrom start read reserving c = .ok (l, d)) : c.Steady d := by
  obtain ⟨-, _, hread⟩ := nameFrom_chars h
  exact nameChars_steady hread

/-- A name that begins with a character of names takes it. -/
theorem nameFrom_firm {read : List Char} {reserving : Bool} {ch : Char} {rest : List Char}
    (hrest : c.rest = ch :: rest) (hch : isNamePart ch = true)
    (h : nameFrom start read reserving c = .ok (l, d)) : c.Firm d := by
  obtain ⟨-, _, hread⟩ := nameFrom_chars h
  refine (nameChars_steady hread).resolve_left fun heq => ?_
  have hless := (nameChars_leads_skip hrest hch hread).length_le
  simp only [skip, heq, hrest, List.drop_succ_cons, List.drop_zero, List.length_cons] at hless
  omega

theorem escapedName_firm (h : escapedName c = .ok (l, d)) : c.Firm d := by
  obtain ⟨⟨_, _⟩, hescape, hmore⟩ := ok_of_bind h
  exact (nameEscape_firm hescape).then_steady (nameFrom_steady hmore)

theorem unreservedName_firm (h : unreservedName c = .ok (l, d)) : c.Firm d := by
  unfold unreservedName at h
  dsimp only at h
  split at h
  · rename_i hrest
    split at h
    · rename_i hpart
      exact (nameFrom_firm hrest hpart h).after (.skip c 1)
    · cases h
  · cases h

end Names

section Numerals

variable {isDigit : Char → Bool} {c d start : Cursor} {l : Lexeme}

theorem digits_steady (hdigit : ∀ ch, isDigit ch = true → Solid ch) (h : digits isDigit c = .ok d) :
    c.Steady d := by
  have hsep : Solid '_' := by decide
  obtain ⟨run, rest, hrest, hlength, hrun⟩ := digitRun_forall hsep hdigit c.rest
  unfold digits at h
  dsimp only at h
  split at h
  · cases h
    have hbehind : (c.skip (digitRun isDigit c.rest).1).rest = rest := by
      rw [skip, ← hlength, hrest, List.drop_left]
    rcases List.eq_nil_or_concat run with rfl | ⟨front, last, rfl⟩
    · exact Or.inl (hbehind.trans hrest.symm)
    · exact Or.inr ⟨front, last, by rw [hbehind, hrest, List.concat_append], hrun last (by simp)⟩
  · cases h

theorem firm_skip_next {p : Char → Bool} (h : nextIs p c = true) (hp : ∀ ch, p ch = true → Solid ch) :
    c.Firm (c.skip 1) := by
  obtain ⟨ch, rest, hrest, hch⟩ := nextIs_rest h
  exact firm_skip_one hrest (hp ch hch)

/-- Digits are read where one stands. -/
theorem digits_firm (hdigit : ∀ ch, isDigit ch = true → Solid ch) (hnext : nextIs isDigit c = true)
    (hsep : isDigit '_' = false) (h : digits isDigit c = .ok d) : c.Firm d := by
  obtain ⟨ch, rest, hrest, hch⟩ := nextIs_rest hnext
  refine (digits_steady hdigit h).resolve_left fun heq => ?_
  have hne : ch ≠ '_' := by
    rintro rfl
    rw [hsep] at hch
    cases hch
  have hrun : (digitRun isDigit c.rest).1 = (digitRun isDigit rest).1 + 1 := by
    rw [hrest, digitRun_cons hne, if_pos hch]
  unfold digits at h
  dsimp only at h
  split at h
  · cases h
    have hless := congrArg List.length heq
    rw [skip, List.length_drop, hrun, hrest, List.length_cons] at hless
    omega
  · cases h

theorem radixLiteral_firm {radix : Nat} (hdigit : ∀ ch, isDigit ch = true → Solid ch)
    (hsep : isDigit '_' = false) (h : radixLiteral radix isDigit c = .ok (l, d)) : c.Firm d := by
  unfold radixLiteral at h
  dsimp only at h
  split at h
  · cases h
  · rename_i hnext
    obtain ⟨_, hread, hpure⟩ := ok_of_bind h
    cases hpure
    exact (digits_firm hdigit (by simpa using hnext) hsep hread).after (.skip c 1)

theorem exponentPart_steady (h : exponentPart c = .ok d) : c.Steady d := by
  unfold exponentPart at h
  split at h
  · dsimp only at h
    generalize hs : (if nextIs _ (c.skip 1) then (c.skip 1).skip 1 else c.skip 1) = signed at h
    have hsigned : c.Leads signed := by
      rw [← hs]
      split
      · exact (Leads.skip c 1).trans (.skip _ 1)
      · exact .skip c 1
    split at h
    · rename_i hnext
      exact ((digits_firm (fun _ => .of_decimalDigit) hnext (by decide) h).after hsigned).steady
    · cases h
  · cases h
    exact .refl c

theorem fractionPart_steady (h : fractionPart c = .ok d) : c.Steady d := by
  unfold fractionPart at h
  split at h
  · rename_i hdot
    refine ((firm_skip_next hdot fun ch hch => ?_).then_steady
      (digits_steady (fun _ => .of_decimalDigit) h)).steady
    rw [eq_of_beq hch]
    decide
  · cases h
    exact .refl c

theorem decimalFrom_steady (h : decimalFrom start c = .ok (l, d)) : c.Steady d := by
  obtain ⟨_, hfraction, hmore⟩ := ok_of_bind h
  obtain ⟨_, hexponent, hpure⟩ := ok_of_bind hmore
  cases hpure
  exact (fractionPart_steady hfraction).trans (exponentPart_steady hexponent)

theorem numberLiteral_firm {ch : Char} {rest : List Char} (hrest : c.rest = ch :: rest)
    (hch : CharClass.isDecimalDigit ch = true) (h : numberLiteral c = .ok (l, d)) : c.Firm d := by
  have hfirst : c.Firm (c.skip 1) := firm_skip_one hrest (.of_decimalDigit hch)
  have decimal : (digits CharClass.isDecimalDigit (c.skip 1) >>= decimalFrom c) = .ok (l, d) →
      c.Firm d := by
    intro h
    obtain ⟨_, hdigits, hmore⟩ := ok_of_bind h
    exact hfirst.then_steady
      ((digits_steady (fun _ => .of_decimalDigit) hdigits).trans (decimalFrom_steady hmore))
  unfold numberLiteral at h
  dsimp only at h
  split at h
  · split at h
    · exact (radixLiteral_firm (fun _ => .of_hexDigit) (by decide) h).after (.skip c 1)
    · split at h
      · exact (radixLiteral_firm (fun _ => .of_binaryDigit) (by decide) h).after (.skip c 1)
      · split at h
        · cases h
        · exact decimal h
  · exact decimal h

theorem fractionLiteral_firm (hnext : nextIs CharClass.isDecimalDigit (c.skip 1) = true)
    (h : fractionLiteral c = .ok (l, d)) : c.Firm d := by
  obtain ⟨_, hdigits, hmore⟩ := ok_of_bind h
  obtain ⟨_, hexponent, hpure⟩ := ok_of_bind hmore
  cases hpure
  have hskip : c.Firm (c.skip 2) := by
    have hinside := firm_skip_next hnext fun _ => .of_decimalDigit
    rw [skip_skip] at hinside
    exact hinside.after (.skip c 1)
  exact hskip.then_steady
    ((digits_steady (fun _ => .of_decimalDigit) hdigits).trans (exponentPart_steady hexponent))

end Numerals

section Strings

variable {quote : Char} {c d : Cursor} {l : Lexeme}

theorem quotedBody_firm (hquote : Solid quote) : ∀ {fuel : Nat} {read out : QuotedText} {c : Cursor},
    quotedBody quote fuel read c = .ok (out, d) → c.Firm d
  | 0, _, _, _, h => by cases h
  | _ + 1, _, _, c, h => by
    unfold quotedBody at h
    split at h
    · cases h
    · rename_i hrest
      split at h
      · rename_i heq
        cases h
        exact firm_skip_one hrest (eq_of_beq heq ▸ hquote)
      · split at h
        · obtain ⟨⟨_, _⟩, hescape, hmore⟩ := ok_of_bind h
          exact (quotedBody_firm hquote hmore).after (.of_skip (stringEscape_leads hescape))
        · split at h
          · rename_i hline
            exact (quotedBody_firm hquote h).after (.of_skip (.newline hline))
          · exact (quotedBody_firm hquote h).after (.advance c)

theorem blockBody_firm (hquote : Solid quote) : ∀ {fuel : Nat} {read out : BlockText} {c : Cursor},
    blockBody quote fuel read c = .ok (out, d) → c.Firm d
  | 0, _, _, _, h => by cases h
  | _ + 1, _, _, c, h => by
    unfold blockBody at h
    split at h
    · cases h
    · split at h
      · rename_i hclose
        cases h
        exact firm_skip [quote, quote] hclose hquote
      · split at h
        · obtain ⟨⟨_, _⟩, hescape, hmore⟩ := ok_of_bind h
          exact (blockBody_firm hquote hmore).after (.of_skip (stringEscape_leads hescape))
        · split at h
          · rename_i hline
            exact (blockBody_firm hquote h).after (.of_skip (.newline hline))
          · exact (blockBody_firm hquote h).after (.advance c)

theorem stringLiteral_firm (hquote : Solid quote) (h : stringLiteral quote c = .ok (l, d)) :
    c.Firm d := by
  unfold stringLiteral at h
  split at h
  · obtain ⟨⟨_, _⟩, hbody, hpure⟩ := ok_of_bind h
    cases hpure
    exact (blockBody_firm hquote hbody).after ((Leads.skip c 3).trans (newline_getD_leads _))
  · obtain ⟨⟨_, _⟩, hbody, hmore⟩ := ok_of_bind h
    dsimp only at hmore
    split at hmore
    · cases hmore
    · cases hmore
      exact (quotedBody_firm hquote hbody).after (.skip c 1)

end Strings

section Lexemes

variable {c d : Cursor} {l : Lexeme}

theorem spelled_solid : ∀ entry ∈ spelledChars, ∃ hne : entry.1 ≠ [], Solid (entry.1.getLast hne) := by
  decide +kernel

theorem punctuation?_firm (h : punctuation? c = some (l, d)) : c.Firm d := by
  unfold punctuation? at h
  obtain ⟨entry, hfind, heq⟩ := Option.map_eq_some_iff.mp h
  cases heq
  have hstarts := List.find?_some hfind
  obtain ⟨hne, hsolid⟩ := spelled_solid entry (List.mem_of_find?_eq_some hfind)
  rw [← List.dropLast_concat_getLast hne] at hstarts ⊢
  exact firm_skip _ hstarts hsolid

theorem otherLexeme_firm {ch : Char} {rest : List Char} (hrest : c.rest = ch :: rest)
    (h : otherLexeme ch c = .ok (l, d)) : c.Firm d := by
  unfold otherLexeme at h
  split at h
  · rename_i hdot
    split at h
    · rename_i hnext
      exact fractionLiteral_firm hnext h
    · cases h
      exact firm_skip_one hrest (eq_of_beq hdot ▸ by decide)
  · split at h
    · rename_i hquote
      simp only [Bool.or_eq_true, beq_iff_eq] at hquote
      rcases hquote with rfl | rfl <;> exact stringLiteral_firm (by decide) h
    · split at h
      · exact unreservedName_firm h
      · split at h
        · exact escapedName_firm h
        · cases h

/-- A lexeme other than the end of the text ends with a solid character. -/
theorem lexeme_firm (h : lexeme c = .ok (l, d)) (hkind : l.kind ≠ .endOfProgram) : c.Firm d := by
  unfold lexeme at h
  split at h
  · cases h
    exact absurd rfl hkind
  · rename_i hrest
    split at h
    · rename_i hstart
      refine nameFrom_firm hrest ?_ h
      simp [isNamePart, CharClass.isIdentifierPart_of_start hstart]
    · split at h
      · rename_i hdigit
        exact numberLiteral_firm hrest hdigit h
      · split at h
        · rename_i hmark
          cases h
          exact punctuation?_firm hmark
        · exact otherLexeme_firm hrest h

end Lexemes

section RegularExpressions

variable {c d : Cursor}

theorem regularBody_firm : ∀ {fuel : Nat} {c : Cursor}, regularBody fuel c = .ok d → c.Firm d
  | 0, _, h => by cases h
  | _ + 1, c, h => by
    unfold regularBody at h
    split at h
    · obtain ⟨_, hpass, hmore⟩ := ok_of_bind h
      exact (regularBody_firm hmore).after (.of_skip (passAny_leads hpass))
    · split at h
      · rename_i hclose
        cases h
        exact firm_skip [] hclose (by decide)
      · obtain ⟨_, hpass, hmore⟩ := ok_of_bind h
        exact (regularBody_firm hmore).after (passAny_leads hpass)

theorem regularFlags_steady {flags : List Char} (h : regularFlags c = .ok (flags, d)) : c.Steady d := by
  obtain ⟨⟨_, _⟩, hread, hpure⟩ := ok_of_bind h
  cases hpure
  exact nameChars_steady hread

end RegularExpressions

end Scan

end ActionSyntax
