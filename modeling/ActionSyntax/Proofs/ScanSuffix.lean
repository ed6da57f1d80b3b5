import ActionSyntax.Scanner

/-!
Scanning only ever drops text from the front: a reading that succeeds leaves a suffix of what stood
before it. A token other than the end of the text takes at least one character, and a token that can
be split takes one character for each of its pieces.
-/

namespace ActionSyntax

set_option autoImplicit false

/-- What is said of the characters of a text is decided along the text, not along all characters. -/
instance (priority := high) decidableChars (text : List Char) (p : Char → Prop) [DecidablePred p] :
    Decidable (∀ ch ∈ text, p ch) := List.decidableBAll p text

theorem ok_of_bind {ε α β : Type} {x : Except ε α} {f : α → Except ε β} {b : β}
    (h : (x >>= f) = .ok b) : ∃ a, x = .ok a ∧ f a = .ok b := by
  cases x with
  | error e => cases h
  | ok a => exact ⟨a, rfl, h⟩

/-- The second cursor has what the first one has left, or less. -/
def Cursor.Leads (c d : Cursor) : Prop := d.rest <:+ c.rest

namespace Cursor.Leads

variable {c d e : Cursor}

theorem refl (c : Cursor) : c.Leads c := List.suffix_rfl

theorem trans (hcd : c.Leads d) (hde : d.Leads e) : c.Leads e := List.IsSuffix.trans hde hcd

theorem skip (c : Cursor) (n : Nat) : c.Leads (c.skip n) := List.drop_suffix n c.rest

theorem length_le (h : c.Leads d) : d.rest.length ≤ c.rest.length := List.IsSuffix.length_le h

theorem of_skip {n : Nat} (h : (c.skip n).Leads d) : c.Leads d := (skip c n).trans h

theorem advance_eq (c : Cursor) : c.advance.rest = (c.skip 1).rest := by
  unfold Cursor.advance Cursor.skip
  split <;> simp [*]

theorem of_advance (h : c.advance.Leads d) : (c.skip 1).Leads d := by
  unfold Leads at h ⊢
  rwa [advance_eq] at h

theorem advance (c : Cursor) : c.Leads c.advance := of_skip (of_advance (refl _))

theorem newline (h : c.newline? = some d) : (c.skip 1).Leads d := by
  unfold Cursor.newline? at h
  split at h
  · cases h
  · rename_i rest heq
    cases h
    simp only [Leads, Cursor.skip, heq, Cursor.startLine, List.drop_succ_cons, List.drop_zero]
    exact List.suffix_cons _ _
  · rename_i rest _ heq
    split at h
    · cases h
      simp [Leads, Cursor.skip, heq, Cursor.startLine]
    · cases h

end Cursor.Leads

namespace Scan

open Cursor

section Escapes

variable {c d : Cursor}

theorem hexDigit_leads {v : Nat} (h : hexDigit c = .ok (v, d)) : c.Leads d := by
  unfold hexDigit at h
  split at h
  · cases h
  · split at h
    · cases h
      exact .skip c 1
    · cases h

theorem fixedDigits_leads : ∀ {count value v : Nat} {c : Cursor},
    fixedDigits count value c = .ok (v, d) → c.Leads d
  | 0, _, _, _, h => by
    cases h
    exact .refl d
  | _ + 1, _, _, _, h => by
    obtain ⟨⟨_, _⟩, hx, hf⟩ := ok_of_bind h
    exact (hexDigit_leads hx).trans (fixedDigits_leads hf)

theorem bracedDigits_leads : ∀ {fuel value v : Nat} {c : Cursor},
    bracedDigits fuel value c = .ok (v, d) → c.Leads d
  | 0, _, _, _, h => by cases h
  | _ + 1, _, _, c, h => by
    unfold bracedDigits at h
    split at h
    · cases h
      exact .skip c 1
    · obtain ⟨⟨_, _⟩, hx, hf⟩ := ok_of_bind h
      dsimp only at hf
      split at hf
      · cases hf
      · exact (hexDigit_leads hx).trans (bracedDigits_leads hf)

theorem escapeValue_leads {count v : Nat} (h : escapeValue count c = .ok (v, d)) : c.Leads d := by
  unfold escapeValue at h
  split at h
  · obtain ⟨⟨_, _⟩, hx, hf⟩ := ok_of_bind h
    exact Leads.of_skip ((hexDigit_leads hx).trans (bracedDigits_leads hf))
  · exact fixedDigits_leads h

theorem escapedChar_leads {ch : Char} (h : escapedChar c = .ok (ch, d)) : c.Leads d := by
  obtain ⟨count, _, hf⟩ : ∃ count, True ∧
      (escapeValue count (c.skip 1) >>= fun x => pure (charOfValue x.1, x.2)) =
        Except.ok (ε := Failure) (ch, d) := by
    unfold escapedChar at h
    dsimp only at h
    split at h
    · exact ⟨4, trivial, h⟩
    · exact ⟨2, trivial, h⟩
    · cases h
  obtain ⟨⟨_, _⟩, hx, hp⟩ := ok_of_bind hf
  cases hp
  exact Leads.of_skip (escapeValue_leads hx)

end Escapes

section Names

variable {allowed : Char → Bool} {c d start : Cursor}

theorem nameEscape_leads {ch : Char} (h : nameEscape allowed c = .ok (ch, d)) :
    (c.skip 1).Leads d := by
  obtain ⟨⟨_, _⟩, hx, hf⟩ := ok_of_bind h
  dsimp only at hf
  split at hf
  · cases hf
    exact escapedChar_leads hx
  · cases hf

theorem nameChars_leads : ∀ {fuel : Nat} {read out : List Char} {c : Cursor},
    nameChars allowed fuel read c = .ok (out, d) → c.Leads d
  | 0, _, _, _, h => by
    cases h
    exact .refl d
  | _ + 1, _, _, _, h => by
    unfold nameChars at h
    split at h
    · cases h
      exact .refl d
    · split at h
      · exact Leads.of_skip (.of_advance (nameChars_leads h))
      · split at h
        · obtain ⟨⟨_, _⟩, hx, hf⟩ := ok_of_bind h
          exact Leads.of_skip ((nameEscape_leads hx).trans (nameChars_leads hf))
        · cases h
          exact .refl d

/-- A name that begins with a name character or a backslash takes at least that. -/
theorem nameChars_leads_skip {fuel : Nat} {read out : List Char} {ch : Char} {rest : List Char}
    (hc : c.rest = ch :: rest) (hch : isNamePart ch = true)
    (h : nameChars allowed (fuel + 1) read c = .ok (out, d)) : (c.skip 1).Leads d := by
  unfold nameChars at h
  rw [hc] at h
  dsimp only at h
  split at h
  · exact Leads.of_advance (nameChars_leads h)
  · split at h
    · obtain ⟨⟨_, _⟩, hx, hf⟩ := ok_of_bind h
      exact (nameEscape_leads hx).trans (nameChars_leads hf)
    · simp_all [isNamePart]

theorem nameFrom_chars {read : List Char} {reserving : Bool} {l : Lexeme}
    (h : nameFrom start read reserving c = .ok (l, d)) :
    (l.kind = .identifier ∨ l.kind = .keyword) ∧
      ∃ out, nameChars CharClass.isIdentifierPart (c.rest.length + 1) read c = .ok (out, d) := by
  obtain ⟨⟨out, _⟩, hx, hf⟩ := ok_of_bind h
  dsimp only at hf
  split at hf
  · split at hf
    · cases hf
      exact ⟨Or.inr rfl, out, hx⟩
    · cases hf
  · cases hf
    exact ⟨Or.inl rfl, out, hx⟩

theorem escapedName_leads {l : Lexeme} (h : escapedName c = .ok (l, d)) :
    (l.kind = .identifier ∨ l.kind = .keyword) ∧ (c.skip 1).Leads d := by
  obtain ⟨⟨_, _⟩, hx, hf⟩ := ok_of_bind h
  obtain ⟨hkind, _, hn⟩ := nameFrom_chars hf
  exact ⟨hkind, (nameEscape_leads hx).trans (nameChars_leads hn)⟩

theorem unreservedName_leads {l : Lexeme} (h : unreservedName c = .ok (l, d)) :
    (l.kind = .identifier ∨ l.kind = .keyword) ∧ (c.skip 1).Leads d := by
  unfold unreservedName at h
  dsimp only at h
  split at h
  · split at h
    · obtain ⟨hkind, _, hn⟩ := nameFrom_chars h
      exact ⟨hkind, nameChars_leads hn⟩
    · cases h
  · cases h

end Names

section Numerals

variable {isDigit : Char → Bool} {c d start : Cursor} {l : Lexeme}

theorem digits_leads (h : digits isDigit c = .ok d) : c.Leads d := by
  unfold digits at h
  dsimp only at h
  split at h
  · cases h
    exact .skip c _
  · cases h

theorem radixLiteral_leads {radix : Nat} (h : radixLiteral radix isDigit c = .ok (l, d)) :
    l.kind = .number ∧ c.Leads d := by
  unfold radixLiteral at h
  dsimp only at h
  split at h
  · cases h
  · obtain ⟨_, hx, hf⟩ := ok_of_bind h
    cases hf
    exact ⟨rfl, Leads.of_skip (digits_leads hx)⟩

theorem exponentPart_leads (h : exponentPart c = .ok d) : c.Leads d := by
  unfold exponentPart at h
  split at h
  · dsimp only at h
    generalize hs : (if nextIs _ (c.skip 1) then (c.skip 1).skip 1 else c.skip 1) = signed at h
    have hl : c.Leads signed := by
      rw [← hs]
      split
      · exact (Leads.skip c 1).trans (.skip _ 1)
      · exact .skip c 1
    split at h
    · exact hl.trans (digits_leads h)
    · cases h
  · cases h
    exact .refl c

theorem fractionPart_leads (h : fractionPart c = .ok d) : c.Leads d := by
  unfold fractionPart at h
  split at h
  · exact Leads.of_skip (digits_leads h)
  · cases h
    exact .refl c

theorem decimalFrom_leads (h : decimalFrom start c = .ok (l, d)) :
    l.kind = .number ∧ c.Leads d := by
  obtain ⟨_, hx, hf⟩ := ok_of_bind h
  obtain ⟨_, hy, hg⟩ := ok_of_bind hf
  cases hg
  exact ⟨rfl, (fractionPart_leads hx).trans (exponentPart_leads hy)⟩

theorem numberLiteral_leads (h : numberLiteral c = .ok (l, d)) :
    l.kind = .number ∧ (c.skip 1).Leads d := by
  have decimal : ∀ {d}, (digits CharClass.isDecimalDigit (c.skip 1) >>= decimalFrom c) =
      .ok (l, d) → l.kind = .number ∧ (c.skip 1).Leads d := by
    intro d h
    obtain ⟨_, hx, hf⟩ := ok_of_bind h
    obtain ⟨hkind, hl⟩ := decimalFrom_leads hf
    exact ⟨hkind, (digits_leads hx).trans hl⟩
  unfold numberLiteral at h
  dsimp only at h
  split at h
  · split at h
    · exact radixLiteral_leads h
    · split at h
      · exact radixLiteral_leads h
      · split at h
        · cases h
        · exact decimal h
  · exact decimal h

theorem fractionLiteral_leads (h : fractionLiteral c = .ok (l, d)) :
    l.kind = .number ∧ (c.skip 1).Leads d := by
  obtain ⟨_, hx, hf⟩ := ok_of_bind h
  obtain ⟨_, hy, hg⟩ := ok_of_bind hf
  cases hg
  have hs : (c.skip 1).Leads (c.skip 2) := by
    simpa [Leads, Cursor.skip] using List.drop_suffix 1 (c.rest.drop 1)
  exact ⟨rfl, hs.trans ((digits_leads hx).trans (exponentPart_leads hy))⟩

end Numerals

section Strings

variable {c d : Cursor} {quote : Char}

theorem stringEscape_leads {v : Option Char} (h : stringEscape c = .ok (v, d)) :
    (c.skip 1).Leads d := by
  unfold stringEscape at h
  dsimp only at h
  split at h
  · cases h
  · split at h
    · obtain ⟨⟨_, _⟩, hx, hf⟩ := ok_of_bind h
      cases hf
      exact escapedChar_leads hx
    · split at h
      · cases h
        exact .skip _ 1
      · split at h
        · rename_i hn
          cases h
          exact Leads.of_skip (.newline hn)
        · cases h
          exact .advance _

theorem quotedBody_leads : ∀ {fuel : Nat} {read out : QuotedText} {c : Cursor},
    quotedBody quote fuel read c = .ok (out, d) → c.Leads d
  | 0, _, _, _, h => by cases h
  | _ + 1, _, _, c, h => by
    unfold quotedBody at h
    split at h
    · cases h
    · split at h
      · cases h
        exact .skip c 1
      · split at h
        · obtain ⟨⟨_, _⟩, hx, hf⟩ := ok_of_bind h
          exact Leads.of_skip ((stringEscape_leads hx).trans (quotedBody_leads hf))
        · split at h
          · rename_i hn
            exact Leads.of_skip ((Leads.newline hn).trans (quotedBody_leads h))
          · exact Leads.of_skip (.of_advance (quotedBody_leads h))

theorem blockBody_leads : ∀ {fuel : Nat} {read out : BlockText} {c : Cursor},
    blockBody quote fuel read c = .ok (out, d) → c.Leads d
  | 0, _, _, _, h => by cases h
  | _ + 1, _, _, c, h => by
    unfold blockBody at h
    split at h
    · cases h
    · split at h
      · cases h
        exact .skip c 3
      · split at h
        · obtain ⟨⟨_, _⟩, hx, hf⟩ := ok_of_bind h
          exact Leads.of_skip ((stringEscape_leads hx).trans (blockBody_leads hf))
        · split at h
          · rename_i hn
            exact Leads.of_skip ((Leads.newline hn).trans (blockBody_leads h))
          · exact Leads.of_skip (.of_advance (blockBody_leads h))

theorem newline_getD_leads (c : Cursor) : c.Leads (c.newline?.getD c) := by
  cases hn : c.newline? with
  | none => exact .refl c
  | some d => exact Leads.of_skip (.newline hn)

theorem stringLiteral_leads {l : Lexeme} (h : stringLiteral quote c = .ok (l, d)) :
    l.kind = .string ∧ (c.skip 1).Leads d := by
  unfold stringLiteral at h
  split at h
  · obtain ⟨⟨_, _⟩, hx, hf⟩ := ok_of_bind h
    cases hf
    have hs : (c.skip 1).Leads (c.skip 3) := by
      simpa [Leads, Cursor.skip] using List.drop_suffix 2 (c.rest.drop 1)
    exact ⟨rfl, hs.trans ((newline_getD_leads _).trans (blockBody_leads hx))⟩
  · obtain ⟨⟨_, _⟩, hx, hf⟩ := ok_of_bind h
    dsimp only at hf
    split at hf
    · cases hf
    · cases hf
      exact ⟨rfl, quotedBody_leads hx⟩

end Strings

section Blanks

variable {c d : Cursor}

theorem commentChar_leads (h : commentChar c = .ok d) : c.Leads d := by
  unfold commentChar at h
  split at h
  · rename_i hn
    cases h
    exact Leads.of_skip (.newline hn)
  · split at h
    · cases h
    · cases h
      exact .advance c

theorem blockEnd_leads : ∀ {fuel depth : Nat} {c : Cursor},
    blockEnd fuel depth c = .ok d → c.Leads d
  | 0, _, _, h => by cases h
  | _ + 1, depth, c, h => by
    unfold blockEnd at h
    split at h
    · exact Leads.of_skip (blockEnd_leads h)
    · split at h
      · cases depth with
        | zero =>
          cases h
          exact .skip c 2
        | succ depth => exact Leads.of_skip (blockEnd_leads h)
      · obtain ⟨_, hx, hf⟩ := ok_of_bind h
        exact (commentChar_leads hx).trans (blockEnd_leads hf)

theorem markupEnd_leads : ∀ {fuel : Nat} {c : Cursor}, markupEnd fuel c = .ok d → c.Leads d
  | 0, _, h => by cases h
  | _ + 1, c, h => by
    unfold markupEnd at h
    split at h
    · cases h
      exact .skip c 3
    · obtain ⟨_, hx, hf⟩ := ok_of_bind h
      exact (commentChar_leads hx).trans (markupEnd_leads hf)

theorem dropBytes?_suffix : ∀ {text rest : List Char} {n : Nat},
    Utf8.dropBytes? text n = some rest → rest <:+ text
  | _, rest, 0, h => by
    rw [Utf8.dropBytes?_zero] at h
    cases h
    exact List.suffix_rfl
  | [], _, _ + 1, h => by cases h
  | ch :: text, _, n + 1, h => by
    unfold Utf8.dropBytes? at h
    split at h
    · exact (dropBytes?_suffix h).trans (List.suffix_cons ch text)
    · cases h

theorem lineComment_leads (c : Cursor) : c.Leads (lineComment c) := by
  apply Leads.of_skip (n := 2)
  unfold lineComment Leads
  dsimp only [Cursor.note]
  generalize LineSearch.distance 0 _ = width
  cases hd : Utf8.dropBytes? (c.skip 2).rest width with
  | none => exact List.nil_suffix
  | some rest => exact dropBytes?_suffix hd

theorem comment?_leads (h : comment? c = .ok (some d)) : c.Leads d := by
  unfold comment? at h
  split at h
  · obtain ⟨stop, hx, hf⟩ := ok_of_bind h
    cases hf
    have hl := markupEnd_leads hx
    exact Leads.of_skip (n := 4) hl
  · split at h
    · obtain ⟨stop, hx, hf⟩ := ok_of_bind h
      cases hf
      have hl := blockEnd_leads hx
      exact Leads.of_skip (n := 2) hl
    · split at h
      · cases h
        exact lineComment_leads c
      · cases h

theorem comment?_eq_none : comment? c = .ok none ↔
    c.startsWith ['<', '!', '-', '-'] = false ∧ c.startsWith ['/', '*'] = false ∧
      c.startsWith ['/', '/'] = false := by
  unfold comment?
  constructor
  · intro h
    split at h
    · obtain ⟨_, -, hsome⟩ := ok_of_bind h
      cases hsome
    split at h
    · obtain ⟨_, -, hsome⟩ := ok_of_bind h
      cases hsome
    split at h
    · cases h
    simp_all
  · rintro ⟨hmarkup, hblock, hline⟩
    simp [hmarkup, hblock, hline]

theorem triviaStep?_leads (h : triviaStep? c = .ok (some d)) : c.Leads d := by
  unfold triviaStep? at h
  split at h
  · cases h
  · split at h
    · cases h
      exact .advance c
    · split at h
      · rename_i hn
        cases h
        exact Leads.of_skip (.newline hn)
      · exact comment?_leads h

theorem triviaEnd_leads : ∀ {fuel : Nat} {c : Cursor}, triviaEnd fuel c = .ok d → c.Leads d
  | 0, _, h => by
    cases h
    exact .refl d
  | _ + 1, _, h => by
    obtain ⟨step, hx, hf⟩ := ok_of_bind h
    cases step with
    | none =>
      cases hf
      exact .refl d
    | some e => exact (triviaStep?_leads hx).trans (triviaEnd_leads hf)

theorem trivia_leads (h : trivia c = .ok d) : c.Leads d := triviaEnd_leads h

end Blanks

section RegularExpressions

variable {c d : Cursor}

theorem passAny_leads (h : passAny c = .ok d) : c.Leads d := by
  unfold passAny at h
  split at h
  · rename_i hn
    cases h
    exact Leads.of_skip (.newline hn)
  · split at h
    · cases h
    · cases h
      exact .advance c

theorem regularBody_leads : ∀ {fuel : Nat} {c : Cursor}, regularBody fuel c = .ok d → c.Leads d
  | 0, _, h => by cases h
  | _ + 1, c, h => by
    unfold regularBody at h
    split at h
    · obtain ⟨_, hx, hf⟩ := ok_of_bind h
      exact Leads.of_skip ((passAny_leads hx).trans (regularBody_leads hf))
    · split at h
      · cases h
        exact .skip c 1
      · obtain ⟨_, hx, hf⟩ := ok_of_bind h
        exact (passAny_leads hx).trans (regularBody_leads hf)

/-- The body of a regular expression ends behind a slash of its own. -/
theorem regularBody_shorter : ∀ {fuel : Nat} {c : Cursor}, regularBody fuel c = .ok d →
    d.rest.length < c.rest.length
  | 0, _, h => by cases h
  | _ + 1, c, h => by
    unfold regularBody at h
    split at h
    · obtain ⟨_, hx, hf⟩ := ok_of_bind h
      have hpassed := (Leads.of_skip (passAny_leads hx)).length_le
      exact Nat.lt_of_lt_of_le (regularBody_shorter hf) hpassed
    · split at h
      · rename_i hslash
        cases h
        have hne : c.rest ≠ [] := fun hnil => by simp [Cursor.startsWith, hnil] at hslash
        have hpos := List.length_pos_iff.mpr hne
        simp only [Cursor.skip, List.length_drop]
        omega
      · obtain ⟨_, hx, hf⟩ := ok_of_bind h
        exact Nat.lt_of_lt_of_le (regularBody_shorter hf) (passAny_leads hx).length_le

theorem regularFlags_leads {flags : List Char} (h : regularFlags c = .ok (flags, d)) :
    c.Leads d := by
  obtain ⟨⟨_, _⟩, hx, hf⟩ := ok_of_bind h
  cases hf
  exact nameChars_leads hx

end RegularExpressions

end Scan

/-- The number of pieces into which a token can be split, or nothing at the end of the text. -/
def Lexeme.weight (l : Lexeme) : Nat :=
  match l.kind, l.operator with
  | .endOfProgram, _ => 0
  | .compoundAssignment, some .shiftRightUnsigned => 4
  | .compoundAssignment, some .shiftRight => 3
  | .operator, some .shiftRightUnsigned => 3
  | .operator, some .shiftRight => 2
  | .operator, some .greaterOrEqual => 2
  | _, _ => 1

namespace Lexeme

theorem weight_pos {l : Lexeme} (h : l.kind ≠ .endOfProgram) : 0 < l.weight := by
  unfold weight
  split
  · exact absurd ‹_› h
  all_goals decide

theorem weight_eq_one {l : Lexeme} (h : l.kind ≠ .endOfProgram) (ho : l.kind ≠ .operator)
    (hc : l.kind ≠ .compoundAssignment) : l.weight = 1 := by
  unfold weight
  split <;> simp_all

end Lexeme

namespace Scan

open Cursor

variable {c d : Cursor} {l : Lexeme}

theorem spelled_weight : ∀ entry ∈ spelledChars,
    entry.2.kind ≠ .endOfProgram ∧ entry.2.weight ≤ entry.1.length := by
  decide

theorem punctuation?_weight (h : punctuation? c = some (l, d)) :
    l.kind ≠ .endOfProgram ∧ l.weight + d.rest.length ≤ c.rest.length ∧ c.Leads d := by
  unfold punctuation? at h
  obtain ⟨entry, hfind, heq⟩ := Option.map_eq_some_iff.mp h
  cases heq
  obtain ⟨hkind, hweight⟩ := spelled_weight entry (List.mem_of_find?_eq_some hfind)
  have hstart := List.find?_some hfind
  have hlength := (List.isPrefixOf_iff_prefix.mp hstart).length_le
  refine ⟨hkind, ?_, .skip c _⟩
  simp only [Cursor.skip, List.length_drop]
  omega

/-- A lexeme of a single piece that takes at least one character. -/
theorem lexeme_weight_one (hne : c.rest ≠ []) (hend : l.kind ≠ .endOfProgram)
    (ho : l.kind ≠ .operator) (hc : l.kind ≠ .compoundAssignment) (hl : (c.skip 1).Leads d) :
    l.kind ≠ .endOfProgram ∧ l.weight + d.rest.length ≤ c.rest.length ∧ c.Leads d := by
  refine ⟨hend, ?_, Leads.of_skip hl⟩
  have hlength := hl.length_le
  have hpos := List.length_pos_iff.mpr hne
  rw [Lexeme.weight_eq_one hend ho hc]
  simp only [Cursor.skip, List.length_drop] at hlength
  omega

theorem otherLexeme_weight {ch : Char} (hne : c.rest ≠ [])
    (h : otherLexeme ch c = .ok (l, d)) :
    l.kind ≠ .endOfProgram ∧ l.weight + d.rest.length ≤ c.rest.length ∧ c.Leads d := by
  have name : (l.kind = .identifier ∨ l.kind = .keyword) ∧ (c.skip 1).Leads d →
      l.kind ≠ .endOfProgram ∧ l.weight + d.rest.length ≤ c.rest.length ∧ c.Leads d := by
    rintro ⟨hk | hk, hl⟩ <;>
      exact lexeme_weight_one hne (by simp [hk]) (by simp [hk]) (by simp [hk]) hl
  unfold otherLexeme at h
  split at h
  · split at h
    · obtain ⟨hk, hl⟩ := fractionLiteral_leads h
      exact lexeme_weight_one hne (by simp [hk]) (by simp [hk]) (by simp [hk]) hl
    · cases h
      exact lexeme_weight_one hne (by simp) (by simp) (by simp) (.refl _)
  · split at h
    · obtain ⟨hk, hl⟩ := stringLiteral_leads h
      exact lexeme_weight_one hne (by simp [hk]) (by simp [hk]) (by simp [hk]) hl
    · split at h
      · exact name (unreservedName_leads h)
      · split at h
        · exact name (escapedName_leads h)
        · cases h

/-- A lexeme is the end of the text, or takes as many characters as it has pieces. -/
theorem lexeme_weight (h : lexeme c = .ok (l, d)) :
    (c.rest = [] ∨ l.kind ≠ .endOfProgram) ∧ l.weight + d.rest.length ≤ c.rest.length ∧
      c.Leads d := by
  unfold lexeme at h
  split at h
  · rename_i hnil
    cases h
    exact ⟨Or.inl hnil, by simp [Lexeme.weight], .refl _⟩
  · rename_i ch rest hcons
    have hne : c.rest ≠ [] := by simp [hcons]
    suffices hs : l.kind ≠ .endOfProgram ∧ l.weight + d.rest.length ≤ c.rest.length ∧ c.Leads d from
      ⟨Or.inr hs.1, hs.2⟩
    split at h
    · rename_i hstart
      obtain ⟨hk, _, hn⟩ := nameFrom_chars h
      have hpart : isNamePart ch = true := by
        simp [isNamePart, CharClass.isIdentifierPart_of_start hstart]
      have hl := nameChars_leads_skip hcons hpart hn
      rcases hk with hk | hk <;>
        exact lexeme_weight_one hne (by simp [hk]) (by simp [hk]) (by simp [hk]) hl
    · split at h
      · obtain ⟨hk, hl⟩ := numberLiteral_leads h
        exact lexeme_weight_one hne (by simp [hk]) (by simp [hk]) (by simp [hk]) hl
      · split at h
        · rename_i hp
          cases h
          exact punctuation?_weight hp
        · exact otherLexeme_weight hne h

end Scan

end ActionSyntax
