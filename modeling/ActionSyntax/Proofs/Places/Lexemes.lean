import ActionSyntax.Proofs.Places.Passing

/-!
How lexemes are passed. A reading ends behind what it has passed. Where it fails, the cursor is left
at a place that was passed, and the range of the problem runs from such a place to the cursor.
-/

namespace ActionSyntax.Scan

set_option autoImplicit false

open Cursor

/-- How a reading from a cursor ends, its values telling where they leave the cursor. -/
def Covers {α : Type} (place : α → Cursor) (c : Cursor) : Except Failure α → Prop
  | .ok a => c.Onto (place a)
  | .error f => ∃ b, c.Onto b ∧ b.Onto f.cursor ∧ f.span = b.spanTo f.cursor

namespace Covers

variable {α β : Type} {p : α → Cursor} {q : β → Cursor} {c d : Cursor}

theorem ok {a : α} (h : c.Onto (p a)) : Covers p c (.ok a) := h

theorem of_onto {x : Except Failure α} (h : c.Onto d) (hx : Covers p d x) : Covers p c x := by
  cases x with
  | ok a => exact h.trans hx
  | error f =>
    obtain ⟨b, hb, hf, hspan⟩ := hx
    exact ⟨b, h.trans hb, hf, hspan⟩

theorem bind {x : Except Failure α} {f : α → Except Failure β} (hx : Covers p c x)
    (hf : ∀ a, x = .ok a → Covers q (p a) (f a)) : Covers q c (x >>= f) := by
  cases x with
  | ok a => exact .of_onto hx (hf a rfl)
  | error e => exact hx

theorem at_place (c : Cursor) (id : ProblemId) (arguments : List (String × Argument)) :
    Covers p c (.error (.at c id c.place arguments)) := ⟨c, .refl c, .refl c, rfl⟩

theorem unexpected (c : Cursor) : Covers p c (.error (.unexpected c)) := by
  unfold Failure.unexpected
  split
  · exact at_place c _ _
  · exact at_place c _ _

end Covers

section Escapes

theorem hexDigit_covers (c : Cursor) : Covers Prod.snd c (hexDigit c) := by
  unfold hexDigit
  split
  · exact .unexpected c
  · rename_i ch rest hrest
    split
    · rename_i v hv
      exact .ok (onto_skip_one hrest (.hexDigit hv))
    · exact .unexpected c

theorem fixedDigits_covers : ∀ (count value : Nat) (c : Cursor),
    Covers Prod.snd c (fixedDigits count value c)
  | 0, _, c => .ok (.refl c)
  | _ + 1, _, c => .bind (hexDigit_covers c) fun _ _ => fixedDigits_covers _ _ _

theorem bracedDigits_covers : ∀ (fuel value : Nat) (c : Cursor),
    Covers Prod.snd c (bracedDigits fuel value c)
  | 0, _, c => .unexpected c
  | fuel + 1, value, c => by
    unfold bracedDigits
    split
    · rename_i hclose
      exact .ok (onto_skip_startsWith hclose (by decide))
    · refine .bind (hexDigit_covers c) fun _ _ => ?_
      dsimp only
      split
      · exact .unexpected _
      · exact bracedDigits_covers fuel _ _

theorem escapeValue_covers (count : Nat) (c : Cursor) :
    Covers Prod.snd c (escapeValue count c) := by
  unfold escapeValue
  split
  · rename_i hopen
    refine .of_onto (onto_skip_startsWith hopen (by decide)) ?_
    exact .bind (hexDigit_covers _) fun _ _ => bracedDigits_covers _ _ _
  · exact fixedDigits_covers count 0 c

theorem escapedChar_covers (c : Cursor) : Covers Prod.snd c (escapedChar c) := by
  have value : ∀ {ch : Char} {rest : List Char} (count : Nat), c.rest = ch :: rest → Narrow ch →
      Covers Prod.snd c
        (escapeValue count (c.skip 1) >>= fun x => pure (charOfValue x.1, x.2)) := by
    intro ch rest count hrest hch
    refine .of_onto (onto_skip_one hrest hch) ?_
    exact .bind (escapeValue_covers count _) fun _ _ => .ok (.refl _)
  unfold escapedChar
  split
  · rename_i hrest
    exact value 4 hrest (by decide)
  · rename_i hrest
    exact value 2 hrest (by decide)
  · exact .unexpected c

end Escapes

section Names

variable {allowed : Char → Bool}

theorem nameEscape_covers {c : Cursor} {rest : List Char} (h : c.rest = '\\' :: rest) :
    Covers Prod.snd c (nameEscape allowed c) := by
  refine .of_onto (onto_skip_one h (by decide)) (.bind (escapedChar_covers _) fun a _ => ?_)
  dsimp only
  split
  · exact .ok (.refl _)
  · exact .at_place _ _ _

theorem nameChars_covers : ∀ (fuel : Nat) (read : List Char) (c : Cursor),
    Covers Prod.snd c (nameChars allowed fuel read c)
  | 0, _, c => .ok (.refl c)
  | fuel + 1, read, c => by
    unfold nameChars
    split
    · exact .ok (.refl c)
    · rename_i ch rest hrest
      split
      · rename_i hpart
        have hadvance := passes_advance hrest (CharClass.not_lineTerminator_of_part hpart)
        exact .of_onto ⟨_, hadvance⟩ (nameChars_covers fuel _ _)
      · split
        · rename_i hescape
          rw [eq_of_beq hescape] at hrest
          exact .bind (nameEscape_covers hrest) fun _ _ => nameChars_covers fuel _ _
        · exact .ok (.refl c)

theorem nameFrom_covers (start : Cursor) (read : List Char) (reserving : Bool) (c : Cursor) :
    Covers Prod.snd c (nameFrom start read reserving c) := by
  refine .bind (nameChars_covers _ read c) fun _ _ => ?_
  dsimp only
  split
  · split
    · exact .ok (.refl _)
    · exact .at_place _ _ _
  · exact .ok (.refl _)

theorem escapedName_covers {c : Cursor} {rest : List Char} (h : c.rest = '\\' :: rest) :
    Covers Prod.snd c (escapedName c) :=
  .bind (nameEscape_covers h) fun _ _ => nameFrom_covers _ _ _ _

theorem unreservedName_covers {c : Cursor} {rest : List Char} (h : c.rest = '#' :: rest) :
    Covers Prod.snd c (unreservedName c) := by
  refine .of_onto (onto_skip_one h (by decide)) ?_
  unfold unreservedName
  dsimp only
  split
  · split
    · exact nameFrom_covers _ _ _ _
    · exact .unexpected _
  · exact .unexpected _

end Names

section Numerals

variable {isDigit : Char → Bool} {c : Cursor}

/-- A run of digits passes digits and separators. -/
theorem digitRun_forall {P : Char → Prop} (hsep : P '_') (hdigit : ∀ ch, isDigit ch = true → P ch) :
    ∀ text : List Char, ∃ run rest, text = run ++ rest ∧ run.length = (digitRun isDigit text).1 ∧
      ∀ ch ∈ run, P ch := by
  intro text
  have cons : ∀ {text : List Char} {length : Nat} {ch : Char}, P ch →
      (∃ run rest, text = run ++ rest ∧ run.length = length ∧ ∀ ch ∈ run, P ch) →
      ∃ run rest, ch :: text = run ++ rest ∧ run.length = length + 1 ∧ ∀ ch ∈ run, P ch := by
    rintro text length ch hch ⟨run, rest, rfl, rfl, hrun⟩
    exact ⟨ch :: run, rest, rfl, rfl, List.forall_mem_cons.mpr ⟨hch, hrun⟩⟩
  induction text using digitRun.induct isDigit with
  | case1 => exact ⟨[], [], rfl, rfl, by simp⟩
  | case2 ch rest hch length good heq ih =>
    rw [heq] at ih
    simp only [digitRun, hch, if_true, heq]
    exact cons hsep (cons (hdigit ch hch) ih)
  | case3 ch rest hch =>
    simp only [digitRun, hch]
    exact ⟨['_'], ch :: rest, rfl, rfl, by simpa using hsep⟩
  | case4 => exact ⟨['_'], [], rfl, rfl, by simpa using hsep⟩
  | case5 ch rest hnot hend hch length good heq ih =>
    rw [heq] at ih
    have hrun : digitRun isDigit (ch :: rest) = (length + 1, good) := by
      unfold digitRun
      split <;> simp_all
    rw [hrun]
    exact cons (hdigit ch hch) ih
  | case6 ch rest hnot hend hch =>
    have hrun : digitRun isDigit (ch :: rest) = (0, true) := by
      unfold digitRun
      split <;> simp_all
    rw [hrun]
    exact ⟨[], ch :: rest, rfl, rfl, by simp⟩

theorem digits_covers (hdigit : ∀ ch, isDigit ch = true → Narrow ch) (c : Cursor) :
    Covers id c (digits isDigit c) := by
  have hsep : Narrow '_' := by decide
  obtain ⟨run, rest, hrest, hlength, hrun⟩ := digitRun_forall hsep hdigit c.rest
  have honto : c.Onto (c.skip (digitRun isDigit c.rest).1) :=
    hlength ▸ ⟨run, passes_skip hrest hrun⟩
  unfold digits
  dsimp only
  split
  · exact .ok honto
  · exact .of_onto honto (.unexpected _)

theorem nextIs_rest {p : Char → Bool} (h : nextIs p c = true) :
    ∃ ch rest, c.rest = ch :: rest ∧ p ch = true := by
  unfold nextIs at h
  cases hrest : c.rest with
  | nil => simp [hrest] at h
  | cons ch rest => exact ⟨ch, rest, rfl, by simpa [hrest] using h⟩

theorem onto_skip_next {p : Char → Bool} (h : nextIs p c = true)
    (hp : ∀ ch, p ch = true → Narrow ch) : c.Onto (c.skip 1) := by
  obtain ⟨ch, rest, hrest, hch⟩ := nextIs_rest h
  exact onto_skip_one hrest (hp ch hch)

theorem radixLiteral_covers {radix : Nat} (hdigit : ∀ ch, isDigit ch = true → Narrow ch)
    (h : c.Onto (c.skip 1)) : Covers Prod.snd c (radixLiteral radix isDigit c) := by
  refine .of_onto h ?_
  unfold radixLiteral
  dsimp only
  split
  · exact .unexpected _
  · exact .bind (digits_covers hdigit _) fun _ _ => .ok (.refl _)

theorem exponentPart_covers (c : Cursor) : Covers id c (exponentPart c) := by
  have hmark : ∀ ch, Decimal.isExponentMark ch = true → Narrow ch := by
    intro ch h
    simp only [Decimal.isExponentMark, Bool.or_eq_true, beq_iff_eq] at h
    rcases h with rfl | rfl <;> decide
  have hsign : ∀ ch : Char, (ch == '+' || ch == '-') = true → Narrow ch := by
    intro ch h
    simp only [Bool.or_eq_true, beq_iff_eq] at h
    rcases h with rfl | rfl <;> decide
  unfold exponentPart
  split
  · rename_i hnext
    refine .of_onto (onto_skip_next hnext hmark) ?_
    dsimp only
    generalize hs : (if nextIs _ (c.skip 1) then (c.skip 1).skip 1 else c.skip 1) = signed
    have hsigned : (c.skip 1).Onto signed := by
      rw [← hs]
      split
      · exact onto_skip_next (by assumption) hsign
      · exact .refl _
    refine .of_onto hsigned ?_
    split
    · exact digits_covers (fun _ => .isDecimalDigit) _
    · exact .unexpected _
  · exact .ok (.refl c)

theorem fractionPart_covers (c : Cursor) : Covers id c (fractionPart c) := by
  unfold fractionPart
  split
  · rename_i hdot
    refine .of_onto (onto_skip_next hdot fun ch h => ?_) (digits_covers (fun _ => .isDecimalDigit) _)
    rw [eq_of_beq h]
    decide
  · exact .ok (.refl c)

theorem decimalFrom_covers (start c : Cursor) : Covers Prod.snd c (decimalFrom start c) :=
  .bind (fractionPart_covers c) fun _ _ => .bind (exponentPart_covers _) fun _ _ => .ok (.refl _)

theorem numberLiteral_covers {ch : Char} {rest : List Char} (hrest : c.rest = ch :: rest)
    (hch : CharClass.isDecimalDigit ch = true) : Covers Prod.snd c (numberLiteral c) := by
  have hskip := onto_skip_one hrest (.isDecimalDigit hch)
  have decimal : Covers Prod.snd (c.skip 1)
      (digits CharClass.isDecimalDigit (c.skip 1) >>= decimalFrom c) :=
    .bind (digits_covers (fun _ => .isDecimalDigit) _) fun _ _ => decimalFrom_covers _ _
  have hletter : ∀ {a b : Char}, Narrow a → Narrow b →
      ∀ ch : Char, (ch == a || ch == b) = true → Narrow ch := by
    intro a b ha hb ch h
    simp only [Bool.or_eq_true, beq_iff_eq] at h
    rcases h with rfl | rfl <;> assumption
  refine .of_onto hskip ?_
  unfold numberLiteral
  dsimp only
  split
  · split
    · rename_i hx
      exact radixLiteral_covers (fun _ => .isHexDigit)
        (onto_skip_next hx (hletter (by decide) (by decide)))
    · split
      · rename_i hb
        exact radixLiteral_covers (fun _ => .isBinaryDigit)
          (onto_skip_next hb (hletter (by decide) (by decide)))
      · split
        · exact .unexpected _
        · exact decimal
  · exact decimal

theorem fractionLiteral_covers {rest : List Char} (hrest : c.rest = '.' :: rest)
    (hnext : nextIs CharClass.isDecimalDigit (c.skip 1) = true) :
    Covers Prod.snd c (fractionLiteral c) := by
  have hskip : c.Onto (c.skip 2) := by
    obtain ⟨ch, more, hmore, hch⟩ := nextIs_rest hnext
    have hrest' : c.rest = ['.', ch] ++ more := by
      simp only [Cursor.skip, hrest, List.drop_succ_cons, List.drop_zero] at hmore
      rw [hrest, hmore]
      rfl
    refine ⟨_, passes_skip hrest' fun d hd => ?_⟩
    simp only [List.mem_cons, List.not_mem_nil, or_false] at hd
    rcases hd with rfl | rfl
    · decide
    · exact .isDecimalDigit hch
  exact .of_onto hskip (.bind (digits_covers (fun _ => .isDecimalDigit) _) fun _ _ =>
    .bind (exponentPart_covers _) fun _ _ => .ok (.refl _))

end Numerals

section Strings

variable {quote : Char} {c : Cursor}

theorem namedEscape?_narrow {ch v : Char} (h : namedEscape? ch = some v) : Narrow ch := by
  unfold namedEscape? at h
  split at h <;> first | decide | cases h

theorem stringEscape_covers {rest : List Char} (h : c.rest = '\\' :: rest) :
    Covers Prod.snd c (stringEscape c) := by
  refine .of_onto (onto_skip_one h (by decide)) ?_
  unfold stringEscape
  dsimp only
  split
  · exact .unexpected _
  · rename_i ch more hmore
    have hne : (c.skip 1).rest ≠ [] := by simp [hmore]
    split
    · exact .bind (escapedChar_covers _) fun _ _ => .ok (.refl _)
    · split
      · rename_i hnamed
        exact .ok (onto_skip_one hmore (namedEscape?_narrow hnamed))
      · split
        · rename_i hline
          exact .ok (onto_newline hline)
        · rename_i hline
          exact .ok (onto_advance hne hline)

theorem quotedBody_covers (hquote : Narrow quote) : ∀ (fuel : Nat) (read : QuotedText)
    (c : Cursor), Covers Prod.snd c (quotedBody quote fuel read c)
  | 0, _, c => .unexpected c
  | fuel + 1, read, c => by
    unfold quotedBody
    split
    · exact .unexpected c
    · rename_i ch rest hrest
      have hne : c.rest ≠ [] := by simp [hrest]
      split
      · rename_i hclose
        exact .ok (onto_skip_one hrest (eq_of_beq hclose ▸ hquote))
      · split
        · rename_i hescape
          rw [eq_of_beq hescape] at hrest
          exact .bind (stringEscape_covers hrest) fun _ _ => quotedBody_covers hquote fuel _ _
        · split
          · rename_i hline
            exact .of_onto (onto_newline hline) (quotedBody_covers hquote fuel _ _)
          · rename_i hline
            exact .of_onto (onto_advance hne hline) (quotedBody_covers hquote fuel _ _)

theorem threeQuotes_narrow (hquote : Narrow quote) : ∀ ch ∈ [quote, quote, quote], Narrow ch := by
  simpa using hquote

theorem blockBody_covers (hquote : Narrow quote) : ∀ (fuel : Nat) (read : BlockText)
    (c : Cursor), Covers Prod.snd c (blockBody quote fuel read c)
  | 0, _, c => .unexpected c
  | fuel + 1, read, c => by
    unfold blockBody
    split
    · exact .unexpected c
    · rename_i ch rest hrest
      have hne : c.rest ≠ [] := by simp [hrest]
      split
      · rename_i hclose
        exact .ok (onto_skip_startsWith hclose (threeQuotes_narrow hquote))
      · split
        · rename_i hescape
          rw [eq_of_beq hescape] at hrest
          exact .bind (stringEscape_covers hrest) fun _ _ => blockBody_covers hquote fuel _ _
        · split
          · rename_i hline
            exact .of_onto (onto_newline hline) (blockBody_covers hquote fuel _ _)
          · rename_i hline
            exact .of_onto (onto_advance hne hline) (blockBody_covers hquote fuel _ _)

theorem blockLiteral_covers (hquote : Narrow quote) (c : Cursor) :
    Covers Prod.snd c (blockLiteral quote c) := by
  have hfirst : c.Onto (c.newline?.getD c) := by
    cases hline : c.newline? with
    | none => exact .refl c
    | some d => exact onto_newline hline
  exact .of_onto hfirst (.bind (blockBody_covers hquote _ _ _) fun _ _ => .ok (.refl _))

theorem stringLiteral_covers {rest : List Char} (hquote : Narrow quote)
    (hrest : c.rest = quote :: rest) : Covers Prod.snd c (stringLiteral quote c) := by
  unfold stringLiteral
  split
  · rename_i hopen
    exact .of_onto (onto_skip_startsWith hopen (threeQuotes_narrow hquote))
      (blockLiteral_covers hquote _)
  · have hskip := onto_skip_one hrest hquote
    dsimp only
    have hbody := quotedBody_covers hquote ((c.skip 1).rest.length + 1) {} (c.skip 1)
    cases hread : quotedBody quote ((c.skip 1).rest.length + 1) {} (c.skip 1) with
    | error f =>
      rw [hread] at hbody
      exact .of_onto hskip hbody
    | ok reading =>
      rw [hread] at hbody
      show Covers Prod.snd c (if reading.1.broken then _ else _)
      split
      · exact ⟨c, .refl c, hskip.trans hbody, rfl⟩
      · exact .ok (hskip.trans hbody)

end Strings

section Lexemes

variable {c : Cursor}

theorem spelled_narrow : ∀ entry ∈ spelledChars, AllNarrow entry.1 := by decide +kernel

theorem punctuation?_onto {reading : Lexeme × Cursor} (h : punctuation? c = some reading) :
    c.Onto reading.2 := by
  unfold punctuation? at h
  obtain ⟨entry, hfind, heq⟩ := Option.map_eq_some_iff.mp h
  cases heq
  have hstart := List.find?_some hfind
  exact onto_skip_startsWith hstart (spelled_narrow entry (List.mem_of_find?_eq_some hfind))

theorem otherLexeme_covers {ch : Char} {rest : List Char} (hrest : c.rest = ch :: rest) :
    Covers Prod.snd c (otherLexeme ch c) := by
  unfold otherLexeme
  split
  · rename_i hdot
    rw [eq_of_beq hdot] at hrest
    split
    · rename_i hnext
      exact fractionLiteral_covers hrest hnext
    · exact .ok (onto_skip_one hrest (by decide))
  · split
    · rename_i hquote
      simp only [Bool.or_eq_true, beq_iff_eq] at hquote
      rcases hquote with rfl | rfl <;> exact stringLiteral_covers (by decide) hrest
    · split
      · rename_i hsharp
        rw [eq_of_beq hsharp] at hrest
        exact unreservedName_covers hrest
      · split
        · rename_i hescape
          rw [eq_of_beq hescape] at hrest
          exact escapedName_covers hrest
        · exact .unexpected c

theorem lexeme_covers (c : Cursor) : Covers Prod.snd c (lexeme c) := by
  unfold lexeme
  split
  · exact .ok (.refl c)
  · rename_i ch rest hrest
    split
    · exact nameFrom_covers _ _ _ _
    · split
      · rename_i hdigit
        exact numberLiteral_covers hrest hdigit
      · split
        · rename_i hmark
          exact .ok (punctuation?_onto hmark)
        · exact otherLexeme_covers hrest

end Lexemes

section RegularExpressions

theorem passAny_covers (c : Cursor) : Covers id c (passAny c) := by
  unfold passAny
  split
  · rename_i hline
    exact .ok (onto_newline hline)
  · rename_i hline
    split
    · exact .unexpected c
    · rename_i hend
      exact .ok (onto_advance (fun hnil => hend (by simp [atEnd, hnil])) hline)

theorem regularBody_covers : ∀ (fuel : Nat) (c : Cursor), Covers id c (regularBody fuel c)
  | 0, c => .unexpected c
  | fuel + 1, c => by
    unfold regularBody
    split
    · rename_i hescape
      refine .of_onto (onto_skip_startsWith hescape (by decide)) ?_
      exact .bind (passAny_covers _) fun _ _ => regularBody_covers fuel _
    · split
      · rename_i hclose
        exact .ok (onto_skip_startsWith hclose (by decide))
      · exact .bind (passAny_covers c) fun _ _ => regularBody_covers fuel _

theorem regularFlags_covers (c : Cursor) : Covers Prod.snd c (regularFlags c) :=
  .bind (nameChars_covers _ [] c) fun _ _ => .ok (.refl _)

end RegularExpressions

end ActionSyntax.Scan
