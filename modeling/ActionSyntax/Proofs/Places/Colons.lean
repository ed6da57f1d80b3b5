import ActionSyntax.Proofs.Places.Gaps
import ActionSyntax.Proofs.Reach
import ActionSyntax.Proofs.ScanAmid

/-!
Where the colons of a text are. A colon is read from its own character, and apart from strings no
other token is written with it. So a parser that has passed the last colon character reads none.
-/

namespace ActionSyntax

set_option autoImplicit false

namespace Cursor

/-- What stands between the cursors has no colon. -/
def Clear (c d : Cursor) : Prop := ∃ text, c.rest = text ++ d.rest ∧ ':' ∉ text

variable {c d e : Cursor}

namespace Clear

theorem refl (c : Cursor) : c.Clear c := ⟨[], rfl, by simp⟩

theorem trans (hcd : c.Clear d) (hde : d.Clear e) : c.Clear e := by
  obtain ⟨a, ha, hna⟩ := hcd
  obtain ⟨b, hb, hnb⟩ := hde
  refine ⟨a ++ b, ?_, by simp [hna, hnb]⟩
  rw [ha, hb, List.append_assoc]

theorem skip {text rest : List Char} (h : c.rest = text ++ rest) (hn : ':' ∉ text) :
    c.Clear (c.skip text.length) := ⟨text, by simp [Cursor.skip, h], hn⟩

theorem skip_one {ch : Char} {rest : List Char} (h : c.rest = ch :: rest) (hch : ch ≠ ':') :
    c.Clear (c.skip 1) :=
  skip (show c.rest = [ch] ++ rest from h) (by simpa using hch.symm)

theorem advance {ch : Char} {rest : List Char} (h : c.rest = ch :: rest) (hch : ch ≠ ':') :
    c.Clear c.advance := by
  obtain ⟨text, htext, hn⟩ := skip_one h hch
  exact ⟨text, by rw [htext, Leads.advance_eq], hn⟩

theorem startsWith {text : List Char} (h : c.startsWith text = true) (hn : ':' ∉ text) :
    c.Clear (c.skip text.length) := by
  obtain ⟨rest, hrest⟩ := List.isPrefixOf_iff_prefix.mp h
  exact skip hrest.symm hn

end Clear

theorem Onto.leads (h : c.Onto d) : c.Leads d := by
  obtain ⟨text, hp⟩ := h
  exact ⟨text, hp.rest.symm⟩

end Cursor

namespace Scan

open Cursor

/-- A reading that succeeds passes no colon; its values tell where they leave the cursor. -/
def Clears {α : Type} (place : α → Cursor) (c : Cursor) (x : Except Failure α) : Prop :=
  ∀ a, x = .ok a → c.Clear (place a)

namespace Clears

variable {α β : Type} {p : α → Cursor} {q : β → Cursor} {c d : Cursor}

theorem ok {a : α} (h : c.Clear (p a)) : Clears p c (.ok a) := by
  rintro _ ⟨⟩
  exact h

theorem error {f : Failure} : Clears p c (.error f) := nofun

theorem of_clear {x : Except Failure α} (h : c.Clear d) (hx : Clears p d x) : Clears p c x :=
  fun a ha => h.trans (hx a ha)

theorem bind {x : Except Failure α} {f : α → Except Failure β} (hx : Clears p c x)
    (hf : ∀ a, Clears q (p a) (f a)) : Clears q c (x >>= f) := by
  intro b hb
  obtain ⟨a, ha, hfa⟩ := ok_of_bind hb
  exact (hx a ha).trans (hf a b hfa)

end Clears

section Names

theorem hexDigit_clears (c : Cursor) : Clears Prod.snd c (hexDigit c) := by
  unfold hexDigit
  split
  · exact .error
  · rename_i ch rest hrest
    split
    · rename_i v hv
      refine .ok (.skip_one hrest ?_)
      rintro rfl
      cases hv
    · exact .error

theorem fixedDigits_clears : ∀ (count value : Nat) (c : Cursor),
    Clears Prod.snd c (fixedDigits count value c)
  | 0, _, c => .ok (.refl c)
  | _ + 1, _, c => .bind (hexDigit_clears c) fun _ => fixedDigits_clears _ _ _

theorem bracedDigits_clears : ∀ (fuel value : Nat) (c : Cursor),
    Clears Prod.snd c (bracedDigits fuel value c)
  | 0, _, _ => .error
  | fuel + 1, value, c => by
    unfold bracedDigits
    split
    · rename_i hclose
      exact .ok (.startsWith hclose (by decide))
    · refine .bind (hexDigit_clears c) fun _ => ?_
      dsimp only
      split
      · exact .error
      · exact bracedDigits_clears fuel _ _

theorem escapeValue_clears (count : Nat) (c : Cursor) :
    Clears Prod.snd c (escapeValue count c) := by
  unfold escapeValue
  split
  · rename_i hopen
    refine .of_clear (.startsWith hopen (by decide)) ?_
    exact .bind (hexDigit_clears _) fun _ => bracedDigits_clears _ _ _
  · exact fixedDigits_clears count 0 c

theorem escapedChar_clears (c : Cursor) : Clears Prod.snd c (escapedChar c) := by
  have value : ∀ {ch : Char} {rest : List Char} (count : Nat), c.rest = ch :: rest → ch ≠ ':' →
      Clears Prod.snd c
        (escapeValue count (c.skip 1) >>= fun x => pure (charOfValue x.1, x.2)) := by
    intro ch rest count hrest hch
    refine .of_clear (.skip_one hrest hch) ?_
    exact .bind (escapeValue_clears count _) fun _ => .ok (.refl _)
  unfold escapedChar
  split
  · rename_i hrest
    exact value 4 hrest (by decide)
  · rename_i hrest
    exact value 2 hrest (by decide)
  · exact .error

variable {allowed : Char → Bool}

theorem nameEscape_clears {c : Cursor} {rest : List Char} (h : c.rest = '\\' :: rest) :
    Clears Prod.snd c (nameEscape allowed c) := by
  refine .of_clear (.skip_one h (by decide)) (.bind (escapedChar_clears _) fun _ => ?_)
  dsimp only
  split
  · exact .ok (.refl _)
  · exact .error

theorem nameChars_clears : ∀ (fuel : Nat) (read : List Char) (c : Cursor),
    Clears Prod.snd c (nameChars allowed fuel read c)
  | 0, _, c => .ok (.refl c)
  | fuel + 1, read, c => by
    unfold nameChars
    split
    · exact .ok (.refl c)
    · rename_i ch rest hrest
      split
      · rename_i hpart
        refine .of_clear (.advance hrest ?_) (nameChars_clears fuel _ _)
        rintro rfl
        revert hpart
        decide +kernel
      · split
        · rename_i hescape
          rw [eq_of_beq hescape] at hrest
          exact .bind (nameEscape_clears hrest) fun _ => nameChars_clears fuel _ _
        · exact .ok (.refl c)

theorem nameFrom_clears (start : Cursor) (read : List Char) (reserving : Bool) (c : Cursor) :
    Clears Prod.snd c (nameFrom start read reserving c) := by
  refine .bind (nameChars_clears _ read c) fun _ => ?_
  dsimp only
  split
  · split
    · exact .ok (.refl _)
    · exact .error
  · exact .ok (.refl _)

theorem unreservedName_clears {c : Cursor} {rest : List Char} (h : c.rest = '#' :: rest) :
    Clears Prod.snd c (unreservedName c) := by
  refine .of_clear (.skip_one h (by decide)) ?_
  unfold unreservedName
  dsimp only
  split
  · split
    · exact nameFrom_clears _ _ _ _
    · exact .error
  · exact .error

end Names

section Numerals

variable {isDigit : Char → Bool} {c : Cursor}

theorem digits_clears (hdigit : isDigit ':' = false) (c : Cursor) :
    Clears id c (digits isDigit c) := by
  have hplain : ∀ ch, isDigit ch = true → ch ≠ ':' := by
    rintro _ hch rfl
    rw [hdigit] at hch
    cases hch
  obtain ⟨run, rest, hrest, hlength, hrun⟩ := digitRun_forall (by decide) hplain c.rest
  unfold digits
  dsimp only
  split
  · rw [← hlength]
    exact .ok (.skip hrest fun hmem => hrun _ hmem rfl)
  · exact .error

theorem clear_next {p : Char → Bool} (h : nextIs p c = true) (hp : p ':' = false) :
    c.Clear (c.skip 1) := by
  obtain ⟨ch, rest, hrest, hch⟩ := nextIs_rest h
  refine .skip_one hrest ?_
  rintro rfl
  rw [hp] at hch
  cases hch

theorem radixLiteral_clears {radix : Nat} (hdigit : isDigit ':' = false)
    (h : c.Clear (c.skip 1)) : Clears Prod.snd c (radixLiteral radix isDigit c) := by
  refine .of_clear h ?_
  unfold radixLiteral
  dsimp only
  split
  · exact .error
  · exact .bind (digits_clears hdigit _) fun _ => .ok (.refl _)

theorem exponentPart_clears (c : Cursor) : Clears id c (exponentPart c) := by
  unfold exponentPart
  split
  · rename_i hnext
    refine .of_clear (clear_next hnext rfl) ?_
    dsimp only
    generalize hs : (if nextIs _ (c.skip 1) then (c.skip 1).skip 1 else c.skip 1) = signed
    have hsigned : (c.skip 1).Clear signed := by
      rw [← hs]
      split
      · exact clear_next (by assumption) rfl
      · exact .refl _
    refine .of_clear hsigned ?_
    split
    · exact digits_clears rfl _
    · exact .error
  · exact .ok (.refl c)

theorem fractionPart_clears (c : Cursor) : Clears id c (fractionPart c) := by
  unfold fractionPart
  split
  · rename_i hdot
    exact .of_clear (clear_next hdot rfl) (digits_clears rfl _)
  · exact .ok (.refl c)

theorem decimalFrom_clears (start c : Cursor) : Clears Prod.snd c (decimalFrom start c) :=
  .bind (fractionPart_clears c) fun _ => .bind (exponentPart_clears _) fun _ => .ok (.refl _)

theorem numberLiteral_clears {ch : Char} {rest : List Char} (hrest : c.rest = ch :: rest)
    (hch : CharClass.isDecimalDigit ch = true) : Clears Prod.snd c (numberLiteral c) := by
  have hskip : c.Clear (c.skip 1) := by
    refine .skip_one hrest ?_
    rintro rfl
    cases hch
  have decimal : Clears Prod.snd (c.skip 1)
      (digits CharClass.isDecimalDigit (c.skip 1) >>= decimalFrom c) :=
    .bind (digits_clears rfl _) fun _ => decimalFrom_clears _ _
  refine .of_clear hskip ?_
  unfold numberLiteral
  dsimp only
  split
  · split
    · rename_i hx
      exact radixLiteral_clears rfl (clear_next hx rfl)
    · split
      · rename_i hb
        exact radixLiteral_clears rfl (clear_next hb rfl)
      · split
        · exact .error
        · exact decimal
  · exact decimal

theorem fractionLiteral_clears {rest : List Char} (hrest : c.rest = '.' :: rest)
    (hnext : nextIs CharClass.isDecimalDigit (c.skip 1) = true) :
    Clears Prod.snd c (fractionLiteral c) := by
  have hskip : c.Clear (c.skip 2) := by
    have htwo : (c.skip 1).skip 1 = c.skip 2 := by simp [Cursor.skip]
    exact htwo ▸ (Clear.skip_one hrest (by decide)).trans (clear_next hnext rfl)
  exact .of_clear hskip (.bind (digits_clears rfl _) fun _ =>
    .bind (exponentPart_clears _) fun _ => .ok (.refl _))

end Numerals

section Lexemes

variable {c d : Cursor} {l : Lexeme}

/-- The colon is the only mark with a colon in it. -/
theorem spelled_colon : ∀ entry ∈ spelledChars,
    entry.2.kind = .colon ∧ entry.1 = [':'] ∨ entry.2.kind ≠ .colon ∧ ':' ∉ entry.1 := by
  decide +kernel

theorem punctuation?_colon (h : punctuation? c = some (l, d)) :
    l.kind = .colon ∧ ':' ∈ c.rest ∨ l.kind ≠ .colon ∧ c.Clear d := by
  unfold punctuation? at h
  obtain ⟨entry, hentry, he⟩ := Option.map_eq_some_iff.mp h
  cases he
  have hstarts : c.startsWith entry.1 = true := by simpa using List.find?_some hentry
  rcases spelled_colon entry (List.mem_of_find?_eq_some hentry) with ⟨hk, hcolon⟩ | ⟨hk, hn⟩
  · obtain ⟨rest, hrest⟩ := List.isPrefixOf_iff_prefix.mp hstarts
    exact Or.inl ⟨hk, by rw [← hrest, hcolon]; simp⟩
  · exact Or.inr ⟨hk, .startsWith hstarts hn⟩

/-- A lexeme other than a string is read from a colon, or passes none. -/
theorem lexeme_colon (h : lexeme c = .ok (l, d)) (hstring : l.kind ≠ .string) :
    l.kind = .colon ∧ ':' ∈ c.rest ∨ l.kind ≠ .colon ∧ c.Clear d := by
  have name : ∀ {x : Except Failure (Lexeme × Cursor)}, x = .ok (l, d) → Clears Prod.snd c x →
      l.kind = .identifier ∨ l.kind = .keyword →
      l.kind = .colon ∧ ':' ∈ c.rest ∨ l.kind ≠ .colon ∧ c.Clear d := by
    intro x hx hclears hkind
    exact Or.inr ⟨by rcases hkind with hk | hk <;> simp [hk], hclears _ hx⟩
  have number : ∀ {x : Except Failure (Lexeme × Cursor)}, x = .ok (l, d) → Clears Prod.snd c x →
      l.kind = .number → l.kind = .colon ∧ ':' ∈ c.rest ∨ l.kind ≠ .colon ∧ c.Clear d := by
    intro x hx hclears hkind
    exact Or.inr ⟨by simp [hkind], hclears _ hx⟩
  unfold lexeme at h
  split at h
  · cases h
    exact Or.inr ⟨nofun, .refl _⟩
  · rename_i ch rest hrest
    split at h
    · exact name h (nameFrom_clears _ _ _ _) (nameFrom_chars h).1
    · split at h
      · rename_i hdigit
        exact number h (numberLiteral_clears hrest hdigit) (numberLiteral_leads h).1
      · split at h
        · rename_i hmark
          cases h
          exact punctuation?_colon hmark
        · unfold otherLexeme at h
          split at h
          · rename_i hdot
            rw [eq_of_beq hdot] at hrest
            split at h
            · rename_i hnext
              exact number h (fractionLiteral_clears hrest hnext) (fractionLiteral_leads h).1
            · cases h
              exact Or.inr ⟨nofun, .skip_one hrest (by decide)⟩
          · split at h
            · exact absurd (stringLiteral_leads h).1 hstring
            · split at h
              · rename_i hhash
                rw [eq_of_beq hhash] at hrest
                exact name h (unreservedName_clears hrest) (unreservedName_leads h).1
              · split at h
                · rename_i hslash
                  rw [eq_of_beq hslash] at hrest
                  refine name h ?_ (escapedName_leads h).1
                  exact .bind (nameEscape_clears hrest) fun _ => nameFrom_clears _ _ _ _
                · cases h

end Lexemes

theorem triviaEnd_leads_failure {f : Failure} : ∀ {fuel : Nat} {c : Cursor},
    triviaEnd fuel c = .error f → c.Leads f.cursor
  | 0, _, h => by cases h
  | fuel + 1, c, h => by
    unfold triviaEnd at h
    cases hstep : triviaStep? c with
    | error failure =>
      rw [hstep] at h
      cases h
      obtain ⟨b, hb, hf, -⟩ := triviaStep?_covers hstep
      exact hb.leads.trans hf.leads
    | ok step =>
      rw [hstep] at h
      cases step with
      | none => cases h
      | some d => exact (triviaStep?_leads hstep).trans (triviaEnd_leads_failure h)

/-- Where a reading fails, it has not gone back. -/
theorem Covers.leads {α : Type} {place : α → Cursor} {c : Cursor} {f : Failure}
    (h : Covers place c (.error f)) : c.Leads f.cursor := by
  obtain ⟨b, hb, hf, -⟩ := h
  exact hb.leads.trans hf.leads

end Scan

namespace Scanner

open Scan Cursor

/-- No step of the scanner goes back, not even one that fails. -/
theorem next_leads (s : Scanner) : s.cursor.Leads s.next.2.cursor := by
  unfold next
  cases ht : trivia s.cursor with
  | error failure => exact triviaEnd_leads_failure ht
  | ok start =>
    dsimp only
    cases hl : lexeme start with
    | error failure => exact (trivia_leads ht).trans (hl ▸ lexeme_covers start).leads
    | ok reading => exact (trivia_leads ht).trans (lexeme_weight hl).2.2

theorem readRegularExpression_leads (s : Scanner) :
    s.cursor.Leads s.readRegularExpression.2.cursor := by
  unfold readRegularExpression
  cases hb : regularBody (s.cursor.rest.length + 1) s.cursor with
  | error failure => exact (hb ▸ regularBody_covers _ _).leads
  | ok body =>
    dsimp only
    cases hf : regularFlags body with
    | error failure =>
      exact (regularBody_leads hb).trans (hf ▸ regularFlags_covers body).leads
    | ok reading =>
      have hflags : body.Leads reading.2 := regularFlags_leads hf
      exact (regularBody_leads hb).trans hflags

end Scanner

/-- No colon has been left to read. -/
structure ParserState.Colonless (s : ParserState) : Prop where
  token : s.token.kind ≠ .colon
  rest : ':' ∉ s.scanner.cursor.rest

namespace ParserState.Colonless

variable {s t : ParserState}

theorem advance (h : s.Colonless) : s.advance.Colonless := by
  refine ⟨?_, fun hmem => h.rest (s.scanner.next_leads.subset hmem)⟩
  obtain ⟨start, l, stop, ht, hl, he⟩ | ⟨failure, token, htoken, he⟩ := s.scanner.next_cases
  · show s.scanner.next.2.token.kind ≠ .colon
    rw [he]
    intro hk
    have hstring : l.kind ≠ .string := by
      rw [show l.kind = .colon from hk]
      decide
    rcases Scan.lexeme_colon hl hstring with ⟨-, hmem⟩ | ⟨hne, -⟩
    · exact h.rest ((Scan.trivia_leads ht).subset hmem)
    · exact hne hk
  · show s.scanner.next.2.token.kind ≠ .colon
    rw [he]
    obtain rfl | ⟨start, rfl⟩ := htoken
    · exact h.token
    · exact h.token

theorem step (hs : s.Colonless) (h : Step s t) : t.Colonless := by
  cases h with
  | advance => exact hs.advance
  | advanceRegular =>
    refine ⟨?_, fun hmem => hs.rest (s.scanner.readRegularExpression_leads.subset hmem)⟩
    obtain ⟨body, flags, stop, hb, hf, he⟩ | ⟨failure, he⟩ := s.scanner.readRegularExpression_cases
    · show s.scanner.readRegularExpression.2.token.kind ≠ .colon
      rw [he]
      exact nofun
    · show s.scanner.readRegularExpression.2.token.kind ≠ .colon
      rw [he]
      exact hs.token
  | @split kind operator h =>
    refine ⟨?_, hs.rest⟩
    show kind ≠ .colon
    rintro rfl
    unfold Parse.afterGreater? at h
    split at h <;> cases h
  | collect p => exact ⟨hs.token, hs.rest⟩
  | use _ _ => exact ⟨hs.token, hs.rest⟩
  | superFound found => exact ⟨hs.token, hs.rest⟩
  | addIncluded child => exact ⟨hs.token, hs.rest⟩

/-- By induction on the reading. An included script is read with a scanner of its own. -/
theorem reach {stop : Option Stop} {k : Nat} (h : Reach stop k s t) (hs : s.Colonless) :
    t.Colonless := by
  induction h with
  | refl | problem _ | exhausted => exact hs
  | step h => exact hs.step h
  | trans _ _ ihst ihtu => exact ihtu (ihst hs)
  | function _ ih => exact ⟨(ih ⟨hs.token, hs.rest⟩).token, (ih ⟨hs.token, hs.rest⟩).rest⟩
  | abandoned _ ih => exact ih ⟨hs.token, hs.rest⟩
  | superRestored found _ ih => exact ⟨(ih hs).token, (ih hs).rest⟩
  | included _ _ => exact ⟨hs.token, hs.rest⟩
  | includedExhausted _ => exact ⟨hs.token, hs.rest⟩

end ParserState.Colonless

end ActionSyntax
