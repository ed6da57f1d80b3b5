import ActionSyntax.Proofs.Chains.Reading
import ActionSyntax.Proofs.Reads.Levels
import ActionSyntax.Proofs.Literals.Spellings
import ActionSyntax.Proofs.Pieces.Tokens
import ActionSyntax.Proofs.Places.Slices
import ActionSyntax.Proofs.Termination

/-!
Tokens and the text where they stand. As long as the scanner has not failed, the current token and the
previous one are spelled in the text at their places, also where a longer token has been split, and
between them stands nothing but blanks, line terminators and comments.
-/

namespace ActionSyntax

set_option autoImplicit false

open Utf8 Scan Cursor

/-- Tokens of the kind are spelled alike, wherever they stand. -/
def TokenKind.isPunctuator : TokenKind → Bool
  | .endOfProgram | .identifier | .string | .number | .regularExpression | .keyword | .operator
  | .compoundAssignment => false
  | _ => true

/-- The part of a text shows the lexeme, as far as the lexeme tells how it is spelled. -/
structure Lexeme.Shows (l : Lexeme) (part : List Char) : Prop where
  operator : l.kind = .operator → ∃ op, l.operator = some op ∧ part = op.symbol.toList
  compound : l.kind = .compoundAssignment →
    ∃ op, l.operator = some op ∧ part = (op.symbol ++ "=").toList
  punctuator : l.kind.isPunctuator = true → part = l.kind.description.toList
  name : l.kind = .identifier ∨ l.kind = .keyword → '#' ∉ part → '\\' ∉ part → part = l.text.toList

namespace Lexeme

variable {l : Lexeme} {part : List Char}

/-- The spelling of an operator or a mark. -/
def spelling? (l : Lexeme) : Option (List Char) :=
  match l.kind with
  | .operator => l.operator.map fun op => op.symbol.toList
  | .compoundAssignment => l.operator.map fun op => (op.symbol ++ "=").toList
  | kind => if kind.isPunctuator then some kind.description.toList else none

theorem Shows.of_spelling (h : l.spelling? = some part) : l.Shows part := by
  unfold spelling? at h
  split at h
  · rename_i hkind
    obtain ⟨op, hop, rfl⟩ := Option.map_eq_some_iff.mp h
    constructor <;> simp [hkind, hop, TokenKind.isPunctuator]
  · rename_i hkind
    obtain ⟨op, hop, rfl⟩ := Option.map_eq_some_iff.mp h
    constructor <;> simp [hkind, hop, TokenKind.isPunctuator]
  · rename_i hoperator hcompound
    split at h
    · rename_i hmark
      cases h
      refine ⟨fun hk => (hoperator hk).elim, fun hk => (hcompound hk).elim, fun _ => rfl, fun hk => ?_⟩
      rcases hk with hk | hk <;> simp [hk, TokenKind.isPunctuator] at hmark
    · cases h

/-- Literals and the end of the text may be spelled in any way. -/
theorem Shows.of_literal (h : l.kind = .endOfProgram ∨ l.kind = .string ∨ l.kind = .number ∨
    l.kind = .regularExpression) (part : List Char) : l.Shows part := by
  rcases h with h | h | h | h <;> constructor <;> simp [h, TokenKind.isPunctuator]

end Lexeme

namespace Scan

variable {c d : Cursor} {l : Lexeme}

theorem spelling_of_spelled : ∀ entry ∈ spelledChars, entry.2.spelling? = some entry.1 := by
  decide +kernel

/-- A name that is spelled without a hash or a backslash is spelled by its characters. -/
theorem NameBetween.shows {hash : Bool} {parts : List NamePart} (h : NameBetween hash parts c d)
    {e : Cursor} (hl : lexeme c = .ok (l, e)) : c.Passes (nameText hash parts) [] e ∧
      l.Shows (nameText hash parts) := by
  obtain ⟨rfl, htext, hspelled⟩ := h.lexeme_ok hl
  have hkind : l.kind = .identifier ∨ l.kind = .keyword := by
    cases hspelled with
    | reserved hkind => exact Or.inr hkind
    | plain hkind => exact Or.inl hkind
    | other hkind => exact Or.inl hkind
  refine ⟨h.passes, ?_, ?_, ?_, fun _ hhash hslash => ?_⟩
  · rcases hkind with hk | hk <;> simp [hk]
  · rcases hkind with hk | hk <;> simp [hk]
  · rcases hkind with hk | hk <;> simp [hk, TokenKind.isPunctuator]
  · cases hash with
    | true => exact (hhash List.mem_cons_self).elim
    | false =>
      rw [nameText_false] at hslash ⊢
      have hplain : ∀ part ∈ parts, part.isPlain = true := by
        intro part hmem
        cases part with
        | plain ch => rfl
        | escape p =>
          exact (hslash (List.mem_flatMap.mpr ⟨.escape p, hmem, List.mem_cons_self⟩)).elim
      rw [htext, String.toList_ofList, NamePart.texts_of_plain hplain]

/-- The text of a lexeme shows it. -/
theorem lexeme_shows (hl : lexeme c = .ok (l, d)) : ∃ part, c.Passes part [] d ∧ l.Shows part := by
  rcases nameBetween_or c with ⟨hash, parts, e, h⟩ | hnone
  · exact ⟨_, h.shows hl⟩
  obtain ⟨hidentifier, hkeyword⟩ := hnone.kind l d hl
  have hname : ¬ (l.kind = .identifier ∨ l.kind = .keyword) := fun h => h.elim hidentifier hkeyword
  obtain ⟨part, hp⟩ : c.Onto d := by
    have hcovers := lexeme_covers c
    rwa [hl] at hcovers
  refine ⟨part, hp, ?_⟩
  have literal : ∀ {kind : TokenKind}, l.kind = kind →
      (kind = .endOfProgram ∨ kind = .string ∨ kind = .number ∨ kind = .regularExpression) →
      l.Shows part := by
    rintro _ rfl h
    exact .of_literal h part
  unfold lexeme at hl
  split at hl
  · cases hl
    exact literal rfl (Or.inl rfl)
  rename_i ch rest hrest
  split at hl
  · exact (hname (nameFrom_chars hl).1).elim
  split at hl
  · exact literal (numberLiteral_leads hl).1 (by decide)
  split at hl
  · rename_i hmark
    cases hl
    unfold punctuation? at hmark
    obtain ⟨entry, hfind, heq⟩ := Option.map_eq_some_iff.mp hmark
    cases heq
    have hpart : part = entry.1 := by
      have hstarts := List.find?_some hfind
      obtain ⟨more, hmore⟩ := startsWith_iff.mp hstarts
      have hbehind : (c.skip entry.1.length).rest = more := by simp [Cursor.skip, ← hmore]
      have hwhole := hp.rest
      rw [hbehind, ← hmore] at hwhole
      exact (List.append_cancel_right hwhole).symm
    exact .of_spelling (hpart ▸ spelling_of_spelled entry (List.mem_of_find?_eq_some hfind))
  unfold otherLexeme at hl
  split at hl
  · rename_i hdot
    split at hl
    · exact literal (fractionLiteral_leads hl).1 (by decide)
    · cases hl
      refine .of_spelling ?_
      have hwhole := hp.rest
      rw [hrest, eq_of_beq hdot] at hwhole
      have hpart : part = ['.'] := by
        refine (List.append_cancel_right (?_ : ['.'] ++ rest = part ++ rest)).symm
        simpa [Cursor.skip, hrest] using hwhole
      rw [hpart]
      rfl
  split at hl
  · exact literal (stringLiteral_leads hl).1 (by decide)
  split at hl
  · exact (hname (unreservedName_leads hl).1).elim
  split at hl
  · exact (hname (escapedName_leads hl).1).elim
  · cases hl

end Scan

section Splitting

variable {t : Token} {part : List Char} {kind : TokenKind} {operator : Option Operator}

theorem Parse.firstGreater_shows (t : Token) : (firstGreater t).toLexeme.Shows ['>'] :=
  .of_spelling rfl

/-- A token that can be split shows a `>`, and behind it what is left of the token. -/
theorem Parse.afterGreater?_shows (h : afterGreater? t = some (kind, operator))
    (hshows : t.toLexeme.Shows part) :
    ∃ more, part = '>' :: more ∧ ({ t.toLexeme with kind, operator } : Lexeme).Shows more := by
  have sign : ∀ {op : Operator}, t.kind = .operator → t.operator = some op →
      part = op.symbol.toList := by
    intro op hkind hoperator
    obtain ⟨found, hfound, hpart⟩ := hshows.operator hkind
    rw [hoperator] at hfound
    exact Option.some.inj hfound ▸ hpart
  have compound : ∀ {op : Operator}, t.kind = .compoundAssignment → t.operator = some op →
      part = (op.symbol ++ "=").toList := by
    intro op hkind hoperator
    obtain ⟨found, hfound, hpart⟩ := hshows.compound hkind
    rw [hoperator] at hfound
    exact Option.some.inj hfound ▸ hpart
  unfold afterGreater? at h
  split at h
  · rename_i hkind hoperator
    cases h
    refine ⟨['='], sign hkind hoperator, .of_spelling ?_⟩
    simp [Lexeme.spelling?, TokenKind.isPunctuator, TokenKind.description]
  · rename_i hkind hoperator
    cases h
    exact ⟨['>'], sign hkind hoperator, .of_spelling rfl⟩
  · rename_i hkind hoperator
    cases h
    exact ⟨['>', '>'], sign hkind hoperator, .of_spelling rfl⟩
  · rename_i hkind hoperator
    cases h
    exact ⟨['>', '='], compound hkind hoperator, .of_spelling rfl⟩
  · rename_i hkind hoperator
    cases h
    exact ⟨['>', '>', '='], compound hkind hoperator, .of_spelling rfl⟩
  · cases h

end Splitting

/-- What stands in the text between the ends of the token shows it. -/
def Token.Depicted (content : List Char) (t : Token) : Prop :=
  ∃ part, slice? content t.span.start t.span.stop = some part ∧ t.toLexeme.Shows part

namespace ParserState

/-- Both tokens are shown by the text. The current one does not begin before the end of the previous one,
and nothing but a gap lies between them. -/
structure Depicted (s : ParserState) : Prop where
  token : s.token.Depicted s.script.content
  previous : s.previous.Depicted s.script.content
  order : s.previous.span.stop ≤ s.token.span.start
  between : ∃ before gap notes after, s.script.content = before ++ gap ++ after ∧
    s.previous.span.stop = byteLength before ∧ s.token.span.start = byteLength (before ++ gap) ∧
    Gap before gap notes after

/-- The text up to the place of the scanner: what ends with the previous token, a gap, and the current
token. -/
structure Laid (before gap part : List Char) (s : ParserState) : Prop where
  content : s.script.content = before ++ gap ++ part ++ s.scanner.cursor.rest
  behind : s.scanner.cursor.Behind (before ++ gap ++ part)
  previous : s.previous.Depicted s.script.content
  ends : s.previous.span.stop = byteLength before
  crossed : ∃ notes, Gap before gap notes (part ++ s.scanner.cursor.rest)
  start : s.token.span.start = byteLength (before ++ gap)
  stop : s.token.span.stop = byteLength (before ++ gap ++ part)
  shows : s.token.toLexeme.Shows part

namespace Laid

variable {before gap part : List Char} {s t : ParserState}

theorem initial (script : Script) : (ofScript script).Laid [] [] [] where
  content := rfl
  behind := .ofContent _
  previous := ⟨[], slice?_append [] [] script.content, .of_literal (Or.inl rfl) _⟩
  ends := rfl
  crossed := ⟨[], .nil _ _⟩
  start := rfl
  stop := rfl
  shows := .of_literal (Or.inl rfl) _

theorem token (h : s.Laid before gap part) : s.token.Depicted s.script.content := by
  refine ⟨part, ?_, h.shows⟩
  rw [h.start, h.stop, h.content, List.append_assoc (before ++ gap)]
  exact slice?_append _ _ _

theorem depicted (h : s.Laid before gap part) : s.Depicted where
  token := h.token
  previous := h.previous
  order := by
    rw [h.ends, h.start, byteLength_append]
    exact Nat.le_add_right _ _
  between := by
    obtain ⟨notes, hgap⟩ := h.crossed
    exact ⟨before, gap, notes, part ++ s.scanner.cursor.rest, by rw [h.content, List.append_assoc],
      h.ends, h.start, hgap⟩

theorem beside (h : s.Laid before gap part) (same : s.Beside t) : t.Laid before gap part := by
  obtain ⟨content, behind, previous, ends, crossed, start, stop, shows⟩ := h
  refine ⟨?_, ?_, ?_, ?_, ?_, ?_, ?_, ?_⟩
  · rwa [same.content, same.cursor]
  · rwa [same.cursor]
  · rwa [same.previous, same.content]
  · rwa [same.previous]
  · rwa [same.cursor]
  · rwa [same.token]
  · rwa [same.token]
  · rwa [same.token]

/-- What has been read last becomes a part of what lies behind. -/
theorem advance (h : s.Laid before gap part) (ok : s.scanner.next.1 = .ok ()) :
    ∃ space more, s.advance.Laid (before ++ gap ++ part) space more := by
  obtain ⟨start, l, stop, ht, hl, he⟩ | ⟨_, _, _, he⟩ := s.scanner.next_cases
  case inr => simp [he] at ok
  have htrivia := triviaEnd_crosses (s.scanner.cursor.rest.length + 1) h.behind
  unfold trivia at ht
  rw [ht] at htrivia
  obtain ⟨space, notes, hgap, hp⟩ := htrivia
  obtain ⟨more, hq, hshows⟩ := lexeme_shows hl
  have hstart := h.behind.passes hp
  have hstop := hstart.passes hq
  have hcontent : s.advance.script.content = s.script.content := s.scanner.next_content
  have hscanner : s.advance.scanner =
      { s.scanner.moveTo stop with token := { l with span := start.spanTo stop } } :=
    congrArg Prod.snd he
  have hcursor : s.advance.scanner.cursor.rest = stop.rest := by rw [hscanner]; rfl
  have htoken : s.advance.token = { l with span := start.spanTo stop } := by
    rw [ParserState.token, hscanner]
  refine ⟨space, more, ?_, ?_, ?_, h.stop, ⟨notes, ?_⟩, ?_, ?_, ?_⟩
  · rw [hcontent, h.content, hcursor, hp.rest, hq.rest]
    simp
  · rw [hscanner]
    exact ⟨hstop.index, hstop.line, hstop.whole⟩
  · rw [hcontent]
    exact h.token
  · rwa [hcursor, ← hq.rest]
  · rw [htoken]
    exact hstart.index
  · rw [htoken]
    exact hstop.index
  · rw [htoken]
    exact hshows

/-- A regular expression begins where its first token does, and ends further on. -/
theorem advanceRegular (h : s.Laid before gap part)
    (ok : s.scanner.readRegularExpression.1 = .ok ()) :
    ∃ more, s.advanceRegular.Laid before gap (part ++ more) := by
  obtain ⟨body, flags, stop, hb, hf, he⟩ | ⟨_, he⟩ := s.scanner.readRegularExpression_cases
  case inr => simp [he] at ok
  obtain ⟨text, hp⟩ : s.scanner.cursor.Onto body := by
    have hbody := regularBody_covers (s.scanner.cursor.rest.length + 1) s.scanner.cursor
    rwa [hb] at hbody
  obtain ⟨more, hq⟩ : body.Onto stop := by
    have hflags := regularFlags_covers body
    rwa [hf] at hflags
  have hpq := hp.trans hq
  have hmoved := h.behind.passes hpq
  have hcontent : s.advanceRegular.script.content = s.script.content :=
    s.scanner.readRegularExpression_content
  have hscanner := congrArg Prod.snd he
  have hcursor : s.advanceRegular.scanner.cursor.rest = stop.rest := by
    rw [ParserState.advanceRegular, hscanner]
    rfl
  obtain ⟨notes, hgap⟩ := h.crossed
  rw [List.append_assoc] at hmoved
  refine ⟨text ++ more, ?_, ?_, ?_, h.ends, ⟨notes, ?_⟩, ?_, ?_, ?_⟩
  · rw [hcontent, h.content, hcursor, hpq.rest]
    simp
  · rw [ParserState.advanceRegular, hscanner]
    exact ⟨hmoved.index, hmoved.line, hmoved.whole⟩
  · rw [hcontent]
    exact h.previous
  · rwa [hcursor, List.append_assoc, ← hpq.rest]
  · rw [ParserState.token, ParserState.advanceRegular, hscanner]
    exact h.start
  · rw [ParserState.token, ParserState.advanceRegular, hscanner]
    exact hmoved.index
  · rw [ParserState.token, ParserState.advanceRegular, hscanner]
    exact .of_literal (by simp) _

/-- A `>` that is taken away becomes the previous token, with nothing behind it. -/
theorem split {kind : TokenKind} {operator : Option Operator} (h : s.Laid before gap part)
    (greater : Parse.afterGreater? s.token = some (kind, operator)) :
    ∃ more, (s.split kind operator).Laid (before ++ gap ++ ['>']) [] more := by
  obtain ⟨more, rfl, hshows⟩ := Parse.afterGreater?_shows greater h.shows
  have hwidth : byteLength (before ++ gap ++ ['>']) = byteLength (before ++ gap) + 1 := by
    rw [byteLength_append _ ['>']]
    rfl
  have hsame : before ++ gap ++ '>' :: more = before ++ gap ++ ['>'] ++ [] ++ more := by simp
  refine ⟨more, ?_, hsame ▸ h.behind, ⟨['>'], ?_, Parse.firstGreater_shows _⟩, ?_, ⟨[], .nil _ _⟩, ?_,
    ?_, hshows⟩
  · show s.script.content = _
    rw [h.content, hsame]
    rfl
  · show slice? s.script.content s.token.span.start (s.token.span.start + 1) = _
    rw [h.content, h.start, ← hwidth, hsame, List.append_nil, List.append_assoc, List.append_assoc]
    exact slice?_append _ _ _
  · show s.token.span.start + 1 = _
    rw [h.start, hwidth]
  · show s.token.span.start + 1 = _
    rw [h.start, List.append_nil, hwidth]
  · exact hsame ▸ h.stop

end Laid

end ParserState

/-- The states that a parser comes to as long as its scanner does not fail. A script that is included is
read from its beginning on. -/
inductive Course : ParserState → ParserState → Prop
  | refl (s : ParserState) : Course s s
  | advance {s t : ParserState} (h : Course s t) (ok : t.scanner.next.1 = .ok ()) :
      Course s t.advance
  | regular {s t : ParserState} (h : Course s t)
      (ok : t.scanner.readRegularExpression.1 = .ok ()) : Course s t.advanceRegular
  | split {s t : ParserState} {kind : TokenKind} {operator : Option Operator} (h : Course s t)
      (greater : Parse.afterGreater? t.token = some (kind, operator)) :
      Course s (t.split kind operator)
  | beside {s t u : ParserState} (h : Course s t) (same : t.Beside u) : Course s u
  | inside {s t : ParserState} (h : Course s t) (script : Script) : Course s (t.inside script)

/-- A step of the scanner from the state fails with the problem. -/
def ParserState.Fails (s : ParserState) (p : Problem) : Prop :=
  s.scanner.next.1 = .error p ∨ s.scanner.readRegularExpression.1 = .error p

/-- The scanner has not failed on the way to the state, or the problem with which it failed is
recorded there. -/
def Course.Lasts (s t : ParserState) : Prop :=
  Course s t ∨ ∃ u p, Course s u ∧ u.Fails p ∧ p ∈ t.script.problems

namespace Course

variable {s t u : ParserState}

theorem trans (hst : Course s t) (htu : Course t u) : Course s u := by
  induction htu with
  | refl => exact hst
  | advance _ ok ih => exact ih.advance ok
  | regular _ ok ih => exact ih.regular ok
  | split _ greater ih => exact ih.split greater
  | beside _ same ih => exact ih.beside same
  | inside _ script ih => exact ih.inside script

theorem laid (h : Course s t) (hs : ∃ before gap part, s.Laid before gap part) :
    ∃ before gap part, t.Laid before gap part := by
  induction h with
  | refl => exact hs
  | advance _ ok ih =>
    obtain ⟨_, _, _, ht⟩ := ih
    exact ⟨_, ht.advance ok⟩
  | regular _ ok ih =>
    obtain ⟨_, _, _, ht⟩ := ih
    obtain ⟨more, hmore⟩ := ht.advanceRegular ok
    exact ⟨_, _, _, hmore⟩
  | split _ greater ih =>
    obtain ⟨_, _, _, ht⟩ := ih
    obtain ⟨more, hmore⟩ := ht.split greater
    exact ⟨_, _, _, hmore⟩
  | beside _ same ih =>
    obtain ⟨_, _, _, ht⟩ := ih
    exact ⟨_, _, _, ht.beside same⟩
  | inside _ script =>
    exact ⟨_, _, _, (ParserState.Laid.initial script).beside ⟨rfl, rfl, rfl, rfl, rfl⟩⟩

theorem Lasts.trans (hst : Lasts s t) (htu : Lasts t u) (hgrows : t.script.Grows u.script) :
    Lasts s u := by
  rcases hst with hst | ⟨v, p, hv, hfails, hp⟩
  · rcases htu with htu | ⟨v, p, hv, hfails, hp⟩
    · exact Or.inl (hst.trans htu)
    · exact Or.inr ⟨v, p, hst.trans hv, hfails, hp⟩
  · exact Or.inr ⟨v, p, hv, hfails, hgrows.mem hp⟩

/-- A state at the same place of the same script, with the same problems, is as good. -/
theorem Lasts.congr {s' t' : ParserState} (h : Lasts s t) (hs : s'.Beside s) (ht : t.Beside t')
    (hproblems : t'.script.problems = t.script.problems) : Lasts s' t' := by
  have hbegin : Course s' s := (Course.refl s').beside hs
  rcases h with h | ⟨u, p, hu, hfails, hp⟩
  · exact Or.inl ((hbegin.trans h).beside ht)
  · exact Or.inr ⟨u, p, hbegin.trans hu, hfails, hproblems ▸ hp⟩

/-- What the scanner stops at is recorded. -/
theorem stopAt_recorded {c : Scanner} {f : Failure} : f.problem ∈ (c.stopAt f).script.problems :=
  Array.mem_push_self

theorem advance_lasts (s : ParserState) : Lasts s s.advance := by
  obtain ⟨_, _, _, _, _, he⟩ | ⟨failure, token, _, he⟩ := s.scanner.next_cases
  · exact Or.inl ((refl s).advance (congrArg Prod.fst he))
  · refine Or.inr ⟨s, failure.problem, refl s, Or.inl (congrArg Prod.fst he), ?_⟩
    show failure.problem ∈ s.scanner.next.2.script.problems
    rw [he]
    exact stopAt_recorded

theorem advanceRegular_lasts (s : ParserState) : Lasts s s.advanceRegular := by
  obtain ⟨_, _, _, _, _, he⟩ | ⟨failure, he⟩ := s.scanner.readRegularExpression_cases
  · exact Or.inl ((refl s).regular (congrArg Prod.fst he))
  · refine Or.inr ⟨s, failure.problem, refl s, Or.inr (congrArg Prod.fst he), ?_⟩
    show failure.problem ∈ s.scanner.readRegularExpression.2.script.problems
    rw [he]
    exact stopAt_recorded

theorem of_step (h : Step s t) : Lasts s t := by
  cases h with
  | advance => exact advance_lasts s
  | advanceRegular => exact advanceRegular_lasts s
  | split greater => exact Or.inl ((refl s).split greater)
  | collect | use | superFound | addIncluded =>
    exact Or.inl ((refl s).beside ⟨rfl, rfl, rfl, rfl, rfl⟩)

/-- However a reading goes on and ends, its states are such. -/
theorem of_reach {stop : Option Stop} {k : Nat} (h : Reach stop k s t) : Lasts s t := by
  have same : ∀ {a b : ParserState}, a.scanner = b.scanner → a.previous = b.previous →
      a.Beside b := by
    intro a b hscanner hprevious
    refine ⟨?_, hprevious.symm, ?_, ?_, ?_⟩
    · rw [ParserState.token, ParserState.token, hscanner]
    · rw [hscanner]
    · rw [ParserState.script, ParserState.script, hscanner]
    · rw [ParserState.script, ParserState.script, hscanner]
  induction h with
  | refl s | problem | exhausted => exact Or.inl (.refl _)
  | step h => exact of_step h
  | trans _ htu ihst ihtu => exact ihst.trans ihtu htu.grows
  | function _ ih | abandoned _ ih => exact ih.congr (same rfl rfl) (same rfl rfl) rfl
  | superRestored _ _ ih => exact ih.congr (.refl _) (same rfl rfl) rfl
  | included | includedExhausted =>
    exact Or.inl ((refl _).beside ⟨rfl, rfl, rfl, rfl, rfl⟩)

end Course

namespace Parser

variable {p : Parser}

theorem calls_last : ∀ (entries : List Entry) (p : Parser),
    Course.Lasts p.state (p.calls entries).state ∧ p.script.Grows (p.calls entries).script
  | [], p => ⟨Or.inl (.refl _), .refl _⟩
  | entry :: entries, p => by
    obtain ⟨stop, k, hreach⟩ := call_reaches p entry
    obtain ⟨hlasts, hgrows⟩ := calls_last entries (p.call entry).2
    exact ⟨(Course.of_reach hreach).trans hlasts hgrows, hreach.grows.trans hgrows⟩

end Parser

/-- In every state that a parser of a script comes to before the scanner fails, and in every script that
it includes on the way, the text shows both tokens at their places, and nothing but a gap lies between
them. Wherever a reading ends, and wherever calls of entry points end, the parser is in such a state,
or the problem with which the scanner failed is recorded. -/
theorem tokens_depicted (host : Host) (script : Script) :
    (∀ s, Course (ParserState.ofScript script) s → s.Depicted) ∧
    (∀ s stop t, Course (ParserState.ofScript script) s → Reaches stop s t →
      Course.Lasts (ParserState.ofScript script) t) ∧
    ∀ entries, Course.Lasts (ParserState.ofScript script)
      ((Parser.ofScript host script).calls entries).state := by
  refine ⟨fun s h => ?_, fun s stop t hs ⟨k, hreach⟩ => ?_, fun entries => ?_⟩
  · obtain ⟨before, gap, part, hlaid⟩ := h.laid ⟨_, _, _, .initial script⟩
    exact hlaid.depicted
  · exact Course.Lasts.trans (Or.inl hs) (Course.of_reach hreach) hreach.grows
  · have hfirst := Parser.ofScript_state host script
    obtain ⟨hlasts, hgrows⟩ := Parser.calls_last entries (Parser.ofScript host script)
    refine Course.Lasts.trans (t := (Parser.ofScript host script).state) ?_ hlasts hgrows
    rw [hfirst]
    exact Course.advance_lasts _

/-- Behind a name, a comment and a blank, a token of three signs has been split twice. -/
def splitTwice : ParserState :=
  let start := ParserState.ofScript (Script.ofSource "main.es" "a/*b*/ >>= c")
  (start.advance.advance.split .operator (some .greaterOrEqual)).split .assign none

theorem tokens_depicted_splitTwice :
    splitTwice.previous.span = ⟨1, 1, 8, 9⟩ ∧ splitTwice.token.span = ⟨1, 1, 9, 10⟩ ∧
      splitTwice.Depicted ∧
      Course.Lasts (ParserState.ofScript (Script.ofSource "main.es" "a/*b*/ >>= c")) splitTwice := by
  have hread : Course (ParserState.ofScript (Script.ofSource "main.es" "a/*b*/ >>= c"))
      (ParserState.ofScript (Script.ofSource "main.es" "a/*b*/ >>= c")).advance.advance :=
    .advance (.advance (.refl _) (by decide +kernel)) (by decide +kernel)
  have hsplit : Course (ParserState.ofScript (Script.ofSource "main.es" "a/*b*/ >>= c")) splitTwice :=
    .split (.split hread (by decide +kernel)) (by decide +kernel)
  obtain ⟨hdepicted, hlasts, -⟩ :=
    tokens_depicted (Host.ofFiles []) (Script.ofSource "main.es" "a/*b*/ >>= c")
  exact ⟨by decide +kernel, by decide +kernel, hdepicted _ hsplit, hlasts _ none _ hsplit (.refl _)⟩

end ActionSyntax
