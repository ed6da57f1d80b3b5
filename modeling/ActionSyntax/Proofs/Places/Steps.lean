import ActionSyntax.Grammar.Primary
import ActionSyntax.Proofs.Reach
import ActionSyntax.Proofs.Places.Gaps

/-!
What a scanner knows about the part of its text that it has passed: where it stands, where the lines
begin, and where tokens, comments and problems are. Every step keeps that, also one that fails.
-/

namespace ActionSyntax

set_option autoImplicit false

open Utf8

namespace CommentForm

/-- A complete comment does not end in a carriage return whose line feed is behind it. -/
theorem Complete.whole {form : CommentForm} {content after : List Char}
    (h : form.Complete content after) : ¬ Lines.Splits (form.written content) after := by
  cases form with
  | line =>
    rintro ⟨hlast, -⟩
    have hslash : AllNarrow ['/', '/'] := by decide
    rcases List.mem_append.mp (List.mem_of_getLast? hlast) with hmem | hmem
    · exact absurd (hslash _ hmem).2 (by decide)
    · exact absurd (h.1 _ hmem) (by decide)
  | block =>
    have heq : written .block content = blockOpening ++ content ++ ['*'] ++ ['/'] := by
      simp [written, blockClosing]
    rw [heq]
    exact Lines.not_splits_of_last (by decide) _ _
  | markup =>
    have heq : written .markup content = markupOpening ++ content ++ ['-', '-'] ++ ['>'] := by
      simp [written, markupClosing]
    rw [heq]
    exact Lines.not_splits_of_last (by decide) _ _

end CommentForm

/-- Behind a beginning of the text that is not torn, the range of what follows is true. -/
theorem Lines.range_spanOf {before text after : List Char}
    (hbefore : ¬ Splits before (text ++ after)) (htext : ¬ Splits text after) :
    Range (before ++ text ++ after) (byteLength (before ++ text)) (spanOf before text) :=
  ⟨⟨before, text ++ after, by simp, hbefore, rfl, by simp [spanOf], rfl⟩,
    ⟨before ++ text, after, rfl, not_splits_append hbefore htext, rfl, Nat.le_refl _, rfl⟩⟩

/-- The noted comments of a gap are where they are said to be. -/
theorem Gap.range {before text after : List Char} {notes : List Comment}
    (h : Gap before text notes after) (hwhole : ¬ Lines.Splits before (text ++ after)) :
    ∀ note ∈ notes, Lines.Range (before ++ text ++ after) (byteLength (before ++ text)) note.span := by
  induction h with
  | nil => simp
  | @blank before rest after notes ch hblank _ ih =>
    have hlast : ch ≠ '\r' := by
      rintro rfl
      exact absurd hblank (by decide)
    simpa using ih (Lines.not_splits_of_last hlast _ _)
  | @newline before terminator rest after notes _ hends _ ih =>
    rw [List.append_assoc] at hwhole
    simpa using ih (Lines.not_splits_append hwhole hends)
  | @comment before rest after notes form content hcomplete _ ih =>
    rw [List.append_assoc] at hwhole
    have hrest := ih (Lines.not_splits_append hwhole hcomplete.whole)
    simp only [List.append_assoc] at hrest ⊢
    refine List.forall_mem_cons.mpr ⟨?_, hrest⟩
    have hspan := Lines.range_spanOf hwhole hcomplete.whole
    simp only [List.append_assoc] at hspan
    exact hspan.mono (by simp)

namespace Scan

/-- An operator is spelled in the text. -/
theorem lexeme_spelled {c d : Cursor} {l : Lexeme} (h : lexeme c = .ok (l, d))
    (hkind : l.kind = .operator ∨ l.kind = .compoundAssignment) :
    ∃ entry ∈ spelledChars, entry.2 = l ∧ c.rest = entry.1 ++ d.rest := by
  have name : ¬ (l.kind = .identifier ∨ l.kind = .keyword) := by
    rcases hkind with hk | hk <;> simp [hk]
  have other : ∀ {kind : TokenKind}, l.kind = kind → kind ≠ .operator →
      kind ≠ .compoundAssignment → False := by
    rintro _ rfl ho hc
    exact hkind.elim ho hc
  unfold lexeme at h
  split at h
  · cases h
    exact (other rfl (by decide) (by decide)).elim
  · rename_i ch rest hrest
    split at h
    · exact absurd (nameFrom_chars h).1 name
    · split at h
      · exact (other (numberLiteral_leads h).1 (by decide) (by decide)).elim
      · split at h
        · rename_i hmark
          cases h
          unfold punctuation? at hmark
          obtain ⟨entry, hfind, heq⟩ := Option.map_eq_some_iff.mp hmark
          cases heq
          refine ⟨entry, List.mem_of_find?_eq_some hfind, rfl, ?_⟩
          have hstart := List.find?_some hfind
          obtain ⟨more, hmore⟩ := List.isPrefixOf_iff_prefix.mp hstart
          simp [Cursor.skip, ← hmore]
        · unfold otherLexeme at h
          split at h
          · split at h
            · exact (other (fractionLiteral_leads h).1 (by decide) (by decide)).elim
            · cases h
              exact (other rfl (by decide) (by decide)).elim
          · split at h
            · exact (other (stringLiteral_leads h).1 (by decide) (by decide)).elim
            · split at h
              · exact absurd (unreservedName_leads h).1 name
              · split at h
                · exact absurd (escapedName_leads h).1 name
                · cases h

end Scan

/-- In the text that has been passed, an operator token begins with the spelling of its operator. -/
def Token.Spelled (before : List Char) (t : Token) : Prop :=
  t.operator ≠ none → t.kind = .operator ∨ t.kind = .compoundAssignment →
    ∃ entry ∈ Scan.spelledChars, entry.2.kind = t.kind ∧ entry.2.operator = t.operator ∧
      ∃ front back, before = front ++ entry.1 ++ back ∧ t.span.start = byteLength front

theorem Token.Spelled.append {before : List Char} {t : Token} (h : t.Spelled before)
    (more : List Char) : t.Spelled (before ++ more) := by
  intro ho hk
  obtain ⟨entry, hmem, hkind, hoperator, front, back, rfl, hstart⟩ := h ho hk
  exact ⟨entry, hmem, hkind, hoperator, front, back ++ more, by simp, hstart⟩

theorem Token.spelled_of_none {before : List Char} {t : Token} (h : t.operator = none) :
    t.Spelled before := fun ho => absurd h ho

namespace Scanner

/-- A scanner that has passed the given beginning of its text. -/
structure Scanned (before : List Char) (s : Scanner) : Prop where
  content : s.script.content = before ++ s.cursor.rest
  behind : s.cursor.Behind before
  linesTaken : s.cursor.passedLines = []
  commentsTaken : s.cursor.passedComments = []
  lineStarts : s.script.lineStarts.toList = Lines.starts before
  token : Lines.Range s.script.content (byteLength before) s.token.span
  spelled : s.token.Spelled before
  comments : ∀ c ∈ s.script.comments, Lines.Range s.script.content (byteLength before) c.span
  problems : ∀ p ∈ s.script.problems, Lines.Range s.script.content (byteLength before) p.span

namespace Scanned

variable {before text : List Char} {notes : List Comment} {s : Scanner} {c d : Cursor}

theorem ofSource (path source : String) :
    (Scanner.ofScript (Script.ofSource path source)).Scanned [] where
  content := rfl
  behind := .ofContent _
  linesTaken := rfl
  commentsTaken := rfl
  lineStarts := rfl
  token := ⟨⟨[], _, rfl, Lines.not_splits_nil _, rfl, Nat.le_refl _, rfl⟩,
    ⟨[], _, rfl, Lines.not_splits_nil _, rfl, Nat.le_refl _, rfl⟩⟩
  spelled := Token.spelled_of_none rfl
  comments := by simp [Scanner.ofScript, Script.ofSource]
  problems := by simp [Scanner.ofScript, Script.ofSource]

/-- A place that the scanner has passed, or stands at. -/
theorem at_of_behind {front back : List Char} (h : s.script.content = front ++ back)
    (hc : c.Behind front) (hrest : c.rest = back) :
    Lines.At s.script.content (byteLength front) c.line c.index :=
  ⟨front, back, h, hrest ▸ hc.whole, hc.index, Nat.le_of_eq hc.index, hc.line⟩

theorem withToken (h : s.Scanned before) {token : Token}
    (hspan : Lines.Range s.script.content (byteLength before) token.span)
    (hspelled : token.Spelled before) : ({ s with token } : Scanner).Scanned before :=
  { h with token := hspan, spelled := hspelled }

theorem collect (h : s.Scanned before) {p : Problem}
    (hspan : Lines.Range s.script.content (byteLength before) p.span) :
    ({ s with script := s.script.collect p } : Scanner).Scanned before where
  content := h.content
  behind := h.behind
  linesTaken := h.linesTaken
  commentsTaken := h.commentsTaken
  lineStarts := h.lineStarts
  token := h.token
  spelled := h.spelled
  comments := h.comments
  problems q hq := by
    rcases Array.mem_push.mp hq with hq | rfl
    · exact h.problems q hq
    · exact hspan

/-- The scanner moves on behind what the cursor has passed. -/
theorem moveTo (h : s.Scanned before) (hp : s.cursor.Passes text notes c)
    (hnotes : ∀ note ∈ notes,
      Lines.Range s.script.content (byteLength (before ++ text)) note.span) :
    (s.moveTo c).Scanned (before ++ text) := by
  have hle : byteLength before ≤ byteLength (before ++ text) := by simp
  refine
    { content := ?content
      behind := ?behind
      linesTaken := rfl
      commentsTaken := rfl
      lineStarts := ?lineStarts
      token := h.token.mono hle
      spelled := h.spelled.append text
      comments := ?comments
      problems := fun p hmem => (h.problems p hmem).mono hle }
  case content =>
    show s.script.content = before ++ text ++ c.rest
    rw [h.content, hp.rest, List.append_assoc]
  case behind =>
    have hbehind := h.behind.passes hp
    exact ⟨hbehind.index, hbehind.line, hbehind.whole⟩
  case lineStarts =>
    have hends := h.behind.ends_passes hp
    simp [Scanner.moveTo, hp.lines, h.linesTaken, h.lineStarts, Lines.starts, hends]
  case comments =>
    intro note hmem
    have hor : note ∈ s.script.comments ∨ note ∈ notes := by
      simp only [Scanner.moveTo, hp.noted, h.commentsTaken, List.append_nil,
        List.reverse_reverse] at hmem
      rwa [← Array.mem_toList_iff, Array.toList_appendList, List.mem_append,
        Array.mem_toList_iff] at hmem
    rcases hor with hmem | hmem
    · exact (h.comments note hmem).mono hle
    · show Lines.Range s.script.content _ _
      exact hnotes note hmem

theorem moveTo_onto (h : s.Scanned before) (hp : s.cursor.Passes text [] c) :
    (s.moveTo c).Scanned (before ++ text) := h.moveTo hp (by simp)

/-- A scanner that fails at a place it has passed records a problem there. -/
theorem stopAt (h : s.Scanned before) {f : Scan.Failure} (hp : s.cursor.Passes text notes f.cursor)
    (hnotes : ∀ note ∈ notes,
      Lines.Range s.script.content (byteLength (before ++ text)) note.span)
    (hspan : Lines.Range s.script.content (byteLength (before ++ text)) f.span) :
    (s.stopAt f).Scanned (before ++ text) :=
  (h.moveTo hp hnotes).collect hspan

/-- The range between two places that have been passed one behind the other. -/
theorem range_spanTo {first second : List Char} (h : s.script.content = before ++ first ++ d.rest)
    (hc : c.Behind before) (hp : c.Passes first notes d)
    (hle : byteLength (before ++ first) ≤ byteLength second) :
    Lines.Range s.script.content (byteLength second) (c.spanTo d) := by
  have hd := hc.passes hp
  refine ⟨(at_of_behind (s := s) ?_ hc rfl).mono ?_, (at_of_behind h hd rfl).mono hle⟩
  · rw [h, hp.rest, List.append_assoc]
  · rw [byteLength_append] at hle
    omega

/-- The cursor is a place, and the last one that has been passed. -/
theorem at_cursor (h : s.Scanned before) :
    Lines.At s.script.content (byteLength before) s.cursor.line s.cursor.index :=
  at_of_behind h.content h.behind rfl

end Scanned

/-- A step that reads a token: it passes a gap, and then the text of the token. -/
structure Takes (before gap : List Char) (notes : List Comment) (text : List Char)
    (s t : Scanner) : Prop where
  crossed : Gap before gap notes (text ++ t.cursor.rest)
  scanned : t.Scanned (before ++ gap ++ text)
  comments : t.script.comments.toList = s.script.comments.toList ++ notes
  span : t.token.span = Lines.spanOf (before ++ gap) text
  atEnd : t.token.kind = .endOfProgram ↔ text ++ t.cursor.rest = []
  nonempty : t.token.kind ≠ .endOfProgram → text ≠ []

section Steps

open Scan Cursor

variable {before : List Char} {s : Scanner}

theorem next_content (s : Scanner) : s.next.2.script.content = s.script.content := by
  obtain ⟨_, _, _, _, _, he⟩ | ⟨_, _, _, he⟩ := s.next_cases <;> rw [he] <;> rfl

theorem readRegularExpression_content (s : Scanner) :
    s.readRegularExpression.2.script.content = s.script.content := by
  obtain ⟨_, _, _, _, _, he⟩ | ⟨_, he⟩ := s.readRegularExpression_cases <;> rw [he] <;> rfl

/-- The notes of a gap are true of everything that has been passed behind it. -/
theorem notes_range {gap : List Char} {notes : List Comment} {start : Cursor}
    (h : s.Scanned before) (hgap : Gap before gap notes start.rest)
    (hp : s.cursor.Passes gap notes start) {limit : Nat}
    (hle : byteLength (before ++ gap) ≤ limit) :
    ∀ note ∈ notes, Lines.Range s.script.content limit note.span := by
  intro note hmem
  have hwhole : ¬ Lines.Splits before (gap ++ start.rest) := hp.rest ▸ h.behind.whole
  have hrange := hgap.range hwhole note hmem
  rw [List.append_assoc, ← hp.rest, ← h.content] at hrange
  exact hrange.mono hle

theorem next_takes (h : s.Scanned before) (hok : s.next.1 = .ok ()) :
    ∃ gap notes text, Takes before gap notes text s s.next.2 := by
  unfold next at hok ⊢
  have htrivia := triviaEnd_crosses (s.cursor.rest.length + 1) h.behind
  cases ht : trivia s.cursor with
  | error failure => rw [ht] at hok; cases hok
  | ok start =>
    rw [ht] at hok
    dsimp only at hok ⊢
    unfold trivia at ht
    rw [ht] at htrivia
    obtain ⟨gap, notes, hgap, hp⟩ := htrivia
    cases hl : lexeme start with
    | error failure => rw [hl] at hok; cases hok
    | ok reading =>
      obtain ⟨l, stop⟩ := reading
      obtain ⟨text, hq⟩ : start.Onto stop := by
        have hcovers := lexeme_covers start
        rwa [hl] at hcovers
      obtain ⟨hend, hweight, -⟩ := lexeme_weight hl
      have hstart := h.behind.passes hp
      have hmoved := h.moveTo (hp.trans hq)
        (by simpa using notes_range h hgap hp (by simp))
      rw [← List.append_assoc] at hmoved
      have hspan := hstart.spanTo hq
      have htoken : Lines.Range s.script.content (byteLength (before ++ gap ++ text))
          (start.spanTo stop) := by
        refine Scanned.range_spanTo (s := s) ?_ hstart hq (Nat.le_refl _)
        rw [h.content, hp.rest, hq.rest]
        simp
      refine ⟨gap, notes, text, hq.rest ▸ hgap, hmoved.withToken htoken ?spelled, ?comments, hspan,
        ?atEnd, ?nonempty⟩
      case spelled =>
        intro _ hkind
        obtain ⟨entry, hmem, heq, hrest⟩ := lexeme_spelled hl hkind
        have htext : text = entry.1 := List.append_cancel_right (hq.rest.symm.trans hrest)
        refine ⟨entry, hmem, by rw [heq], by rw [heq], before ++ gap, [], by simp [htext], ?_⟩
        exact hstart.index
      case comments =>
        have hpasses := hp.trans hq
        simp [Scanner.moveTo, hpasses.noted, h.commentsTaken]
      case atEnd =>
        show l.kind = .endOfProgram ↔ text ++ stop.rest = []
        rw [← hq.rest]
        constructor
        · intro hkind
          exact hend.resolve_right (fun hne => hne hkind)
        · intro hnil
          unfold lexeme at hl
          rw [hnil] at hl
          cases hl
          rfl
      case nonempty =>
        intro hkind htext
        have hpos := Lexeme.weight_pos (l := l) hkind
        rw [hq.rest, htext] at hweight
        simp at hweight
        omega

/-- A step that fails has passed a gap, and a part of what it could not read. -/
theorem next_scanned (h : s.Scanned before) : ∃ text, s.next.2.Scanned (before ++ text) := by
  cases hresult : s.next.1 with
  | ok u =>
    obtain ⟨gap, _, text, htakes⟩ := next_takes h hresult
    exact ⟨gap ++ text, by simpa using htakes.scanned⟩
  | error problem =>
    unfold next at hresult ⊢
    have htrivia := triviaEnd_crosses (s.cursor.rest.length + 1) h.behind
    cases ht : trivia s.cursor with
    | error failure =>
      unfold trivia at ht
      rw [ht] at htrivia
      obtain ⟨a, b, ⟨gap, notes, hgap, hp⟩, ⟨first, hq⟩, ⟨second, hr⟩, hspan⟩ := htrivia
      refine ⟨gap ++ (first ++ second), ?_⟩
      have hb := (h.behind.passes hp).passes hq
      have hstopped := h.stopAt (f := failure) (hp.trans (hq.trans hr))
        (by simpa using notes_range h hgap hp (by simp)) (by
        rw [hspan]
        refine Scanned.range_spanTo (s := s) ?_ hb hr (by simp)
        rw [h.content, hp.rest, hq.rest, hr.rest]
        simp)
      exact hstopped.withToken hstopped.token (Token.spelled_of_none rfl)
    | ok start =>
      rw [ht] at hresult
      dsimp only at hresult ⊢
      unfold trivia at ht
      rw [ht] at htrivia
      obtain ⟨gap, notes, hgap, hp⟩ := htrivia
      cases hl : lexeme start with
      | ok reading => rw [hl] at hresult; cases hresult
      | error failure =>
        have hcovers := lexeme_covers start
        rw [hl] at hcovers
        obtain ⟨b, ⟨first, hq⟩, ⟨second, hr⟩, hspan⟩ := hcovers
        refine ⟨gap ++ (first ++ second), ?_⟩
        have hstart := h.behind.passes hp
        have hb := hstart.passes hq
        have hstopped := h.stopAt (f := failure) (hp.trans (hq.trans hr))
          (by simpa using notes_range h hgap hp (by simp)) (by
          rw [hspan]
          refine Scanned.range_spanTo (s := s) ?_ hb hr (by simp)
          rw [h.content, hp.rest, hq.rest, hr.rest]
          simp)
        refine hstopped.withToken ⟨?_, hstopped.token.2⟩ (Token.spelled_of_none rfl)
        have hplace := Scanned.at_of_behind (s := s) (by rw [h.content, hp.rest, List.append_assoc])
          hstart rfl
        exact hplace.mono (by simp)

theorem readRegularExpression_scanned (h : s.Scanned before) :
    ∃ text, s.readRegularExpression.2.Scanned (before ++ text) := by
  have failed : ∀ {c : Cursor} {text : List Char} {failure : Failure},
      s.cursor.Passes text [] c → @Covers Cursor id c (.error failure) →
      ∃ text, (s.stopAt failure).Scanned (before ++ text) := by
    rintro c text failure hp ⟨b, ⟨first, hq⟩, ⟨second, hr⟩, hspan⟩
    have hb := h.behind.passes (hp.trans hq)
    refine ⟨text ++ first ++ second, h.stopAt ((hp.trans hq).trans hr) (by simp) ?_⟩
    rw [hspan]
    refine Scanned.range_spanTo (s := s) ?_ hb hr (by simp)
    rw [h.content, hp.rest, hq.rest, hr.rest]
    simp
  have hbody := regularBody_covers (s.cursor.rest.length + 1) s.cursor
  unfold readRegularExpression
  cases hb : regularBody (s.cursor.rest.length + 1) s.cursor with
  | error failure =>
    rw [hb] at hbody
    exact failed (.refl _) hbody
  | ok body =>
    rw [hb] at hbody
    obtain ⟨text, hp⟩ := hbody
    have hflags := regularFlags_covers body
    dsimp only
    cases hf : regularFlags body with
    | error failure =>
      rw [hf] at hflags
      exact failed hp hflags
    | ok reading =>
      rw [hf] at hflags
      obtain ⟨more, hq⟩ := hflags
      have hmoved := h.moveTo_onto (hp.trans hq)
      refine ⟨text ++ more, hmoved.withToken ⟨hmoved.token.1, ?_⟩ (Token.spelled_of_none rfl)⟩
      exact hmoved.at_cursor

end Steps

end Scanner

end ActionSyntax
