import ActionSyntax.Proofs.Places.Margins
import ActionSyntax.Proofs.Shadows.Passages

/-!
A piece of a text that ends at a mark, or with the text. While there is something left of the piece, both
scanners find the same tokens, and then the one of the piece is at its end and the other one at the mark.
Most pieces end at marks that close; a colon goes on with some constructs.
-/

namespace ActionSyntax

set_option autoImplicit false

open Utf8

/-- A piece of a text in front of a mark, or at the end of the text. -/
structure Fragment extends Passage where
  stopped : Stopped after
  /-- It matters how lines are laid out. -/
  minded : Prop

/-- A piece of a text in front of a mark that closes, or at the end of the text. -/
structure Excerpt extends Fragment where
  closing : after.head? ≠ some ':'

/-- What a mark says that a piece may end at. -/
def stopLexeme (mark : Char) : Lexeme where
  kind :=
    if mark = ';' then .semicolon
    else if mark = ',' then .comma
    else if mark = ']' then .rightBracket
    else if mark = ':' then .colon
    else .rightParen

theorem stopLexeme_isMark (mark : Char) : (stopLexeme mark).kind.isMark = true := by
  unfold stopLexeme
  dsimp only
  split
  · rfl
  split
  · rfl
  split
  · rfl
  split <;> rfl

theorem stopLexeme_closes {mark : Char} (h : mark ≠ ':') : (stopLexeme mark).kind.closes = true := by
  unfold stopLexeme
  dsimp only
  rw [if_neg h]
  split
  · rfl
  split
  · rfl
  split <;> rfl

theorem Scan.lexeme_stop {c : Cursor} {mark : Char} {rest : List Char} (hc : c.rest = mark :: rest)
    (hmark : mark ∈ stopMarks) : lexeme c = .ok (stopLexeme mark, c.skip 1) := by
  obtain ⟨_, index, line, lines, comments⟩ := c
  cases hc
  have hcases : mark = ';' ∨ mark = ')' ∨ mark = ',' ∨ mark = ']' ∨ mark = ':' := by
    simpa [stopMarks, closingMarks, or_comm, or_assoc, or_left_comm] using hmark
  obtain rfl | rfl | rfl | rfl | rfl := hcases <;> rfl

namespace Fragment

variable (x : Fragment)

/-- The piece does not begin with a blank, and by itself it is indented like the line on which it begins
in the whole. -/
structure Layered : Prop where
  minded : x.minded
  margin : x.lead = Lines.margin x.before
  piece : ∀ ch ∈ x.piece.head?, CharClass.isBlank ch = false
  apart : ¬ Lines.Splits x.before x.piece

/-- The scanner of the piece is at its end, that of the whole at the mark behind it. -/
structure Over (s t : Scanner) : Prop where
  passed : s.Passed x.own
  rest : s.cursor.rest = []
  lexeme : s.token.toLexeme = { kind := .endOfProgram }
  whole : t.script.content = x.whole
  beyond : ∃ mark rest, x.after = mark :: rest ∧ t.Passed (x.before ++ x.piece ++ [mark]) ∧
    t.token.toLexeme = stopLexeme mark
  line : t.token.span.firstLine = s.token.span.firstLine + x.lines
  line_pos : 1 ≤ s.token.span.firstLine

/-- The scanners have read the same tokens, as long as there are any. -/
def Meets (s t : Scanner) : Prop := x.Inside s t ∨ x.Over s t

variable {x} {s t : Scanner}

theorem parted (x : Fragment) : x.Parted where
  parted := Scan.Stopped.parted x.stopped
  apart := Scan.Stopped.apart x.stopped _
  head := by
    have hmarks : ∀ ch ∈ stopMarks, ch ≠ '>' ∧ ch ≠ '.' := by decide
    rcases x.stopped with hnil | ⟨mark, rest, hcons, hmark⟩
    · simp [hnil]
    · rw [hcons]
      rintro ch ⟨⟩
      exact hmarks mark hmark

section Next

open Scan

/-- Whatever token is read in the piece is read in the whole, and at the end of the piece the mark. -/
theorem next_meets (h : x.Aligned s t) (hok : s.next.1 = .ok ()) :
    (t.next.1 = .ok () ∧ x.Meets s.next.2 t.next.2) ∨
      ∀ u : ParserState, u.scanner = s.next.2 → x.Gone u := by
  by_cases hkind : s.next.2.token.kind = .endOfProgram
  · obtain ⟨⟨hpassed, hrest, hlexeme⟩, hwhole | hgone⟩ := h.next_end x.parted.toEdged hok hkind
    case inr => exact Or.inr hgone
    obtain ⟨u, hu, hcursor, -, -, hspan, hnext⟩ := hwhole
    have hleft : u.cursor.rest = x.after := by
      rw [hcursor, Cursor.amid_rest, hrest]
      rfl
    have htrivia : trivia u.cursor = .ok u.cursor := trivia_over (Stopped.opens x.stopped _ hleft)
    have hcontent : u.script.content = x.whole := by rw [hu.content, hleft, Passage.whole]
    have hbegins : byteLength x.lead ≤ s.next.2.token.span.start := by
      rw [hspan]
      show byteLength x.lead ≤ s.next.2.cursor.index
      rw [hpassed.behind.index, Passage.own, byteLength_append]
      omega
    have hline : 1 ≤ s.next.2.token.span.firstLine := by
      rw [hspan]
      show 1 ≤ s.next.2.cursor.line
      rw [hpassed.behind.line]
      omega
    refine Or.inl ?_
    rcases x.stopped with hafter | ⟨mark, rest, hafter, hmark⟩
    · -- Both texts end.
      have hread := hnext _ (Scanner.next_of_lexeme htrivia (Scanner.lexeme_nil (hleft.trans hafter)))
      have haligned : x.Aligned s.next.2 (u.moveTo u.cursor) := by
        have hmoved := hu.moveTo (.refl u.cursor)
        rw [List.append_nil] at hmoved
        refine ⟨⟨x.piece, hpassed, hmoved⟩, ?_, ?_⟩
        · rw [hpassed.content, hrest, List.append_nil]
        · rw [← hcursor]
          show ({ u.cursor with passedLines := [], passedComments := [] } : Cursor) = u.cursor
          rw [← hu.linesTaken, ← hu.commentsTaken]
      rw [hread]
      refine ⟨rfl, Or.inl ⟨haligned.withTokens _ _, ?_, hbegins, hline, fun _ => ⟨hrest, hafter⟩⟩⟩
      have htoken : s.next.2.token = { s.next.2.token.toLexeme with span := s.next.2.token.span } := rfl
      dsimp only
      rw [htoken, hlexeme, hspan, hcursor]
      rfl
    · have hmarked := hleft.trans hafter
      have hread := hnext _ (Scanner.next_of_lexeme htrivia (lexeme_stop hmarked hmark))
      have hskip : u.cursor.Passes [mark] [] (u.cursor.skip 1) := by
        apply Cursor.passes_skip hmarked
        intro ch hch
        rw [List.mem_singleton.mp hch]
        have hnarrow : AllNarrow stopMarks := by decide
        exact hnarrow mark hmark
      rw [hread]
      refine ⟨rfl, Or.inr ⟨hpassed, hrest, hlexeme, ?_, ⟨mark, rest, hafter, ?_, rfl⟩, ?_, hline⟩⟩
      · exact hcontent
      · exact (hu.moveTo hskip).withToken _
      · rw [hspan]
        show u.cursor.line = _
        rw [hcursor]
        rfl
  · obtain ⟨hok', hinside⟩ := h.next_token x.parted.toEdged (fun start _ => x.parted.clear start) hok hkind
    exact Or.inl ⟨hok', Or.inl hinside⟩

end Next

end Fragment

end ActionSyntax
