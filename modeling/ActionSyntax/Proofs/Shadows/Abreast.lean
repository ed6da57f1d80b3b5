import ActionSyntax.Proofs.Shadows.Excerpts

/-!
Two parsers abreast: one reads a piece of text by itself, the other one reads it within a whole text.
They stand at the same token, or the first one at the end of the piece and the second one at the mark
behind it. If by itself the piece is indented like the line on which it begins in the whole, its lines are
indented alike in both.
-/

namespace ActionSyntax

set_option autoImplicit false

open Utf8

/-- Nothing has changed but what is known of problems. The script is as valid as before, unless a problem
has been found. -/
def ParserState.Reported (clean : Bool) (s t : ParserState) : Prop :=
  ∃ script : Script, t = { s with scanner := { s.scanner with script } } ∧
    script.path = s.script.path ∧ script.content = s.script.content ∧
    script.lineStarts = s.script.lineStarts ∧ script.comments = s.script.comments ∧
    script.valid = (s.script.valid && clean)

namespace ParserState.Reported

variable {s t u : ParserState} {clean clean' : Bool}

theorem refl (s : ParserState) : s.Reported true s := ⟨s.script, rfl, rfl, rfl, rfl, rfl, by simp⟩

theorem collect (s : ParserState) {p : Problem} (hp : p.isWarning = false) :
    s.Reported false (s.collect p) :=
  ⟨s.script.collect p, rfl, rfl, rfl, rfl, rfl, by simp [Script.collect, hp]⟩

theorem trans (hst : s.Reported clean t) (htu : t.Reported clean' u) :
    s.Reported (clean && clean') u := by
  obtain ⟨first, rfl, hpath, hcontent, hlines, hcomments, hvalid⟩ := hst
  obtain ⟨second, rfl, hpath', hcontent', hlines', hcomments', hvalid'⟩ := htu
  refine ⟨second, rfl, hpath'.trans hpath, hcontent'.trans hcontent, hlines'.trans hlines,
    hcomments'.trans hcomments, ?_⟩
  rw [hvalid', show ParserState.script _ = first from rfl, hvalid, Bool.and_assoc]

theorem ended (h : s.Reported clean t) (hs : s.Ended) : s.Rests t := by
  obtain ⟨script, rfl, -, -, -, hcomments, -⟩ := h
  exact ⟨⟨hs.kind, hs.rest, hs.notes⟩, hcomments⟩

end ParserState.Reported

namespace Fragment

variable {x : Fragment} {s t : Scanner}

section Layout

/-- What has been read of the piece and stands behind it is apart from what stands in front of it. -/
theorem not_splits_before (hl : x.Layered) {read rest more : List Char} (hpiece : x.piece = read ++ rest)
    (hmore : ∀ ch ∈ more, CharClass.isLineTerminator ch = false) :
    ¬ Lines.Splits x.before (read ++ more) := by
  rintro ⟨hlast, hhead⟩
  cases read with
  | nil => exact absurd (hmore _ (List.mem_of_mem_head? hhead)) (by decide)
  | cons ch read =>
    cases hhead
    exact hl.apart ⟨hlast, by rw [hpiece]; rfl⟩

/-- Where lines begin in the whole: the one on which the piece begins behind the lines that have ended
before, others as much later as the piece begins. -/
theorem lineStart_cases (hl : x.Layered) {read rest more : List Char} (hs : s.Passed (x.lead ++ read))
    (ht : t.Passed (x.before ++ read ++ more)) (hpiece : x.piece = read ++ rest)
    (hmore : ∀ ch ∈ more, CharClass.isLineTerminator ch = false) (n : Nat) :
    (s.script.lineStart (n + 1) = 0 ∧
        t.script.lineStart (n + 1 + x.lines) = byteLength (Lines.endedLines x.before)) ∨
      ∃ start ∈ Lines.ends (byteLength x.lead) read,
        s.script.lineStart (n + 1) = start ∧ t.script.lineStart (n + 1 + x.lines) = start + x.offset := by
  have hfeed : ¬ Lines.Splits read more := by
    rintro ⟨-, hhead⟩
    exact absurd (hmore _ (List.mem_of_mem_head? hhead)) (by decide)
  have hlead : ¬ Lines.Splits x.lead read := by
    rintro ⟨hlast, -⟩
    exact absurd (x.lead_plain _ (List.mem_of_getLast? hlast)) (by decide)
  generalize hends : Lines.ends (byteLength x.lead) read = ends
  have hown : Lines.starts (x.lead ++ read) = 0 :: ends := by
    rw [Lines.starts, Lines.ends_append hlead, Lines.ends_of_forall_not x.lead_plain, Nat.zero_add, hends]
    rfl
  have hwhole : Lines.starts (x.before ++ read ++ more) =
      Lines.starts x.before ++ ends.map (· + x.offset) := by
    have hoffset : byteLength x.before = byteLength x.lead + x.offset :=
      (Nat.add_sub_cancel' x.lead_le).symm
    rw [Lines.starts, List.append_assoc, Lines.ends_append (not_splits_before hl hpiece hmore),
      Lines.ends_append hfeed, Lines.ends_of_forall_not hmore, List.append_nil, Nat.zero_add, hoffset,
      Lines.ends_add, hends]
    rfl
  have hlength : (Lines.starts x.before).length = x.lines + 1 := rfl
  have hlast : (Lines.starts x.before)[x.lines]? = some (byteLength (Lines.endedLines x.before)) := by
    rw [← Lines.starts_getLast?, List.getLast?_eq_getElem?, hlength, Nat.add_sub_cancel]
  rw [show n + 1 + x.lines = n + x.lines + 1 by omega, hs.lineStart_succ, ht.lineStart_succ, hown, hwhole]
  have known : ∀ {start : Nat}, start ∈ ends → ∃ p ∈ ends, start = p ∧
      start + x.offset = p + x.offset := fun hmem => ⟨_, hmem, rfl, rfl⟩
  cases n with
  | zero =>
    rw [Nat.zero_add, List.getElem?_append_left (by omega), hlast]
    exact Or.inl ⟨rfl, rfl⟩
  | succ n =>
    rw [List.getElem?_cons_succ, List.getElem?_append_right (by omega),
      show n + 1 + x.lines - (Lines.starts x.before).length = n by omega, List.getElem?_map]
    cases hstart : ends[n]? with
    | some start => exact Or.inr (known (List.mem_of_getElem? hstart))
    | none =>
      cases hfinal : ends.getLast? with
      | none =>
        rw [List.getLast?_eq_none_iff] at hfinal
        subst hfinal
        rw [List.map_nil, List.append_nil, Lines.starts_getLast?]
        exact Or.inl ⟨rfl, rfl⟩
      | some start =>
        have hfinal' : (ends.map (· + x.offset)).getLast? = some (start + x.offset) := by
          rw [List.getLast?_map, hfinal]
          rfl
        rw [List.getLast?_append, hfinal', List.getLast?_cons, hfinal]
        exact Or.inr (known (List.mem_of_getLast? hfinal))

/-- What follows the piece is no blank. -/
theorem takeWhile_blank_after (text : List Char) :
    (text ++ x.after).takeWhile CharClass.isBlank = text.takeWhile CharClass.isBlank := by
  have hafter : x.after.takeWhile CharClass.isBlank = [] := by
    rcases x.stopped with hnil | ⟨mark, rest, hcons, hmark⟩
    · rw [hnil]
      rfl
    · have hnone : ∀ mark ∈ stopMarks, CharClass.isBlank mark = false := by decide
      rw [hcons, List.takeWhile_cons_of_neg (by simp [hnone mark hmark])]
  rw [List.takeWhile_append, hafter, List.append_nil]
  split
  · rename_i hall
    exact ((List.takeWhile_prefix _).eq_of_length hall).symm
  · rfl

/-- Blanks in front of the piece are all the blanks there. -/
theorem takeWhile_blank_piece (hl : x.Layered) {blanks : List Char}
    (hblanks : ∀ ch ∈ blanks, CharClass.isBlank ch = true) :
    (blanks ++ x.piece).takeWhile CharClass.isBlank = blanks := by
  have hpiece : x.piece.takeWhile CharClass.isBlank = [] := by
    cases hhead : x.piece with
    | nil => rfl
    | cons ch text =>
      rw [List.takeWhile_cons_of_neg (by simp [hl.piece ch (by rw [hhead]; rfl)])]
  rw [List.takeWhile_append_of_pos hblanks, hpiece, List.append_nil]

/-- The line on which the piece begins is indented by the lead. -/
theorem takeWhile_blank_lastLine (hl : x.Layered) :
    (Lines.lastLine x.before ++ x.piece).takeWhile CharClass.isBlank = x.lead := by
  have hmargin : (Lines.lastLine x.before).takeWhile CharClass.isBlank = x.lead := hl.margin.symm
  by_cases hall : ∀ ch ∈ Lines.lastLine x.before, CharClass.isBlank ch = true
  · rw [takeWhile_blank_piece hl hall, ← hmargin]
    exact (List.takeWhile_eq_self_iff.mpr hall).symm
  · rw [List.takeWhile_append, if_neg, hmargin]
    intro hlength
    exact hall (List.takeWhile_eq_self_iff.mp ((List.takeWhile_prefix _).eq_of_length hlength))

/-- Lines are indented alike. -/
theorem lineIndent_eq (hl : x.Layered) {read rest more : List Char} (hs : s.Passed (x.lead ++ read))
    (ht : t.Passed (x.before ++ read ++ more)) (hrest : x.piece = read ++ rest)
    (hown : s.script.content = x.own) (hwhole : t.script.content = x.whole)
    (hmore : ∀ ch ∈ more, CharClass.isLineTerminator ch = false) {line : Nat} (hline : 1 ≤ line) :
    s.script.lineIndent line = t.script.lineIndent (line + x.lines) := by
  obtain ⟨n, rfl⟩ : ∃ n, line = n + 1 := ⟨line - 1, by omega⟩
  unfold Script.lineIndent
  rcases lineStart_cases hl hs ht hrest hmore n with ⟨hfirst, hfirst'⟩ | ⟨start, hmem, hstart, hstart'⟩
  · have hbegins : x.whole = Lines.endedLines x.before ++ (Lines.lastLine x.before ++ x.piece ++ x.after) := by
      rw [List.append_assoc, ← List.append_assoc, Lines.endedLines_append, Passage.whole,
        List.append_assoc]
    have hblanks : ∀ ch ∈ x.lead, CharClass.isBlank ch = true := by
      rw [hl.margin]
      exact Lines.margin_blank _
    rw [hfirst, hfirst', hown, hwhole, hbegins, dropBytes?_zero, dropBytes?_append]
    dsimp only
    rw [takeWhile_blank_after, takeWhile_blank_lastLine hl, Passage.own, takeWhile_blank_piece hl hblanks]
  · obtain ⟨inner, rfl⟩ : ∃ inner, start = byteLength x.lead + inner :=
      ⟨start - byteLength x.lead, by have := Lines.lt_of_mem_ends hmem; omega⟩
    have hle : inner ≤ byteLength x.piece := by
      have hread := Lines.le_of_mem_ends hmem
      rw [hrest, byteLength_append]
      omega
    have hoffset : byteLength x.lead + inner + x.offset = byteLength x.before + inner := by
      have := x.lead_le
      unfold Passage.offset
      omega
    rw [hstart, hstart', hoffset, hown, hwhole, Passage.whole, Passage.own, List.append_assoc x.before,
      dropBytes?_add, dropBytes?_add, dropBytes?_append_of_le hle]
    cases dropBytes? x.piece inner with
    | none => rfl
    | some rest =>
      dsimp only [Option.map_some]
      rw [takeWhile_blank_after]

end Layout

/-- Two parsers abreast. What each of them finds of the validity of its script may be no news to it. -/
structure Near (x : Fragment) (own other : Bool) (s t : ParserState) : Prop where
  meets : x.Meets s.scanner t.scanner
  previous : s.previous.Like t.previous
  behindBrace : (s.previous.kind == .rightBrace) = (t.previous.kind == .rightBrace)
  previousLines : x.Layered → 1 ≤ s.previous.span.firstLine ∧
    t.previous.span.firstLine = s.previous.span.firstLine + x.lines ∧
    t.previous.span.lastLine = s.previous.span.lastLine + x.lines
  functions : x.Layered → s.functions = t.functions
  superFound : x.Layered → s.superFound = t.superFound
  path : s.script.path = t.script.path
  valid : (own && s.script.valid) = (other && t.script.valid)

/-- The kinds of marks that stand behind the piece. -/
def Stops (x : Fragment) (kind : TokenKind) : Prop :=
  ∃ mark rest, x.after = mark :: rest ∧ (stopLexeme mark).kind = kind

variable {own other : Bool}

theorem Like.of_moved {t : Token} (offset lines : Nat) :
    t.Like { t with span := t.span.moved offset lines } := by
  refine ⟨Or.inl rfl, rfl, rfl, rfl, rfl, fun _ => ?_⟩
  show t.span.stop - t.span.start = t.span.stop + offset - (t.span.start + offset)
  omega

theorem stopLexeme_ne (mark : Char) : (stopLexeme mark).kind ≠ .endOfProgram := by
  by_cases h : mark = ':'
  · subst h
    decide
  · intro hkind
    have hcloses := stopLexeme_closes h
    rw [hkind] at hcloses
    cases hcloses

/-- Tokens abreast. -/
theorem Meets.beside (h : x.Meets s t) : s.token.Beside x.Stops t.token := by
  rcases h with h | h
  · rw [h.token]
    exact ⟨Like.of_moved _ _, Or.inl rfl⟩
  · obtain ⟨mark, rest, hafter, -, hlexeme⟩ := h.beyond
    have hkind : s.token.kind = .endOfProgram := congrArg Lexeme.kind h.lexeme
    have hmark : t.token.kind = (stopLexeme mark).kind := congrArg Lexeme.kind hlexeme
    have hisMark : t.token.kind.isMark = true := by
      rw [hmark]
      exact stopLexeme_isMark mark
    refine ⟨⟨Or.inr ⟨by rw [hkind]; rfl, hisMark⟩, ?_, ?_, ?_, ?_, ?_⟩, Or.inr ⟨hkind, mark, rest, hafter, hmark.symm⟩⟩
    · rw [show s.token.text = s.token.toLexeme.text from rfl, h.lexeme,
        show t.token.text = t.token.toLexeme.text from rfl, hlexeme]
      rfl
    · rw [show s.token.number = s.token.toLexeme.number from rfl, h.lexeme,
        show t.token.number = t.token.toLexeme.number from rfl, hlexeme]
      rfl
    · rw [show s.token.flags = s.token.toLexeme.flags from rfl, h.lexeme,
        show t.token.flags = t.token.toLexeme.flags from rfl, hlexeme]
      rfl
    · rw [show s.token.operator = s.token.toLexeme.operator from rfl, h.lexeme,
        show t.token.operator = t.token.toLexeme.operator from rfl, hlexeme]
      rfl
    · intro hidentifier
      rw [hkind] at hidentifier
      cases hidentifier

theorem Meets.line (h : x.Meets s t) :
    t.token.span.firstLine = s.token.span.firstLine + x.lines := by
  rcases h with h | h
  · rw [h.token]
    rfl
  · exact h.line

theorem Meets.line_pos (h : x.Meets s t) : 1 ≤ s.token.span.firstLine :=
  h.elim Passage.Inside.line_pos Over.line_pos

theorem Meets.lineIndent_eq (h : x.Meets s t) (hl : x.Layered) {line : Nat} (hline : 1 ≤ line) :
    s.script.lineIndent line = t.script.lineIndent (line + x.lines) := by
  rcases h with h | h
  · obtain ⟨read, hs, ht⟩ := h.passed
    have hpiece : x.piece = read ++ s.cursor.rest := by
      have hown := hs.content.symm.trans h.content
      rw [Passage.own, List.append_assoc] at hown
      exact (List.append_cancel_left hown).symm
    rw [← List.append_nil (x.before ++ read)] at ht
    exact Fragment.lineIndent_eq hl hs ht hpiece h.content h.toAligned.whole (List.forall_mem_nil _) hline
  · obtain ⟨mark, rest, hafter, ht, -⟩ := h.beyond
    have hmark : mark ∈ stopMarks := by
      rcases x.stopped with hnil | ⟨mark', rest', hcons, hmark⟩
      · rw [hnil] at hafter
        cases hafter
      · rw [hcons] at hafter
        cases hafter
        exact hmark
    have hown : s.script.content = x.own := by rw [h.passed.content, h.rest, List.append_nil]
    refine Fragment.lineIndent_eq hl h.passed ht (List.append_nil _).symm hown h.whole ?_ hline
    intro ch hch
    have hplain : AllNarrow stopMarks := by decide
    rw [List.mem_singleton.mp hch]
    exact hplain.plain mark hmark

section Pairing

variable {s t : ParserState}

theorem Near.ended (h : x.Near own other s t) (hkind : s.token.kind = .endOfProgram) : s.Ended := by
  rcases h.meets with hinside | hover
  · obtain ⟨read, hs, -⟩ := hinside.passed
    exact ⟨hkind, (hinside.proper hkind).1, hs.commentsTaken⟩
  · exact ⟨hkind, hover.rest, hover.passed.commentsTaken⟩

theorem Near.sees (h : x.Near own other s t) : Sees x.Stops x.Layered s t := by
  refine ⟨h.meets.beside, h.previous, h.behindBrace, h.path, h.functions, h.superFound, fun hl => ?_⟩
  have hline : t.token.span.firstLine = s.token.span.firstLine + x.lines := h.meets.line
  have hcurrent : 1 ≤ s.token.span.firstLine := h.meets.line_pos
  obtain ⟨hpos, hfirst, hlast⟩ := h.previousLines hl
  have hindent : ∀ {line : Nat}, 1 ≤ line →
      s.script.lineIndent line = t.script.lineIndent (line + x.lines) := h.meets.lineIndent_eq hl
  have hfurther : s.indentedFurther = t.indentedFurther := by
    unfold ParserState.indentedFurther
    rw [hindent hpos, hindent hcurrent, hfirst, hline]
  have hsame : ∀ a b : Nat, (a == b) = (a + x.lines == b + x.lines) := by simp
  refine ⟨?_, hfurther, ?_⟩
  · unfold ParserState.onSameLine
    rw [hlast, hline, ← hsame]
  · unfold ParserState.continues
    rw [hfirst, hline, hfurther, ← hsame]

/-- The current tokens become the previous ones. -/
theorem Near.of_scanned (h : x.Near own other s t) (hkind : s.token.kind = t.token.kind)
    {u v : Scanner} (hmeets : x.Meets u v) (hu : u.script.path = s.script.path)
    (hv : v.script.path = t.script.path) (hvalid : u.script.valid = s.script.valid)
    (hvalid' : v.script.valid = t.script.valid) :
    x.Near own other { s with previous := s.token, scanner := u }
      { t with previous := t.token, scanner := v } where
  meets := hmeets
  previous := h.meets.beside.like
  behindBrace := by
    show (s.token.kind == .rightBrace) = (t.token.kind == .rightBrace)
    rw [hkind]
  previousLines hl := by
    rcases h.meets with hinside | hover
    · have htoken : t.token = _ := hinside.token
      exact ⟨hinside.line_pos, by rw [htoken]; rfl, by rw [htoken]; rfl⟩
    · obtain ⟨mark, rest, -, -, hlexeme⟩ := hover.beyond
      have hs : s.token.kind = .endOfProgram := congrArg Lexeme.kind hover.lexeme
      have ht : t.token.kind = (stopLexeme mark).kind := congrArg Lexeme.kind hlexeme
      rw [hs, ht] at hkind
      exact absurd hkind.symm (stopLexeme_ne mark)
  functions := h.functions
  superFound := h.superFound
  path := by
    show u.script.path = v.script.path
    rw [hu, hv]
    exact h.path
  valid := by
    show (own && u.script.valid) = (other && v.script.valid)
    rw [hvalid, hvalid']
    exact h.valid

theorem Meets.aligned {s t : Scanner} (h : x.Meets s t) (hkind : s.token.kind = t.token.kind) :
    x.Aligned s t := by
  rcases h with h | h
  · exact h.toAligned
  · obtain ⟨mark, rest, -, -, hlexeme⟩ := h.beyond
    have hs : s.token.kind = .endOfProgram := congrArg Lexeme.kind h.lexeme
    have ht : t.token.kind = (stopLexeme mark).kind := congrArg Lexeme.kind hlexeme
    rw [hs, ht] at hkind
    exact absurd hkind.symm (stopLexeme_ne mark)

theorem Meets.inside {s t : Scanner} (h : x.Meets s t) (hkind : s.token.kind ≠ .endOfProgram) :
    x.Inside s t := h.resolve_right fun hover => hkind (congrArg Lexeme.kind hover.lexeme)

/-- Both parsers go on to the next token. -/
theorem Near.next (h : x.Near own other s t) (hkind : s.token.kind = t.token.kind) :
    Goes (x.Near own other) x.Gone Eq (Parse.next s) (Parse.next t) := by
  refine scan_goes (s := { s with previous := s.token }) (t := { t with previous := t.token })
    fun hok => ?_
  rcases next_meets (h.meets.aligned hkind) hok with ⟨hok', hmeets⟩ | hgone
  · refine Or.inl ⟨hok', h.of_scanned hkind hmeets ?_ ?_ ?_ ?_⟩
    · exact (Scanner.next_keeps (Prod.ext hok rfl)).1
    · exact (Scanner.next_keeps (Prod.ext hok' rfl)).1
    · exact (Scanner.next_keeps (Prod.ext hok rfl)).2.2
    · exact (Scanner.next_keeps (Prod.ext hok' rfl)).2.2
  · exact Or.inr (hgone _ rfl)

/-- Both parsers read on from a slash to the end of a regular expression. -/
theorem Near.regular (h : x.Near own other s t)
    (hbegins : Rules.beginsRegularExpression s.token = true) :
    Goes (x.Near own other) x.Gone Eq (Parse.scan Scanner.readRegularExpression s)
      (Parse.scan Scanner.readRegularExpression t) := by
  refine scan_goes fun hok => Or.inl ?_
  have hkind : s.token.kind ≠ .endOfProgram := by
    intro hend
    simp [Rules.beginsRegularExpression, Token.isOperator, Token.isCompoundAssignment, hend] at hbegins
  obtain ⟨hok', hinside⟩ := (h.meets.inside hkind).readRegular x.parted.toEdged hok
  have hkeeps := Scanner.readRegular_keeps hok
  have hkeeps' := Scanner.readRegular_keeps hok'
  refine ⟨hok', Or.inl hinside, h.previous, h.behindBrace, h.previousLines, h.functions, h.superFound,
    ?_, ?_⟩
  · show (s.scanner.readRegularExpression.2).script.path = (t.scanner.readRegularExpression.2).script.path
    rw [hkeeps.1, hkeeps'.1]
    exact h.path
  · show (own && (s.scanner.readRegularExpression.2).script.valid) =
      (other && (t.scanner.readRegularExpression.2).script.valid)
    rw [hkeeps.2, hkeeps'.2]
    exact h.valid

/-- A token is split in both. -/
theorem Near.split (h : x.Near own other s t) {kind : TokenKind} {operator : Option Operator}
    (hafter : Parse.afterGreater? s.token = some (kind, operator)) :
    x.Near own other (s.split kind operator) (t.split kind operator) := by
  have hinside := h.meets.inside (Parse.afterGreater?_proper hafter)
  have htoken : t.token = { s.token with span := s.token.span.moved x.offset x.lines } := hinside.token
  have hlength : ∀ u : Token, (Parse.firstGreater u).rawLength = 1 := by
    intro u
    show u.span.start + 1 - u.span.start = 1
    omega
  refine ⟨Or.inl (hinside.split hafter), ⟨Or.inl rfl, rfl, rfl, rfl, rfl, fun _ => ?_⟩, rfl, fun _ => ?_,
    h.functions, h.superFound, h.path, h.valid⟩
  · show (Parse.firstGreater s.token).rawLength = (Parse.firstGreater t.token).rawLength
    rw [hlength, hlength]
  · have hline : t.token.span.firstLine = s.token.span.firstLine + x.lines := by
      rw [htoken]
      rfl
    exact ⟨hinside.line_pos, hline, hline⟩

/-- What the scripts hold apart from text and lines is of no account. -/
theorem Meets.withScripts {s t : Scanner} (h : x.Meets s t) {script script' : Script}
    (hcontent : script.content = s.script.content)
    (hlines : script.lineStarts = s.script.lineStarts)
    (hcontent' : script'.content = t.script.content)
    (hlines' : script'.lineStarts = t.script.lineStarts) :
    x.Meets { s with script } { t with script := script' } := by
  rcases h with h | h
  · exact Or.inl ⟨h.toAligned.withScripts hcontent hlines hcontent' hlines', h.token,
      h.begins, h.line_pos, h.proper⟩
  · obtain ⟨mark, rest, hafter, ht, hlexeme⟩ := h.beyond
    exact Or.inr ⟨h.passed.withScript hcontent hlines, h.rest, h.lexeme, hcontent'.trans h.whole,
      ⟨mark, rest, hafter, ht.withScript hcontent' hlines', hlexeme⟩, h.line, h.line_pos⟩

/-- Problems that only the first parser reports. -/
theorem Near.reported_left {u : ParserState} {clean : Bool} (h : x.Near own other s t)
    (hs : s.Reported clean u) : x.Near own (other && clean) u t := by
  obtain ⟨script, rfl, hpath, hcontent, hlines, -, hvalid⟩ := hs
  refine { h with meets := h.meets.withScripts hcontent hlines rfl rfl, path := hpath.trans h.path, valid := ?_ }
  show (own && script.valid) = (other && clean && t.script.valid)
  rw [hvalid, ← Bool.and_assoc, h.valid, Bool.and_assoc, Bool.and_assoc, Bool.and_comm clean]

/-- Problems that only the second parser reports. -/
theorem Near.reported_right {u : ParserState} {clean : Bool} (h : x.Near own (other && clean) s t)
    (ht : t.Reported clean u) : x.Near own other s u := by
  obtain ⟨script, rfl, hpath, hcontent, hlines, -, hvalid⟩ := ht
  refine { h with meets := h.meets.withScripts rfl rfl hcontent hlines, path := h.path.trans hpath.symm, valid := ?_ }
  show (own && s.script.valid) = (other && script.valid)
  rw [hvalid, h.valid, Bool.and_assoc, Bool.and_comm clean]

theorem Near.collect (h : x.Near own other s t) {p q : Problem} (hpq : p.severity = q.severity) :
    x.Near own other (s.collect p) (t.collect q) where
  meets := h.meets.withScripts rfl rfl rfl rfl
  previous := h.previous
  behindBrace := h.behindBrace
  previousLines := h.previousLines
  functions := h.functions
  superFound := h.superFound
  path := h.path
  valid := by
    have hwarning : p.isWarning = q.isWarning := by
      unfold Problem.isWarning
      rw [hpq]
    show (own && (s.script.valid && p.isWarning)) = (other && (t.script.valid && q.isWarning))
    rw [← Bool.and_assoc, ← Bool.and_assoc, h.valid, hwarning]

end Pairing

end Fragment

/-- The piece and the whole, as two readings that go together. -/
def Excerpt.pairing (x : Excerpt) (own other : Bool) : Pairing where
  near := x.Near own other
  stops := x.Stops
  gone := x.Gone
  layered := x.Layered
  closes {kind} := by
    rintro ⟨mark, rest, hafter, rfl⟩
    refine stopLexeme_closes ?_
    rintro rfl
    exact x.closing (by rw [hafter]; rfl)
  gone_ended h := h.ended
  gone_rests h hst := h.rests hst
  sees h := h.sees
  ended h := h.ended
  next h := h.next
  regular h := h.regular
  split h := h.split
  collect h := h.collect
  note h functions superFound := { h with functions := fun _ => rfl, superFound := fun _ => rfl }
  addIncluded h child := { h with meets := h.meets.withScripts rfl rfl rfl rfl }

end ActionSyntax
