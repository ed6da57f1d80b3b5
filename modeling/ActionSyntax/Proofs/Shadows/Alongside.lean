import ActionSyntax.Proofs.GreaterRuns

/-!
Two parsers alongside each other: one reads a piece of text by itself, the other one within a whole text.
While the first one is not at its end, they stand at the same token, whatever follows the piece, but that
signs at its end may go on with signs behind it. Behind the end of the piece, the second one has read on in
the whole.
-/

namespace ActionSyntax

set_option autoImplicit false

open Utf8 Scan

namespace Passage

variable (x : Passage)

/-- A token of the piece, as it stands in the whole. -/
def moved (t : Token) : Token := { t with span := t.span.moved x.offset x.lines }

/-- Both parsers stand at the same token of the piece. -/
structure Along (s t : ParserState) : Prop where
  inside : x.Inside s.scanner t.scanner
  proper : s.token.kind ≠ .endOfProgram
  previous : t.previous = x.moved s.previous
  path : s.script.path = t.script.path
  valid : s.script.valid = t.script.valid

/-- The scanner of the piece is at its last signs, that of the whole at a mark that begins with them and goes
on behind the piece. -/
structure Signs (s t : Scanner) : Prop where
  marks : ∃ front count more equals, x.piece = front ++ List.replicate count '>' ∧
    s.OnRun (x.lead ++ front) count false ∧ t.OnRun (x.before ++ front) (count + (more + 1)) equals
  rest : s.cursor.rest = []
  whole : t.script.content = x.whole
  begins : t.token.span.firstLine = s.token.span.firstLine + x.lines ∧
    t.token.span.start = s.token.span.start + x.offset

/-- Both parsers stand at the same sign, which is one of the last of the piece. -/
structure Across (s t : ParserState) : Prop where
  signs : x.Signs s.scanner t.scanner
  previous : t.previous = x.moved s.previous
  path : s.script.path = t.script.path
  valid : s.script.valid = t.script.valid

/-- The piece has been read to its end, and in the whole what stands behind it. -/
structure Past (s t : ParserState) : Prop where
  ended : s.Ended
  meets : t.Meets (x.before ++ x.piece) x.after
  previous : t.previous = x.moved s.previous
  path : s.script.path = t.script.path
  valid : s.script.valid = t.script.valid

variable {x} {s t u : ParserState}

theorem moved_like (t : Token) : t.Like (x.moved t) := by
  refine ⟨Or.inl rfl, rfl, rfl, rfl, rfl, fun _ => ?_⟩
  show t.span.stop - t.span.start = t.span.stop + x.offset - (t.span.start + x.offset)
  omega

theorem Along.token (h : x.Along s t) : t.token = x.moved s.token := h.inside.token

theorem Along.kind (h : x.Along s t) : s.token.kind = t.token.kind := by rw [h.token]; rfl

theorem Along.split (h : x.Along s t) {kind : TokenKind} {operator : Option Operator}
    (hafter : Parse.afterGreater? s.token = some (kind, operator)) :
    x.Along (s.split kind operator) (t.split kind operator) := by
  have hkind : kind ≠ .endOfProgram := by
    unfold Parse.afterGreater? at hafter
    split at hafter <;> cases hafter <;> decide
  refine ⟨h.inside.split hafter, hkind, ?_, h.path, h.valid⟩
  show Parse.firstGreater t.token = x.moved (Parse.firstGreater s.token)
  rw [h.token]
  simp [Parse.firstGreater, moved, Span.moved, Span.onLine, Nat.add_right_comm]

theorem valid_collect {valid valid' : Bool} (h : valid = valid') {p q : Problem}
    (hpq : p.severity = q.severity) : (valid && p.isWarning) = (valid' && q.isWarning) := by
  unfold Problem.isWarning
  rw [h, hpq]

/-- Problems are collected in both. -/
theorem Along.collect (h : x.Along s t) {p q : Problem} (hpq : p.severity = q.severity) :
    x.Along (s.collect p) (t.collect q) :=
  ⟨h.inside.withScripts rfl rfl rfl rfl, h.proper, h.previous, h.path, valid_collect h.valid hpq⟩

theorem Across.collect (h : x.Across s t) {p q : Problem} (hpq : p.severity = q.severity) :
    x.Across (s.collect p) (t.collect q) := by
  obtain ⟨front, count, more, equals, hpiece, hs, ht⟩ := h.signs.marks
  exact ⟨⟨⟨front, count, more, equals, hpiece, hs.withScript rfl rfl, ht.withScript rfl rfl⟩, h.signs.rest,
    h.signs.whole, h.signs.begins⟩, h.previous, h.path, valid_collect h.valid hpq⟩

theorem Past.collect (h : x.Past s t) {p q : Problem} (hpq : p.severity = q.severity) :
    x.Past (s.collect p) (t.collect q) :=
  ⟨⟨h.ended.kind, h.ended.rest, h.ended.notes⟩, h.meets.collect q, h.previous, h.path,
    valid_collect h.valid hpq⟩

/-- Where a mark goes on behind the piece, a sign stands there. -/
theorem Signs.head {s t : Scanner} (h : x.Signs s t) : x.after.head? = some '>' := by
  obtain ⟨front, count, more, equals, hpiece, -, ht⟩ := h.marks
  have hcontent := h.whole.symm.trans ht.content
  rw [Passage.whole, hpiece, greaterText, ← List.replicate_append_replicate] at hcontent
  simp only [List.append_assoc, List.append_cancel_left_eq] at hcontent
  rw [hcontent]
  rfl

end Passage

/-- A token that no type takes: the end of the text, a number or a minus sign. -/
def Token.Spent (t : Token) : Prop :=
  t.kind = .endOfProgram ∨ t.kind = .number ∨ (t.kind = .operator ∧ t.operator = some .subtract)

/-- The token goes on with no part of a type, unless it is a suffix. -/
structure Token.Parting (t : Token) : Prop where
  kind : t.kind ≠ .arrow ∧ t.kind ≠ .colon
  less : t.isOperator .less = false

/-- What a bar says. -/
def Scan.barLexeme : Lexeme := { kind := .operator, operator := some .bitwiseOr }

theorem Scan.tokenizes_bar {gap rest : List Char} (hgap : Spacing gap)
    (hrest : ∀ ch ∈ rest.head?, ch ≠ '|' ∧ ch ≠ '=') : Tokenizes gap ['|'] rest barLexeme := by
  apply Tokenizes.ofMark hgap _ (by decide)
  · intro c hcursor
    apply lexeme_of_punctuation hcursor (by decide) (by decide)
    obtain ⟨_, index, line, lines, comments⟩ := c
    cases hcursor
    cases rest with
    | nil => rfl
    | cons ch rest =>
      have hne := hrest ch rfl
      simp [punctuation?, spelledChars, spellings, Cursor.startsWith, Ne.symm hne.1, Ne.symm hne.2]
      rfl
  · exact opens_cons (by decide) (by decide) (by decide) fun heq => absurd heq (by decide)

namespace Passage

/-- Behind the piece stands a bar, or nothing. -/
structure Barred (x : Passage) : Prop where
  apart : Scan.Apart x.piece x.after
  behind : x.after = [] ∨ ∃ gap rest, x.after = gap ++ '|' :: rest ∧ Spacing gap ∧
    ∀ ch ∈ rest.head?, ch ≠ '|' ∧ ch ≠ '='

variable {x : Passage} {s t u : ParserState}

namespace Barred

theorem head (h : x.Barred) : ∀ ch ∈ x.after.head?, ch ∈ partings ∧ ch ≠ '>' ∧ ch ≠ '.' := by
  have hspaces : ∀ ch ∈ spaces, ch ∈ partings ∧ ch ≠ '>' ∧ ch ≠ '.' := by decide
  obtain hnil | ⟨gap, rest, hafter, hgap, -⟩ := h.behind
  · rw [hnil]
    nofun
  · rw [hafter]
    apply hgap.head hspaces
    rintro ch ⟨⟩
    decide

theorem edged (h : x.Barred) : x.Edged := by
  refine ⟨?_, h.apart⟩
  cases hcons : x.after with
  | nil => exact Or.inl hcons
  | cons ch rest => exact Or.inr ⟨ch, rest, hcons, (h.head ch (by rw [hcons]; rfl)).1⟩

theorem readable (h : x.Barred) : Scanner.Readable (x.before ++ x.piece) x.after := by
  obtain hnil | ⟨gap, rest, hafter, hgap, hrest⟩ := h.behind
  · rw [hnil]
    exact tokenizes_end.scans _
  · rw [hafter]
    exact (tokenizes_bar hgap hrest).scans _

theorem token (h : x.Barred) (hfaces : t.Faces (x.before ++ x.piece) x.after) : t.token.Parting := by
  obtain hnil | ⟨gap, rest, hafter, hgap, hrest⟩ := h.behind
  · rw [hnil] at hfaces
    have hfaces : t.Faces (x.before ++ x.piece) ([] ++ ([] ++ [])) := hfaces
    obtain ⟨-, htoken⟩ := hfaces.behind tokenizes_end
    rw [htoken]
    exact ⟨by simp, rfl⟩
  · rw [hafter] at hfaces
    obtain ⟨-, htoken⟩ := hfaces.behind (tokenizes_bar hgap hrest)
    rw [htoken]
    exact ⟨by simp [barLexeme], rfl⟩

end Barred

/-- Behind the piece a token can be read that goes on with no part of a type, but perhaps with a whole type. A
dot does not go on with a mark at the end of the piece. -/
structure Followed (x : Passage) : Prop where
  edged : x.Edged
  readable : Scanner.Readable (x.before ++ x.piece) x.after
  token : ∀ {t : ParserState}, t.Meets (x.before ++ x.piece) x.after → t.token.Parting
  last : x.after.head? = some '.' → ∀ ch ∈ x.piece.getLast?, ch ∉ ['?', '.']

/-- Behind the piece stands neither a closing sign nor a dot. -/
theorem Followed.of_faces (hx : x.Edged) (hhead : ∀ ch ∈ x.after.head?, ch ≠ '>' ∧ ch ≠ '.')
    (hreadable : Scanner.Readable (x.before ++ x.piece) x.after)
    (htoken : ∀ {t : ParserState}, t.Faces (x.before ++ x.piece) x.after → t.token.Parting) : x.Followed :=
  ⟨hx, hreadable, fun hmeets => htoken (hmeets.faces_of_head fun hsign => (hhead '>' hsign).1 rfl),
    fun hdot => absurd rfl (hhead '.' hdot).2⟩

theorem Barred.followed (h : x.Barred) : x.Followed :=
  .of_faces h.edged (fun ch hch => (h.head ch hch).2) h.readable h.token

/-- Both parsers have read the same of the piece, which may have been all of it. -/
def Runs (x : Passage) (s t : ParserState) : Prop := x.Along s t ∨ x.Across s t ∨ x.Past s t

/-- Behind the piece stands a closing sign or a dot. -/
def Linked (x : Passage) : Prop := ∃ ch ∈ x.after.head?, ch = '>' ∨ ch = '.'

/-- A comment runs on behind the piece; or a closing sign or a dot may, and a token is read that no type
takes. -/
def Lost (x : Passage) (s : ParserState) : Prop :=
  x.Gone s ∨ x.Linked ∧ s.token.Spent ∧ s.token.kind ≠ .endOfProgram

theorem Past.faces (h : x.Past s t) (hhead : x.after.head? ≠ some '>') :
    t.Faces (x.before ++ x.piece) x.after := h.meets.faces_of_head hhead

theorem Runs.resolve (h : x.Runs s t) (hhead : x.after.head? ≠ some '>') : x.Along s t ∨ x.Past s t :=
  h.imp_right fun h => h.resolve_left fun hacross => hhead hacross.signs.head

/-- At the end of the piece, all of it has been read. -/
theorem Runs.past (h : x.Runs s t) (hend : s.token.kind = .endOfProgram) : x.Past s t := by
  refine (h.resolve_left fun halong => halong.proper hend).resolve_left fun hacross => ?_
  obtain ⟨front, count, more, equals, -, hs, -⟩ := hacross.signs.marks
  have htoken : s.token = _ := hs.token
  rw [htoken] at hend
  rcases greaterMark_kind count false with hkind | hkind <;> simp [hkind] at hend

theorem Lost.gone (h : x.Lost s) (hend : s.token.kind = .endOfProgram) : x.Gone s :=
  h.resolve_right fun hspent => hspent.2.2 hend

theorem not_lost_of_last (hlast : x.after = []) : ¬ x.Lost s := by
  rintro (⟨⟨ch, hch, -⟩, -⟩ | ⟨⟨ch, hch, -⟩, -⟩) <;> rw [hlast] at hch <;> cases hch

section Signs

variable {s t : Scanner} {start : Cursor}

/-- Signs at the end of the piece are read as a longer mark in the whole. -/
theorem Aligned.next_signs (h : x.Aligned s t) (hx : x.Edged) (htrivia : trivia s.cursor = .ok start)
    {count : Nat} (hleast : 1 ≤ count) (hmost : count ≤ 2) (hrest : start.rest = List.replicate count '>')
    (hsign : x.after.head? = some '>') :
    t.next.1 = .ok () ∧ x.Signs s.next.2 t.next.2 := by
  obtain ⟨read, hs, ht⟩ := h.passed
  obtain ⟨after, hafter⟩ := List.head?_eq_some_iff.mp hsign
  have hproper : start.rest ≠ [] := by
    rw [hrest]
    obtain ⟨count, rfl⟩ : ∃ n, count = n + 1 := ⟨count - 1, by omega⟩
    exact List.cons_ne_nil _ _
  have hwhole := h.trivia_whole hx htrivia hproper
  have hcrosses := triviaEnd_crosses (s.cursor.rest.length + 1) hs.behind
  have hend : triviaEnd (s.cursor.rest.length + 1) s.cursor = .ok start := htrivia
  rw [hend] at hcrosses
  obtain ⟨gap, notes, -, hgap⟩ := hcrosses
  have hgap' := hgap.within (h.apart hx)
  rw [← h.cursor] at hgap'
  have hrest' : (start.within x.placement).rest = List.replicate count '>' ++ '>' :: after := by
    rw [Cursor.amid_rest, hrest]
    exact congrArg (List.replicate count '>' ++ ·) hafter
  have hhead : (List.replicate count '>' ++ '>' :: after).head? = some '>' := by cases count <;> rfl
  obtain ⟨count', equals, rest, hleast', hmost', hmark, hequals, hmore⟩ := greaterText_of_head hhead
  obtain ⟨more, rfl⟩ : ∃ more, count' = count + (more + 1) :=
    ⟨count' - count - 1, by have := greaterText_longer hmost hmark hmore; omega⟩
  have hown : start.rest = greaterText count false ++ [] := by simp [hrest, greaterText]
  obtain ⟨-, hrun, hleft, hbegins, -⟩ := Scanner.OnRun.of_mark hs hgap htrivia hleast (by omega) hown (by simp) (by simp)
  obtain ⟨hok, hrun', -, hbegins', -⟩ :=
    Scanner.OnRun.of_mark ht hgap' hwhole hleast' hmost' (hrest'.trans hmark) hequals hmore
  rw [List.append_assoc] at hrun hrun'
  have hpiece : x.piece = read ++ gap ++ List.replicate count '>' := by
    have hcontent := h.content.symm.trans hs.content
    rw [hgap.rest, hrest, Passage.own, List.append_assoc] at hcontent
    rw [List.append_cancel_left hcontent, List.append_assoc]
  refine ⟨hok, ⟨read ++ gap, count, more, equals, hpiece, hrun, hrun'⟩, hleft, ?_, ?_⟩
  · rw [t.next_content, h.whole]
  · have hlines : (Mark.ofSpan t.next.2.token.span).line = (Mark.ofSpan s.next.2.token.span).line + x.lines := by
      rw [hbegins, hbegins']
      rfl
    have hstarts : (Mark.ofSpan t.next.2.token.span).start =
        (Mark.ofSpan s.next.2.token.span).start + x.offset := by
      rw [hbegins, hbegins']
      rfl
    exact ⟨hlines, hstarts⟩

/-- Whatever token is read in the piece is read in the whole, but that signs may go on; or something goes on
behind it, and it is one that no type takes. -/
theorem Aligned.next_proper (h : x.Aligned s t) (hx : x.Followed) (hok : s.next.1 = .ok ())
    (hkind : s.next.2.token.kind ≠ .endOfProgram) :
    (t.next.1 = .ok () ∧ (x.Inside s.next.2 t.next.2 ∨ x.Signs s.next.2 t.next.2)) ∨
      x.Linked ∧ s.next.2.token.Spent := by
  obtain ⟨start, l, stop, htrivia, hlexeme, hnext⟩ | ⟨failure, token, -, hnext⟩ := s.next_cases
  case inr =>
    rw [hnext] at hok
    cases hok
  have htoken : s.next.2.token = { l with span := start.spanTo stop } := by rw [hnext]
  by_cases hclear : (Surroundings.within x.placement).Clear start
  · have hall : ∀ start', trivia s.cursor = .ok start' → (Surroundings.within x.placement).Clear start' := by
      intro start' htrivia'
      obtain rfl : start = start' := by simpa using htrivia.symm.trans htrivia'
      exact hclear
    obtain ⟨hok', hinside⟩ := h.next_token hx.edged hall hok hkind
    exact Or.inl ⟨hok', Or.inl hinside⟩
  have hlinked : x.Linked := by
    by_contra hnone
    refine hclear (.of_head (fun ch hch => ?_) start)
    exact ⟨fun hsign => hnone ⟨ch, hch, Or.inl hsign⟩, fun hdot => hnone ⟨ch, hch, Or.inr hdot⟩⟩
  by_cases hnumber : l.kind = .number
  · exact Or.inr ⟨hlinked, Or.inr (Or.inl (by rw [htoken]; exact hnumber))⟩
  obtain ⟨ch, hhead, hmark⟩ : ∃ ch ∈ x.after.head?, start.rest ∈ openMarks ch := by
    by_contra hnone
    refine hclear ⟨fun ch hch hmem => hnone ⟨ch, hch, hmem⟩, fun _ _ _ hlexeme' => ?_⟩
    obtain ⟨rfl, -⟩ : l = _ ∧ stop = _ := by simpa using hlexeme.symm.trans hlexeme'
    exact hnumber
  have hlast : ∀ last ∈ start.rest.getLast?, last ∈ x.piece.getLast? := by
    obtain ⟨read, hs, -⟩ := h.passed
    obtain ⟨gap, hgap⟩ := trivia_leads htrivia
    have hown := h.content.symm.trans hs.content
    rw [Passage.own, List.append_assoc] at hown
    intro last hmem
    rw [List.append_cancel_left hown, ← hgap, List.getLast?_append_of_ne_nil, List.getLast?_append_of_ne_nil]
    · exact hmem
    all_goals
      intro hnil
      simp_all
  unfold openMarks at hmark
  split at hmark
  · -- A closing sign follows.
    simp only [List.mem_cons, List.not_mem_nil, or_false] at hmark
    rcases hmark with hrest | hrest | hrest
    · refine Or.inr ⟨hlinked, Or.inr (Or.inr ?_)⟩
      have hread : lexeme start = .ok ({ kind := .operator, operator := some .subtract }, start.skip 1) := by
        obtain ⟨_, index, line, lines, comments⟩ := start
        cases hrest
        rfl
      rw [hread] at hlexeme
      cases hlexeme
      rw [htoken]
      exact ⟨rfl, rfl⟩
    · obtain ⟨hok', hsigns⟩ := h.next_signs hx.edged htrivia (Nat.le_refl 1) (by decide) hrest hhead
      exact Or.inl ⟨hok', Or.inr hsigns⟩
    · obtain ⟨hok', hsigns⟩ := h.next_signs hx.edged htrivia (by decide) (Nat.le_refl 2) hrest hhead
      exact Or.inl ⟨hok', Or.inr hsigns⟩
  · -- A dot follows.
    have hpiece := hx.last hhead
    simp only [List.mem_cons, List.not_mem_nil, or_false] at hmark
    rcases hmark with hrest | hrest | hrest <;> rw [hrest] at hlast
    · exact absurd (hpiece '?' (hlast '?' rfl)) (by decide)
    · exact absurd (hpiece '.' (hlast '.' rfl)) (by decide)
    · exact absurd (hpiece '.' (hlast '.' rfl)) (by decide)
  · cases hmark

end Signs

/-- The parser of the whole goes on to the same token, or past the end of the piece, unless a comment
runs on there or the token is one that no type takes. -/
theorem Aligned.advance (h : x.Aligned s.scanner t.scanner) (hx : x.Followed)
    (hpath : s.script.path = t.script.path) (hvalid : s.script.valid = t.script.valid)
    (hnext : Parse.next s = .ok () u) (hlost : ¬ x.Lost u) :
    ∃ v, Parse.next t = .ok () v ∧ v.previous = t.token ∧
      x.Runs u { v with previous := x.moved u.previous } := by
  obtain ⟨hscan, rfl⟩ := Parse.next_inv hnext
  have hok : s.scanner.next.1 = .ok () := congrArg Prod.fst hscan
  have hread : ∀ {w : Scanner}, t.scanner.next = (.ok (), w) →
      Parse.next t = .ok () { t with previous := t.token, scanner := w } := by
    intro w hw
    rw [Parse.next_apply, ParserState.advance, hw]
  obtain ⟨hpath', -, hvalid'⟩ := Scanner.next_keeps (Prod.ext hok rfl)
  by_cases hkind : s.scanner.next.2.token.kind = .endOfProgram
  · obtain ⟨⟨hpassed, hrest, -⟩, hend⟩ := h.next_end hx.edged hok hkind
    obtain ⟨w, hw, hcursor, hwpath, hwvalid, -, hnextw⟩ :=
      hend.resolve_right fun hall => hlost (Or.inl (hall _ rfl))
    have hleft : w.cursor.rest = x.after := by
      rw [hcursor, Cursor.amid_rest, hrest]
      rfl
    have hwok : w.next.1 = .ok () := by
      have hreadable := hx.readable w.script
      rw [← hleft] at hreadable
      rw [hw.next_behind hreadable]
      exact hreadable
    have hwnext : w.next = (.ok (), w.next.2) := Prod.ext hwok rfl
    obtain ⟨hpath'', -, hvalid''⟩ := Scanner.next_keeps hwnext
    refine ⟨_, hread (hnextw _ hwnext), rfl, Or.inr (Or.inr ⟨⟨hkind, hrest, hpassed.commentsTaken⟩,
      .faces ⟨w, hw, hleft, hwnext⟩, rfl, ?_, ?_⟩)⟩
    · exact hpath'.trans (hpath.trans (hwpath.symm.trans hpath''.symm))
    · exact hvalid'.trans (hvalid.trans (hwvalid.symm.trans hvalid''.symm))
  · obtain ⟨hok', hnear⟩ := (h.next_proper hx hok hkind).resolve_right fun hspent =>
      hlost (Or.inr ⟨hspent.1, hspent.2, hkind⟩)
    have htnext : t.scanner.next = (.ok (), t.scanner.next.2) := Prod.ext hok' rfl
    obtain ⟨hpath'', -, hvalid''⟩ := Scanner.next_keeps htnext
    have hpaths := hpath'.trans (hpath.trans hpath''.symm)
    have hvalids := hvalid'.trans (hvalid.trans hvalid''.symm)
    rcases hnear with hinside | hsigns
    · exact ⟨_, hread htnext, rfl, Or.inl ⟨hinside, hkind, rfl, hpaths, hvalids⟩⟩
    · exact ⟨_, hread htnext, rfl, Or.inr (Or.inl ⟨hsigns, rfl, hpaths, hvalids⟩)⟩

theorem Along.advance (h : x.Along s t) (hx : x.Followed) (hnext : Parse.next s = .ok () u)
    (hlost : ¬ x.Lost u) : ∃ v, Parse.next t = .ok () v ∧ x.Runs u v := by
  obtain ⟨v, hread, hprevious, hruns⟩ := h.inside.toAligned.advance hx h.path h.valid hnext hlost
  refine ⟨v, hread, ?_⟩
  have hlast : v.previous = x.moved u.previous := by
    have hu : u.previous = s.token := by
      rw [(Parse.next_inv hnext).2]
      rfl
    rw [hprevious, h.token, hu]
  rw [← hlast] at hruns
  exact hruns

end Passage

end ActionSyntax
