import ActionSyntax.Proofs.Literals.Names
import ActionSyntax.Proofs.Shadows.Framing

/-!
Tokens whose text is known. Where blanks and line breaks stand, and behind them the text of a lexeme,
the next token says what the lexeme does, and is placed where the text is.
-/

namespace ActionSyntax

set_option autoImplicit false

open Cursor

namespace Scan

variable {c : Cursor} {gap text rest : List Char} {l : Lexeme}

/-- Blanks and line breaks. -/
def Spacing (gap : List Char) : Prop :=
  ∀ ch ∈ gap, CharClass.isBlank ch = true ∨ CharClass.isLineTerminator ch = true

instance (gap : List Char) : Decidable (Spacing gap) := List.decidableBAll _ gap

theorem Opens.head_ne (h : Opens rest) {ch : Char}
    (hch : CharClass.isBlank ch = true ∨ CharClass.isLineTerminator ch = true) :
    rest.head? ≠ some ch := by
  intro hhead
  obtain ⟨more, rfl⟩ := List.head?_eq_some_iff.mp hhead
  have hstep := h (Cursor.ofContent (ch :: more)) rfl
  unfold triviaStep? at hstep
  dsimp only [Cursor.ofContent] at hstep
  rcases hch with hblank | hends
  · rw [if_pos hblank] at hstep
    cases hstep
  · have hnot : ¬ CharClass.isBlank ch = true := by
      intro hblank
      rw [CharClass.not_blank_of_lineTerminator hends] at hblank
      cases hblank
    rw [if_neg hnot] at hstep
    have hcontent : (Cursor.ofContent (ch :: more)).rest = ch :: more := rfl
    rcases newline?_of_ends hcontent hends with ⟨_, d, -, -, hsome, -⟩ | ⟨-, d, hsome, -⟩
    · dsimp only [Cursor.ofContent] at hsome
      rw [hsome] at hstep
      cases hstep
    · dsimp only [Cursor.ofContent] at hsome
      rw [hsome] at hstep
      cases hstep

/-- Blanks and line breaks are passed. -/
theorem trivia_gap (hgap : Spacing gap) (hwhole : ¬ Lines.Splits gap rest) (hrest : c.rest = gap ++ rest) :
    ∃ d, c.Passes gap [] d ∧ trivia c = trivia d := by
  induction hlength : gap.length using Nat.strong_induction_on generalizing gap c with
  | _ n ih =>
    have step : ∀ {unit more : List Char} {d : Cursor}, gap = unit ++ more → unit ≠ [] →
        c.Passes unit [] d → triviaStep? c = .ok (some d) → ∃ d, c.Passes gap [] d ∧ trivia c = trivia d := by
      intro unit more d hsplit hne hpasses hstep
      subst hsplit
      have hshorter : more.length < n := by
        have hpos := List.length_pos_iff.mpr hne
        rw [← hlength, List.length_append]
        omega
      have hmore : Spacing more := fun ch hmem => hgap ch (List.mem_append_right _ hmem)
      have hwhole' : ¬ Lines.Splits more rest := by
        rintro ⟨hlast, hhead⟩
        apply hwhole
        refine ⟨?_, hhead⟩
        rw [List.getLast?_append, hlast]
        rfl
      have hd : d.rest = more ++ rest := by
        apply List.append_cancel_left
        rw [← hpasses.rest, hrest, List.append_assoc]
      obtain ⟨e, hpasses', htrivia⟩ := ih _ hshorter hmore hwhole' hd rfl
      exact ⟨e, hpasses.trans hpasses', (trivia_step hstep).trans htrivia⟩
    cases gap with
    | nil => exact ⟨c, .refl c, rfl⟩
    | cons ch gap =>
      have hrest : c.rest = ch :: (gap ++ rest) := hrest
      have hstep : ∀ {d : Cursor}, CharClass.isBlank ch = false → c.newline? = some d →
          triviaStep? c = .ok (some d) := by
        intro d hblank hsome
        unfold triviaStep?
        simp only [hrest]
        rw [if_neg (by simp [hblank]), hsome]
      by_cases hblank : CharClass.isBlank ch = true
      · have hplain := CharClass.not_lineTerminator_of_blank hblank
        apply step List.singleton_append.symm (List.cons_ne_nil _ _) (passes_advance hrest hplain)
        unfold triviaStep?
        simp only [hrest]
        exact if_pos hblank
      · have hends : CharClass.isLineTerminator ch = true :=
          (hgap ch List.mem_cons_self).resolve_left hblank
        rw [Bool.not_eq_true] at hblank
        rcases newline?_of_ends hrest hends with
          ⟨more, d, rfl, hpair, hsome, hpasses⟩ | ⟨-, d, hsome, hpasses⟩
        · cases gap with
          | nil =>
            have hhead : rest.head? = some '\n' := by
              rw [show rest = '\n' :: more from hpair]
              rfl
            exact absurd ⟨rfl, hhead⟩ hwhole
          | cons feed gap =>
            obtain ⟨rfl, -⟩ := List.cons_eq_cons.mp hpair
            exact step (by rfl) (List.cons_ne_nil _ _) hpasses (hstep hblank hsome)
        · exact step List.singleton_append.symm (List.cons_ne_nil _ _) hpasses (hstep hblank hsome)

/-- All blanks and line breaks are passed, up to where something else stands. -/
theorem trivia_spacing (hgap : Spacing gap) (hopens : Opens rest) (hrest : c.rest = gap ++ rest) :
    ∃ start, trivia c = .ok start ∧ c.Passes gap [] start := by
  have hwhole : ¬ Lines.Splits gap rest := by
    rintro ⟨-, hhead⟩
    exact hopens.head_ne (Or.inr (by decide)) hhead
  obtain ⟨start, hpasses, htrivia⟩ := trivia_gap hgap hwhole hrest
  have hstart : start.rest = rest := List.append_cancel_left (hpasses.rest.symm.trans hrest)
  exact ⟨start, htrivia.trans (trivia_over (hopens start hstart)), hpasses⟩

/-- No gap begins with a character that is neither a blank nor begins a comment. -/
theorem opens_cons {ch : Char} (hblank : CharClass.isBlank ch = false)
    (hends : CharClass.isLineTerminator ch = false) (hslash : ch ≠ '/')
    (hmarkup : ch = '<' → rest.head? ≠ some '!') : Opens (ch :: rest) := by
  intro c hrest
  have hnone : c.newline? = none := (newline?_eq_none hrest).mpr hends
  have hmarks : ¬ c.startsWith ['<', '!', '-', '-'] = true ∧ ¬ c.startsWith ['/', '*'] = true ∧
      ¬ c.startsWith ['/', '/'] = true := by
    refine ⟨?_, ?_, ?_⟩
    · intro hstarts
      obtain ⟨more, hmore⟩ := startsWith_iff.mp hstarts
      obtain ⟨hfirst, hsecond⟩ := List.cons_eq_cons.mp (hmore.trans hrest)
      exact hmarkup hfirst.symm (by rw [← hsecond]; rfl)
    all_goals
      intro hstarts
      obtain ⟨more, hmore⟩ := startsWith_iff.mp hstarts
      exact hslash (List.cons_eq_cons.mp (hmore.trans hrest)).1.symm
  unfold triviaStep? comment?
  simp only [hrest, hblank, hnone, Bool.false_eq_true, if_false]
  rw [if_neg hmarks.1, if_neg hmarks.2.1, if_neg hmarks.2.2]

/-- In front of the rest, the text behind the gap is a token that says this. -/
structure Tokenizes (gap text rest : List Char) (l : Lexeme) : Prop where
  spacing : Spacing gap
  opens : Opens (text ++ rest)
  lexeme : ∀ c : Cursor, c.rest = text ++ rest →
    ∃ stop, Scan.lexeme c = .ok (l, stop) ∧ c.Passes text [] stop

/-- Where a mark stands, it is read. -/
theorem lexeme_of_punctuation {ch : Char} {rest : List Char} {reading : Lexeme × Cursor}
    (hrest : c.rest = ch :: rest) (hstart : CharClass.isIdentifierStart ch = false)
    (hdigit : CharClass.isDecimalDigit ch = false) (hmark : punctuation? c = some reading) :
    lexeme c = .ok reading := by
  unfold lexeme
  simp only [hrest, hstart, hdigit, Bool.false_eq_true, if_false]
  rw [hmark]

/-- The characters that stand between tokens. -/
def spaces : List Char :=
  [' ', '\t', '\x0b', '\x0c', '\u00a0', '\n', '\r', '\u2028', '\u2029']

theorem mem_spaces {ch : Char} (h : CharClass.isBlank ch = true ∨ CharClass.isLineTerminator ch = true) :
    ch ∈ spaces := by
  simp only [CharClass.isBlank, CharClass.isLineTerminator, Bool.or_eq_true, beq_iff_eq] at h
  simp only [spaces, List.mem_cons, List.not_mem_nil, or_false]
  tauto

/-- What holds of blanks and line breaks holds of what comes first. -/
theorem Spacing.head {p : Char → Prop} (h : Spacing gap) (hspaces : ∀ ch ∈ spaces, p ch)
    (hrest : ∀ ch ∈ rest.head?, p ch) : ∀ ch ∈ (gap ++ rest).head?, p ch := by
  intro ch hhead
  cases gap with
  | nil => exact hrest ch hhead
  | cons first gap =>
    obtain rfl : first = ch := Option.some.inj hhead
    exact hspaces first (mem_spaces (h first List.mem_cons_self))

/-- A mark of a single character. -/
theorem Tokenizes.ofMark {ch : Char} (hgap : Spacing gap) (hopens : Opens (ch :: rest))
    (hnarrow : AllNarrow [ch])
    (hlexeme : ∀ c : Cursor, c.rest = ch :: rest → Scan.lexeme c = .ok (l, c.skip 1)) :
    Tokenizes gap [ch] rest l :=
  ⟨hgap, hopens, fun c hrest => ⟨_, hlexeme c hrest, passes_skip hrest hnarrow⟩⟩

/-- At the end of the text stands the token that ends it. -/
theorem tokenizes_end : Tokenizes [] [] [] { kind := .endOfProgram } := by
  refine ⟨nofun, ?_, ?_⟩
  · intro c hrest
    have hrest : c.rest = [] := hrest
    unfold triviaStep?
    rw [hrest]
  · intro c hrest
    have hrest : c.rest = [] := hrest
    refine ⟨c, ?_, .refl c⟩
    unfold lexeme
    rw [hrest]

/-- The marks that are read as they are, whatever follows them. -/
def soleMarks : List (Char × TokenKind) :=
  [('(', .leftParen), (')', .rightParen), ('[', .leftBracket), ('{', .leftBrace), ('}', .rightBrace), (',', .comma),
   (':', .colon)]

theorem tokenizes_sole {mark : Char × TokenKind} (hmark : mark ∈ soleMarks) (hgap : Spacing gap)
    (rest : List Char) : Tokenizes gap [mark.1] rest { kind := mark.2 } := by
  have hplain : ∀ mark ∈ soleMarks, AllNarrow [mark.1] ∧ CharClass.isIdentifierStart mark.1 = false ∧
      CharClass.isDecimalDigit mark.1 = false ∧ CharClass.isBlank mark.1 = false ∧
      CharClass.isLineTerminator mark.1 = false ∧ mark.1 ≠ '/' ∧ mark.1 ≠ '<' := by decide
  obtain ⟨hnarrow, hstart, hdigit, hblank, hends, hslash, hless⟩ := hplain mark hmark
  apply Tokenizes.ofMark hgap _ hnarrow
  · intro c hrest
    apply lexeme_of_punctuation hrest hstart hdigit
    obtain ⟨_, index, line, lines, comments⟩ := c
    cases hrest
    simp only [soleMarks, List.mem_cons, List.not_mem_nil, or_false] at hmark
    rcases hmark with rfl | rfl | rfl | rfl | rfl | rfl | rfl <;> rfl
  · exact opens_cons hblank hends hslash fun heq => absurd heq hless

theorem tokenizes_comma (hgap : Spacing gap) (rest : List Char) :
    Tokenizes gap [','] rest { kind := .comma } :=
  tokenizes_sole (show (',', TokenKind.comma) ∈ soleMarks by decide) hgap rest

theorem tokenizes_dot (hgap : Spacing gap)
    (hrest : ∀ ch ∈ rest.head?, ch ≠ '.' ∧ CharClass.isDecimalDigit ch = false) :
    Tokenizes gap ['.'] rest { kind := .dot } := by
  apply Tokenizes.ofMark hgap _ (by decide)
  · intro c hcursor
    have hnone := punctuation?_point hcursor fun heq => (hrest '.' heq).1 rfl
    have hpoint : nextIs CharClass.isDecimalDigit (c.skip 1) = false := by
      unfold nextIs
      have hskip : (c.skip 1).rest = rest := by simp [skip, hcursor]
      rw [hskip]
      cases rest with
      | nil => rfl
      | cons ch rest => exact (hrest ch rfl).2
    unfold lexeme otherLexeme
    have hpoints : CharClass.isIdentifierStart '.' = false ∧ CharClass.isDecimalDigit '.' = false := by
      decide
    simp only [hcursor, hpoints, hnone, hpoint, Bool.false_eq_true, if_false]
    rfl
  · exact opens_cons (by decide) (by decide) (by decide) fun heq => absurd heq (by decide)

theorem tokenizes_less (hgap : Spacing gap) (hrest : ∀ ch ∈ rest.head?, ch ∉ ['<', '=', '/', '!']) :
    Tokenizes gap ['<'] rest { kind := .operator, operator := some .less } := by
  have hhead : ∀ ch ∈ ['<', '=', '/', '!'], rest.head? ≠ some ch := by
    intro ch hmem heq
    exact hrest ch heq hmem
  apply Tokenizes.ofMark hgap _ (by decide)
  · intro c hcursor
    apply lexeme_of_punctuation hcursor (by decide) (by decide)
    obtain ⟨_, index, line, lines, comments⟩ := c
    cases hcursor
    cases rest with
    | nil => rfl
    | cons ch rest =>
      have hne := hrest ch rfl
      simp only [List.mem_cons, List.not_mem_nil, or_false, not_or] at hne
      simp [punctuation?, spelledChars, spellings, Cursor.startsWith, Ne.symm hne.1, Ne.symm hne.2.1,
        Ne.symm hne.2.2.1]
      rfl
  · exact opens_cons (by decide) (by decide) (by decide) fun _ => hhead '!' (by decide)

/-- No gap begins with a name. -/
theorem opens_name {hash : Bool} {parts : List NamePart} (h : Named hash parts) :
    Opens (nameText hash parts ++ rest) := by
  cases hash with
  | true => exact opens_cons (by decide) (by decide) (by decide) fun heq => absurd heq (by decide)
  | false =>
    obtain ⟨ch, more, htext, hpart⟩ := isNamePart_head h
    have hnot : ∀ other ∈ '/' :: '<' :: spaces, ch ≠ other := by
      intro other hmem heq
      have hother : ∀ other ∈ '/' :: '<' :: spaces, isNamePart other = false := by decide +kernel
      rw [heq, hother other hmem] at hpart
      cases hpart
    have hspace : ∀ {kind : Char → Bool}, (kind ch = true → CharClass.isBlank ch = true ∨
        CharClass.isLineTerminator ch = true) → kind ch = false := by
      intro kind hkind
      rw [Bool.eq_false_iff]
      intro htrue
      exact hnot ch (List.mem_cons_of_mem _ (List.mem_cons_of_mem _ (mem_spaces (hkind htrue)))) rfl
    show Opens (NamePart.texts parts ++ rest)
    rw [htext]
    apply opens_cons (hspace Or.inl) (hspace Or.inr) (hnot '/' (by decide))
    intro heq
    exact absurd heq (hnot '<' (by decide))

/-- A name that is not reserved. -/
theorem tokenizes_name {hash : Bool} {parts : List NamePart} (hgap : Spacing gap) (h : Named hash parts)
    (hfree : hash = false → Keyword.isReserved (String.ofList (NamePart.chars parts)) = false)
    (hends : NameEnds rest) :
    Tokenizes gap (nameText hash parts) rest
      { kind := .identifier, text := String.ofList (NamePart.chars parts) } := by
  refine ⟨hgap, opens_name h, fun c hrest => ?_⟩
  obtain ⟨d, hpasses, hread⟩ := lexeme_of_parts h hrest hends
  refine ⟨d, ?_, hpasses⟩
  rw [hread]
  unfold nameVerdict
  cases hash with
  | true => rfl
  | false =>
    rw [hfree rfl]
    rfl

/-- Reserved words are spelled like names. -/
theorem named_of_reserved {word : String} (h : Keyword.isReserved word = true) :
    Named false (word.toList.map NamePart.plain) := by
  have hall : ∀ word ∈ Keyword.reserved, word.toList ≠ [] ∧
      word.toList.all CharClass.isIdentifierPart = true ∧
      word.toList.head?.all CharClass.isIdentifierStart = true := by decide +kernel
  obtain ⟨hne, hparts, hbegins⟩ := hall word (Keyword.isReserved_iff.mp h)
  refine ⟨fun part hmem => ?_, by simpa using hne, fun _ part hmem => ?_⟩
  · obtain ⟨ch, hch, rfl⟩ := List.mem_map.mp hmem
    exact List.all_eq_true.mp hparts ch hch
  · rw [List.head?_map] at hmem
    obtain ⟨ch, hch, rfl⟩ := Option.map_eq_some_iff.mp hmem
    rw [hch] at hbegins
    exact hbegins

/-- A reserved word, spelled without escapes. -/
theorem tokenizes_keyword {word : String} (hgap : Spacing gap) (hreserved : Keyword.isReserved word = true)
    (hends : NameEnds rest) :
    Tokenizes gap word.toList rest { kind := .keyword, text := word } := by
  have h := named_of_reserved hreserved
  have htexts : NamePart.texts (word.toList.map NamePart.plain) = word.toList := by
    simp [NamePart.texts, NamePart.text, List.flatMap_map]
  have hchars : String.ofList (NamePart.chars (word.toList.map NamePart.plain)) = word := by
    simp [NamePart.chars, NamePart.char, Function.comp_def]
  have hplain : (word.toList.map NamePart.plain).all NamePart.isPlain = true := by
    simp [NamePart.isPlain]
  rw [← htexts]
  refine ⟨hgap, opens_name h, fun c hrest => ?_⟩
  obtain ⟨d, hpasses, hread⟩ := lexeme_of_parts h hrest hends
  refine ⟨d, ?_, hpasses⟩
  rw [hread]
  unfold nameVerdict
  rw [hchars, hreserved, hplain]
  rfl

end Scan

open Scan

variable {before gap text rest : List Char} {l : Lexeme}

/-- The token is read, and the scanner stands behind it. -/
theorem Scanner.Passed.next {s : Scanner} (h : s.Passed before)
    (hrest : s.cursor.rest = gap ++ (text ++ rest)) (htoken : Tokenizes gap text rest l) :
    ∃ t : Scanner, s.next = (.ok (), t) ∧ t.Passed (before ++ gap ++ text) ∧ t.cursor.rest = rest ∧
      t.token = { l with span := Lines.spanOf (before ++ gap) text } ∧
      t.script.path = s.script.path ∧ t.script.content = s.script.content ∧
      t.script.valid = s.script.valid ∧ t.script.comments = s.script.comments := by
  obtain ⟨start, htrivia, hgap⟩ := trivia_spacing htoken.spacing htoken.opens hrest
  have hstart : start.rest = text ++ rest := List.append_cancel_left (hgap.rest.symm.trans hrest)
  obtain ⟨stop, hlexeme, htext⟩ := htoken.lexeme start hstart
  have hpasses := hgap.trans htext
  have hmoved := h.moveTo hpasses
  rw [← List.append_assoc] at hmoved
  have hspan := (h.behind.passes hgap).spanTo htext
  refine ⟨_, Scanner.next_of_lexeme htrivia hlexeme, hmoved.withToken _, ?_, ?_, rfl, rfl, rfl, ?_⟩
  · exact List.append_cancel_left (htext.rest.symm.trans hstart)
  · rw [hspan]
  · have hnoted : stop.passedComments = [] := by
      rw [hpasses.noted, h.commentsTaken]
      rfl
    simp [Scanner.moveTo, hnoted]

/-- A scanner of the script that has passed the beginning of the text. -/
def Scanner.behind (script : Script) (before rest : List Char) : Scanner where
  script
  cursor := { rest, index := Utf8.byteLength before, line := (Lines.ends 0 before).length + 1 }
  token := Token.initial

namespace Scanner.Passed

variable {s : Scanner} {before : List Char}

theorem behind_eq (h : s.Passed before) (token : Token) :
    { Scanner.behind s.script before s.cursor.rest with token } = { s with token } := by
  have hlines := h.linesTaken
  have hcomments := h.commentsTaken
  have hindex := h.behind.index
  have hline := h.behind.line
  obtain ⟨script, ⟨rest, index, line, lines, comments⟩, _⟩ := s
  dsimp only at hlines hcomments hindex hline
  subst hlines hcomments hindex hline
  rfl

theorem behind_passed (h : s.Passed before) :
    (Scanner.behind s.script before s.cursor.rest).Passed before := by
  have hbehind : Scanner.behind s.script before s.cursor.rest = { s with token := Token.initial } :=
    h.behind_eq Token.initial
  rw [hbehind]
  exact h.withToken _

/-- What is read next does not depend on what has been read. -/
theorem next_behind (h : s.Passed before)
    (hok : (Scanner.behind s.script before s.cursor.rest).next.1 = .ok ()) :
    s.next = (Scanner.behind s.script before s.cursor.rest).next := by
  have hbehind : Scanner.behind s.script before s.cursor.rest = { s with token := Token.initial } :=
    h.behind_eq Token.initial
  rw [hbehind] at hok ⊢
  unfold Scanner.next at hok ⊢
  dsimp only at hok ⊢
  cases htrivia : trivia s.cursor with
  | error failure =>
    rw [htrivia] at hok
    cases hok
  | ok start =>
    rw [htrivia] at hok
    dsimp only at hok ⊢
    cases hlexeme : lexeme start with
    | error failure =>
      rw [hlexeme] at hok
      cases hok
    | ok reading => rfl

end Scanner.Passed

/-- A token can be read there, whatever the script has noted so far. -/
def Scanner.Readable (front rest : List Char) : Prop :=
  ∀ script, (Scanner.behind script front rest).next.1 = .ok ()

namespace Scan

theorem scans_of_ok {script : Script} {front : List Char}
    (h : (Scanner.behind script front rest).next.1 = .ok ()) : Scanner.Readable front rest := by
  intro script'
  unfold Scanner.next at h ⊢
  cases htrivia : trivia (Scanner.behind script front rest).cursor with
  | error failure =>
    rw [htrivia] at h
    cases h
  | ok start =>
    rw [htrivia] at h
    have htrivia' : trivia (Scanner.behind script' front rest).cursor = .ok start := htrivia
    rw [htrivia']
    dsimp only at h ⊢
    cases hlexeme : lexeme start with
    | error failure =>
      rw [hlexeme] at h
      cases h
    | ok reading => rfl

theorem Tokenizes.scans (h : Tokenizes gap text rest l) (front : List Char) :
    Scanner.Readable front (gap ++ (text ++ rest)) := by
  intro script
  have hcursor : (Scanner.behind script front (gap ++ (text ++ rest))).cursor.rest =
      gap ++ (text ++ rest) := rfl
  obtain ⟨start, htrivia, hgap⟩ := trivia_spacing h.spacing h.opens hcursor
  obtain ⟨stop, hlexeme, -⟩ := h.lexeme start (List.append_cancel_left (hgap.rest.symm.trans hcursor))
  rw [Scanner.next_of_lexeme htrivia hlexeme]

end Scan

/-- The parser has read the beginning of its text, and what is left is still to be read. -/
structure ParserState.Behind (before rest : List Char) (s : ParserState) : Prop where
  passed : s.scanner.Passed before
  rest : s.scanner.cursor.rest = rest

namespace ParserState.Behind

variable {s : ParserState}

/-- The token in front of the rest is read. -/
theorem next (h : s.Behind before (gap ++ (text ++ rest))) (htoken : Tokenizes gap text rest l) :
    ∃ t, Parse.next s = .ok () t ∧ t.Behind (before ++ gap ++ text) rest ∧
      t.token = { l with span := Lines.spanOf (before ++ gap) text } ∧ t.previous = s.token ∧
      s.Keeps t ∧ t.script.comments = s.script.comments := by
  obtain ⟨scanner, hnext, hpassed, hrest, htoken, hpath, -, hvalid, hcomments⟩ :=
    h.passed.next h.rest htoken
  refine ⟨{ s with previous := s.token, scanner }, ?_, ⟨hpassed, hrest⟩, htoken, rfl,
    ⟨hpath, hvalid, rfl, rfl⟩, hcomments⟩
  show Parse.scan Scanner.next { s with previous := s.token } = _
  unfold Parse.scan
  rw [hnext]

end ParserState.Behind

namespace ParserState

variable {front : List Char} {s : ParserState}

/-- The parser has read the beginning of its text, and the first token of what is left. -/
def Faces (front rest : List Char) (s : ParserState) : Prop :=
  ∃ scanner : Scanner, scanner.Passed front ∧ scanner.cursor.rest = rest ∧
    scanner.next = (.ok (), s.scanner)

namespace Faces

theorem content (h : s.Faces front rest) : s.script.content = front ++ rest := by
  obtain ⟨scanner, hpassed, rfl, hnext⟩ := h
  exact (Scanner.next_keeps hnext).2.1.trans hpassed.content

/-- A problem that has been found says nothing of what is read. -/
theorem collect (h : s.Faces front rest) (problem : Problem) : (s.collect problem).Faces front rest := by
  obtain ⟨scanner, hpassed, hrest, hnext⟩ := h
  refine ⟨{ scanner with script := scanner.script.collect problem }, hpassed.withScript rfl rfl, hrest, ?_⟩
  obtain ⟨start, l, stop, htrivia, hlexeme, hread⟩ | ⟨failure, token, -, hread⟩ := scanner.next_cases
  · rw [hread] at hnext
    rw [Scanner.next_of_lexeme (s := { scanner with script := scanner.script.collect problem }) htrivia hlexeme]
    cases s
    cases hnext
    rfl
  · rw [hread] at hnext
    cases hnext

theorem behind (h : s.Faces front (gap ++ (text ++ rest))) (htoken : Tokenizes gap text rest l) :
    s.Behind (front ++ gap ++ text) rest ∧
      s.token = { l with span := Lines.spanOf (front ++ gap) text } := by
  obtain ⟨scanner, hpassed, hrest, hnext⟩ := h
  obtain ⟨t, hread, hbehind, hleft, hspan, -⟩ := hpassed.next hrest htoken
  obtain rfl : t = s.scanner := congrArg Prod.snd (hread.symm.trans hnext)
  exact ⟨⟨hbehind, hleft⟩, hspan⟩

end Faces

/-- Behind what has been read, the next token is read. -/
theorem Behind.faces (h : s.Behind front rest) (hscans : Scanner.Readable front rest) :
    ∃ t, Parse.next s = .ok () t ∧ t.Faces front rest ∧ t.previous = s.token ∧ s.Keeps t := by
  obtain ⟨hpassed, rfl⟩ := h
  have hok := hscans s.script
  have hscan : s.scanner.next = (.ok (), s.scanner.next.2) := by
    rw [hpassed.next_behind hok]
    exact Prod.ext hok rfl
  obtain ⟨hpath, -, hvalid⟩ := Scanner.next_keeps hscan
  refine ⟨s.advance, ?_, ⟨s.scanner, hpassed, rfl, hscan⟩, rfl, hpath, hvalid, rfl, rfl⟩
  rw [Parse.next_apply, hscan]

end ParserState

/-- A parser begins at the first token of its text. -/
theorem Parser.ofScript_faces (host : Host) (path : String) {source : String}
    (h : Scanner.Readable [] source.toList) :
    (Parser.ofScript host (Script.ofSource path source)).state.Faces [] source.toList ∧
      (ParserState.ofScript (Script.ofSource path source)).Keeps
        (Parser.ofScript host (Script.ofSource path source)).state := by
  have hbehind : (ParserState.ofScript (Script.ofSource path source)).Behind [] source.toList :=
    ⟨.ofSource path source, rfl⟩
  obtain ⟨t, hnext, hfaces, -, hkeeps⟩ := hbehind.faces h
  have hscan : Parse.scan Scanner.next (ParserState.ofScript (Script.ofSource path source)) =
    .ok () t := hnext
  have hstate : (Parser.ofScript host (Script.ofSource path source)).state = t := by
    unfold Parser.ofScript
    rw [hscan]
  rw [hstate]
  exact ⟨hfaces, hkeeps⟩

end ActionSyntax
