import ActionSyntax.Proofs.Answers
import ActionSyntax.Proofs.Chains.Reading
import ActionSyntax.Proofs.Shadows.Abreast
import ActionSyntax.Proofs.Shadows.Elementary

/-!
What stands around a piece of text. A parser of the whole reads the marks in front of the piece, goes
abreast with a parser of the piece alone, and reads on behind it.
-/

namespace ActionSyntax

set_option autoImplicit false

open Utf8 Parse

/-- The reading of a token leaves what it does not concern. -/
structure ParserState.Keeps (s t : ParserState) : Prop where
  path : t.script.path = s.script.path
  valid : t.script.valid = s.script.valid
  functions : t.functions = s.functions
  superFound : t.superFound = s.superFound

/-- A parser that has read the beginning of a text, up to a token that says this. -/
structure ParserState.Stands (whole read : List Char) (l : Lexeme) (s : ParserState) : Prop where
  content : s.script.content = whole
  passed : s.scanner.Passed read
  token : s.token.toLexeme = l

theorem ParserState.Keeps.trans {s t u : ParserState} (hst : s.Keeps t) (htu : t.Keeps u) : s.Keeps u :=
  ⟨htu.path.trans hst.path, htu.valid.trans hst.valid, htu.functions.trans hst.functions,
    htu.superFound.trans hst.superFound⟩

/-- At a cursor in front of the text, whatever it has counted, the text is read as the lexeme. -/
def Scan.Spells (text rest : List Char) (l : Lexeme) : Prop :=
  (∀ ch ∈ text, CharClass.isLineTerminator ch = false) ∧ ∀ index line lines comments,
    ∃ start stop, trivia ⟨text ++ rest, index, line, lines, comments⟩ = .ok start ∧
      lexeme start = .ok (l, stop) ∧ stop.rest = rest

section Next

open Scan

variable {s : ParserState} {read text rest : List Char} {l : Lexeme} {start stop : Cursor}

/-- A token is read from a cursor that has been followed. -/
theorem Parse.next_of_lexeme (hs : s.scanner.Passed read)
    (hrest : s.scanner.cursor.rest = text ++ rest)
    (hplain : ∀ ch ∈ text, CharClass.isLineTerminator ch = false)
    (htrivia : trivia s.scanner.cursor = .ok start) (hlexeme : lexeme start = .ok (l, stop))
    (hstop : stop.rest = rest) :
    ∃ t, Parse.next s = .ok () t ∧ t.Stands s.script.content (read ++ text) l ∧ s.Keeps t ∧
      t.previous = s.token ∧ t.token.span.firstLine = s.scanner.cursor.line ∧
      t.token.span.lastLine = s.scanner.cursor.line := by
  obtain ⟨text', notes, hp⟩ := lexeme_passes hs.behind htrivia hlexeme
  obtain rfl : text' = text := by
    have hrest' := hp.rest
    rw [hrest, hstop] at hrest'
    exact (List.append_cancel_right hrest').symm
  have hline : stop.line = s.scanner.cursor.line := by
    rw [hp.line, Lines.ends_of_forall_not hplain]
    rfl
  have hfirst : start.line = s.scanner.cursor.line := by
    have hcrosses := triviaEnd_crosses (s.scanner.cursor.rest.length + 1) hs.behind
    have hcovers := lexeme_covers start
    unfold trivia at htrivia
    rw [htrivia] at hcrosses
    rw [hlexeme] at hcovers
    obtain ⟨gap, notes, -, hgap⟩ := hcrosses
    obtain ⟨word, hword⟩ := hcovers
    have hbefore := hgap.line
    have hbetween : stop.line = start.line + _ := hword.line
    omega
  refine ⟨{ s with
      previous := s.token
      scanner := { s.scanner.moveTo stop with token := { l with span := start.spanTo stop } } },
    ?_, ⟨rfl, (hs.moveTo hp).withToken _, rfl⟩, ⟨rfl, rfl, rfl, rfl⟩, rfl, hfirst, hline⟩
  show Parse.scan Scanner.next { s with previous := s.token } = _
  unfold Parse.scan
  rw [Scanner.next_of_lexeme htrivia hlexeme]

theorem ParserState.Stands.cursor_rest {whole : List Char} (h : s.Stands whole read l)
    (hwhole : whole = read ++ rest) : s.scanner.cursor.rest = rest := by
  have hcontent : s.script.content = read ++ s.scanner.cursor.rest := h.passed.content
  rw [h.content, hwhole] at hcontent
  exact (List.append_cancel_left hcontent).symm

theorem ParserState.Stands.kind {whole : List Char} (h : s.Stands whole read l) :
    s.token.kind = l.kind := congrArg Lexeme.kind h.token

/-- Behind a token that has been read, the next one is read, on the same line. -/
theorem ParserState.Stands.next_line {whole : List Char} {l' : Lexeme} (h : s.Stands whole read l)
    (hspells : Spells text rest l') (hwhole : whole = read ++ text ++ rest) :
    ∃ t, Parse.next s = .ok () t ∧ t.Stands whole (read ++ text) l' ∧ s.Keeps t ∧
      t.previous = s.token ∧ t.token.span.firstLine = s.scanner.cursor.line ∧
      t.token.span.lastLine = s.scanner.cursor.line := by
  have hrest := h.cursor_rest (hwhole.trans (List.append_assoc ..))
  have hcursor : s.scanner.cursor = ⟨text ++ rest, s.scanner.cursor.index, s.scanner.cursor.line,
      s.scanner.cursor.passedLines, s.scanner.cursor.passedComments⟩ := by rw [← hrest]
  obtain ⟨hplain, hreads⟩ := hspells
  obtain ⟨start, stop, htrivia, hlexeme, hstop⟩ := hreads s.scanner.cursor.index
    s.scanner.cursor.line s.scanner.cursor.passedLines s.scanner.cursor.passedComments
  rw [← hcursor] at htrivia
  obtain ⟨t, hnext, hstands, hrest⟩ :=
    Parse.next_of_lexeme h.passed hrest hplain htrivia hlexeme hstop
  exact ⟨t, hnext, h.content ▸ hstands, hrest⟩

theorem ParserState.Stands.next {whole : List Char} {l' : Lexeme} (h : s.Stands whole read l)
    (hspells : Spells text rest l') (hwhole : whole = read ++ text ++ rest) :
    ∃ t, Parse.next s = .ok () t ∧ t.Stands whole (read ++ text) l' ∧ s.Keeps t ∧
      t.previous = s.token := by
  obtain ⟨t, hnext, hstands, hkeeps, hprevious, -⟩ := h.next_line hspells hwhole
  exact ⟨t, hnext, hstands, hkeeps, hprevious⟩

/-- Where no line has ended, the first one goes on. -/
theorem ParserState.Stands.line_one {whole : List Char} (h : s.Stands whole read l)
    (hplain : ∀ ch ∈ read, CharClass.isLineTerminator ch = false) : s.scanner.cursor.line = 1 := by
  rw [h.passed.behind.line, Lines.ends_of_forall_not hplain]
  rfl

/-- A blank in front of a token is passed. -/
theorem Scan.trivia_blank {c : Cursor} {ch : Char} (hc : c.rest = ch :: rest)
    (hblank : CharClass.isBlank ch = true) : trivia c = trivia c.advance := by
  have hadvance : c.advance.rest = rest := by
    unfold Cursor.advance
    rw [hc]
  have hstep : triviaStep? c = .ok (some c.advance) := by
    unfold triviaStep?
    rw [hc]
    exact if_pos hblank
  unfold trivia
  rw [hadvance, hc, List.length_cons, triviaEnd, hstep]
  rfl

theorem Scanner.next_blank {s : Scanner} {ch : Char} (hc : s.cursor.rest = ch :: rest)
    (hblank : CharClass.isBlank ch = true) :
    ({ s with cursor := s.cursor.advance } : Scanner).next = s.next := by
  unfold Scanner.next
  dsimp only
  rw [← trivia_blank hc hblank]
  cases trivia s.cursor with
  | error failure => rfl
  | ok start =>
    dsimp only
    cases lexeme start <;> rfl

/-- A blank is passed. -/
theorem Scanner.Passed.blank {s : Scanner} (h : s.Passed read) {ch : Char}
    (hrest : s.cursor.rest = ch :: rest) (hblank : CharClass.isBlank ch = true) :
    ({ s with cursor := s.cursor.advance } : Scanner).Passed (read ++ [ch]) ∧ s.cursor.advance.rest = rest := by
  have hends := CharClass.not_lineTerminator_of_blank hblank
  have hp := Cursor.passes_advance hrest hends
  refine ⟨⟨?_, h.behind.passes hp, ?_, ?_, ?_⟩, List.append_cancel_left (hp.rest.symm.trans hrest)⟩
  · rw [h.content, hp.rest, List.append_assoc]
  · rw [hp.lines, h.linesTaken, Lines.ends_of_forall_not (by simpa using hends)]
    rfl
  · rw [hp.noted, h.commentsTaken]
    rfl
  · have hplain : ∀ other ∈ [ch], CharClass.isLineTerminator other = false := by simpa using hends
    rw [h.lineStarts, Lines.starts, Lines.starts, h.behind.ends_passes hp,
      Lines.ends_of_forall_not hplain, List.append_nil]

/-- The blank behind a token might have been passed with it. -/
theorem ParserState.Stands.passBlank {whole rest : List Char} (h : s.Stands whole read l)
    (hwhole : whole = read ++ ' ' :: rest) :
    ∃ t, Parse.next t = Parse.next s ∧ t.Stands whole (read ++ [' ']) l ∧ s.Keeps t ∧
      t.token = s.token := by
  have hrest := h.cursor_rest hwhole
  refine ⟨{ s with scanner := { s.scanner with cursor := s.scanner.cursor.advance } }, ?_,
    ⟨h.content, (h.passed.blank hrest (by decide)).1, h.token⟩, ⟨rfl, rfl, rfl, rfl⟩, rfl⟩
  show Parse.scan Scanner.next _ = Parse.scan Scanner.next _
  unfold Parse.scan
  dsimp only
  rw [Scanner.next_blank hrest (by decide)]
  rfl

/-- The first token of a text. -/
theorem ParserState.ofScript_stands (host : Host) (path : String) {source : String}
    (hsource : source.toList = text ++ rest)
    (hplain : ∀ ch ∈ text, CharClass.isLineTerminator ch = false)
    (htrivia : trivia (Cursor.ofContent (text ++ rest)) = .ok start)
    (hlexeme : lexeme start = .ok (l, stop)) (hstop : stop.rest = rest) :
    (Parser.ofScript host (Script.ofSource path source)).state.Stands source.toList text l ∧
      (ParserState.ofScript (Script.ofSource path source)).Keeps
        (Parser.ofScript host (Script.ofSource path source)).state ∧
      (Parser.ofScript host (Script.ofSource path source)).state.token.span.firstLine = 1 ∧
      (Parser.ofScript host (Script.ofSource path source)).state.token.span.lastLine = 1 := by
  have hcursor : (ParserState.ofScript (Script.ofSource path source)).scanner.cursor =
      Cursor.ofContent (text ++ rest) := by
    rw [← hsource]
    rfl
  obtain ⟨t, hnext, hstands, hkeeps, -, hfirst, hlast⟩ :=
    Parse.next_of_lexeme (s := ParserState.ofScript (Script.ofSource path source))
      (Scanner.Passed.ofSource path source) (by rw [hcursor]; rfl) hplain (by rw [hcursor]; exact htrivia)
      hlexeme hstop
  have hstate : (Parser.ofScript host (Script.ofSource path source)).state = t := by
    have hscan : Parse.scan Scanner.next (ParserState.ofScript (Script.ofSource path source)) =
        .ok () t := hnext
    unfold Parser.ofScript
    rw [hscan]
  rw [hcursor] at hfirst hlast
  rw [hstate]
  exact ⟨hstands, hkeeps, hfirst, hlast⟩

end Next

section Steps

namespace Parse

variable {s t : ParserState}

theorem consumeIf_inv {condition : Token → Bool} {found : Bool}
    (h : consumeIf condition s = .ok found t) :
    (found = true ∧ condition s.token = true ∧ Parse.next s = .ok () t) ∨
      (found = false ∧ condition s.token = false ∧ t = s) := by
  unfold consumeIf at h
  rw [token_bind] at h
  split at h
  · rename_i htoken
    obtain ⟨_, u, hu, hf⟩ := bind_ok h
    cases hf
    exact Or.inl ⟨rfl, htoken, hu⟩
  · rename_i htoken
    cases h
    exact Or.inr ⟨rfl, by simpa using htoken, rfl⟩

theorem consume_inv {k : TokenKind} {found : Bool} (h : consume k s = .ok found t) :
    (found = true ∧ s.token.kind = k ∧ Parse.next s = .ok () t) ∨
      (found = false ∧ s.token.kind ≠ k ∧ t = s) := by
  refine (consumeIf_inv h).imp (fun ⟨hfound, hk, hnext⟩ => ⟨hfound, by simpa using hk, hnext⟩)
    fun ⟨hfound, hk, ht⟩ => ⟨hfound, by simpa using hk, ht⟩

theorem expect_inv {k : TokenKind} (h : expect k s = .ok () t) :
    s.token.kind = k ∧ Parse.next s = .ok () t := by
  obtain ⟨found, u, hfound, hrest⟩ := bind_ok h
  rcases consume_inv hfound with ⟨rfl, hk, hnext⟩ | ⟨rfl, -, -⟩
  · cases hrest
    exact ⟨hk, hnext⟩
  · cases hrest

end Parse

namespace Pairing

variable {P : Pairing} {s s' t u : ParserState}

/-- A token that is no end is taken by both parsers. -/
theorem taken (h : P.near s t) (hproper : s.token.kind ≠ .endOfProgram)
    (hnext : Parse.next s = .ok () s') (hgone : ¬ P.gone s') :
    ∃ t', Parse.next t = .ok () t' ∧ P.near s' t' := by
  have hgoes := P.next h (P.same_kind h hproper)
  rw [hnext] at hgoes
  generalize Parse.next t = q at hgoes
  cases hgoes with
  | ok value close => exact ⟨_, rfl, close⟩
  | lost gone => exact absurd gone hgone

/-- What closes a part of the first text, or the text itself, closes a part of the second. -/
theorem closing (h : P.near s t)
    (hs : s.token.kind.closes = true ∨ s.token.kind = .endOfProgram) :
    t.token.kind.closes = true ∨ t.token.kind = .endOfProgram := by
  rcases (P.sees h).token.kind with heq | ⟨-, hstops⟩
  · exact heq ▸ hs
  · exact Or.inl (P.closes hstops)

/-- What the first parser reads, the second one reads as well. -/
theorem read {α β : Type} {goes : α → β → Prop} {x : Parse α} {y : Parse β} {a : α}
    (hxy : Shadows P .tight goes x y) (h : P.near s t) (hread : x s = .ok a u) (hgone : ¬ P.gone u) :
    ∃ b v, y t = .ok b v ∧ P.near u v ∧ goes a b := by
  have hgoes := hxy.goes h
  rw [hread] at hgoes
  generalize y t = q at hgoes
  cases hgoes with
  | ok value close => exact ⟨_, _, rfl, close, value⟩
  | lost gone => exact absurd gone hgone

/-- From a gone state nothing but a gone one is reached. -/
theorem kept {α β : Type} {tier : Tier} {goes : α → β → Prop} {x : Parse α} {y : Parse β} {a : α}
    (hxy : Shadows P tier goes x y) (hread : x s = .ok a u) (hgone : ¬ P.gone u) : ¬ P.gone s :=
  fun hs => hgone (P.gone_rests hs (hxy.stays (P.gone_ended hs) hread))

end Pairing

namespace Fragment

variable {x : Fragment} {own other : Bool} {s t : ParserState}

/-- At the end of the piece, the parser of the whole has read the mark behind it. -/
theorem Near.stands_behind (h : x.Near own other s t) (hend : s.token.kind = .endOfProgram)
    {mark : Char} {rest : List Char} (hafter : x.after = mark :: rest) :
    t.Stands x.whole (x.before ++ x.piece ++ [mark]) (stopLexeme mark) := by
  rcases h.meets with hinside | hover
  · exact absurd (hinside.proper hend).2 (by simp [hafter])
  · obtain ⟨mark', rest', hafter', hpassed, hlexeme⟩ := hover.beyond
    rw [hafter] at hafter'
    cases hafter'
    exact ⟨hover.whole, hpassed, hlexeme⟩

/-- Where nothing follows the piece, both parsers are at the end together. -/
theorem Near.ends_together (h : x.Near own other s t) (hend : s.token.kind = .endOfProgram)
    (hafter : x.after = []) : t.token.kind = .endOfProgram := by
  rcases h.meets with hinside | hover
  · have htoken : t.token = _ := hinside.token
    rw [htoken]
    exact hend
  · obtain ⟨mark, rest, hcons, -⟩ := hover.beyond
    rw [hafter] at hcons
    cases hcons

/-- Only a comma is read as one. -/
theorem stopLexeme_ne_comma {mark : Char} (h : mark ≠ ',') : (stopLexeme mark).kind ≠ .comma := by
  unfold stopLexeme
  dsimp only
  rw [if_neg h]
  split
  · decide
  split
  · decide
  split <;> decide

end Fragment

/-- Where no comma is put behind a piece, there is none. -/
theorem Excerpt.tells_comma {x : Excerpt} {own other : Bool} {tier : Tier} (hafter : x.after.head? ≠ some ',') :
    (x.pairing own other).Tells tier fun t => t.kind == .comma := by
  refine Pairing.tells_of_not_stops ?_
  rintro ⟨mark, rest, hcons, hmark⟩
  refine Fragment.stopLexeme_ne_comma ?_ hmark
  rintro rfl
  exact hafter (by rw [hcons]; rfl)


end Steps

section Marks

open Scan

theorem leftParen_lexeme (rest : List Char) :
    lexeme (Cursor.ofContent (['('] ++ rest)) = .ok ({ kind := .leftParen }, ⟨rest, 1, 1, [], []⟩) := rfl

theorem leftParen_spells (rest : List Char) : Spells ['('] rest { kind := .leftParen } :=
  ⟨AllNarrow.plain (by decide), fun _ _ _ _ => ⟨_, _, rfl, rfl, rfl⟩⟩

theorem blankLeftParen_spells (rest : List Char) : Spells [' ', '('] rest { kind := .leftParen } :=
  ⟨AllNarrow.plain (by decide), fun _ _ _ _ => ⟨_, _, rfl, rfl, rfl⟩⟩

theorem leftBrace_spells (rest : List Char) : Spells [' ', '{'] rest { kind := .leftBrace } :=
  ⟨AllNarrow.plain (by decide), fun _ _ _ _ => ⟨_, _, rfl, rfl, rfl⟩⟩

/-- An arrow behind a closing parenthesis. -/
def arrowText : List Char := [' ', '-', '>']

theorem arrowText_spells (rest : List Char) : Spells arrowText (' ' :: rest) { kind := .arrow } :=
  ⟨AllNarrow.plain (by decide), fun _ _ _ _ => ⟨_, _, rfl, rfl, rfl⟩⟩

theorem endOfProgram_spells : Spells [] [] { kind := .endOfProgram } :=
  ⟨AllNarrow.plain (by decide), fun _ _ _ _ => ⟨_, _, rfl, rfl, rfl⟩⟩

end Marks

section Blocks

variable {s : ParserState} {whole read close : List Char}

/-- Where a parser stands is a matter of the text alone. -/
theorem ParserState.Stands.noted {l : Lexeme} (h : s.Stands whole read l) (functions : List FunctionUse)
    (superFound : Bool) : ({ s with functions, superFound } : ParserState).Stands whole read l :=
  ⟨h.content, h.passed, h.token⟩

/-- A block without statements that ends the text. -/
theorem Rules.blockRule_empty (h : s.Stands whole read { kind := .leftBrace })
    (hclose : Scan.Spells close [] { kind := .rightBrace }) (hwhole : whole = read ++ close) (r : Rules)
    (context : Context) : ∃ block t, r.blockRule context s = .ok block t ∧
      Matches { span := default, statements := [] } block ∧ t.token.kind = .endOfProgram ∧
      s.Keeps t := by
  have hstart := h.noted s.functions false
  obtain ⟨t, hnext, hstands, hkeeps, -⟩ := hstart.next hclose (by rw [hwhole, List.append_nil])
  obtain ⟨u, hnext', hstands', hkeeps', -⟩ := hstands.next endOfProgram_spells
    (by rw [hwhole, List.append_nil, List.append_nil])
  have hkept := hkeeps.trans hkeeps'
  refine ⟨{ span := (Mark.ofSpan s.token.span).«to» u.previous.span, statements := [] },
    { u with superFound := s.superFound }, ?_, rfl, hstands'.kind,
    ⟨hkept.path, hkept.valid, hkept.functions, rfl⟩⟩
  have hopen : expect .leftBrace { s with superFound := false } = .ok () t := expect_yes h.kind hnext
  have hstatements : r.blockStatements context r.rounds t = .ok [] t := by
    unfold rounds blockStatements
    rw [at?_bind, hstands.kind]
    rfl
  unfold blockRule freshSuper
  rw [mark_bind, bind_of_ok hopen, bind_of_ok hstatements, bind_of_ok (expect_yes hstands.kind hnext'),
    finish_bind]
  rfl

/-- A body leaves the functions around it as they are. -/
theorem Parse.inFunction_of {α : Type} {body : Parse α} {value : α} {t : ParserState}
    (hbody : body { s with functions := {} :: s.functions } = .ok value t)
    (hkept : t.functions = {} :: s.functions) :
    inFunction body s = .ok (value, {}) { t with functions := s.functions } := by
  show (body >>= fun value => popFunction >>= fun use => pure (value, use))
    { s with functions := {} :: s.functions } = _
  rw [bind_of_ok hbody]
  show EStateM.Result.ok (value, (t.functions.head?.getD {} : FunctionUse))
    { t with functions := t.functions.tail } = _
  rw [hkept]
  rfl

end Blocks

section Wholes

variable {α : Type} {construct : Rules → Parse α} {value : α} {s : ParserState} {host : Host}
  {path source : String}

/-- The rules of a level for texts that the host reads. -/
abbrev Host.level (host : Host) (n : Nat) : Rules :=
  Rules.level host.readFile (Rules.includeAt host.readFile host.includeDepth) n

theorem Host.level_optExpr (host : Host) (n : Nat) :
    (host.level (n + 1)).optExpr = (host.level n).optExprRule := rfl

theorem Host.level_statement (host : Host) (n : Nat) :
    (host.level (n + 1)).statement = (host.level n).statementRule := rfl

theorem Host.level_rounds (host : Host) (n : Nat) : (host.level n).rounds = n + 2 :=
  congrArg (· + 2) (Rules.level_depth n)

/-- The construct takes up the whole text, whether or not problems have been found in it. -/
structure Parser.Spans (p : Parser) (construct : Rules → Parse α) (value : α) (s : ParserState) :
    Prop where
  valid : p.script.isValid = true
  read : construct (Rules.ofHost p.host p.script) p.state = .ok value s
  ends : s.token.kind = .endOfProgram

theorem Parser.run_of_spans {p : Parser} (h : p.Spans construct value s) :
    p.run construct = (if s.script.isValid then some value else none, { p with state := s }) := by
  unfold Parser.run
  rw [h.valid, Parser.toEnd_ok_iff.mpr ⟨h.read, h.ends⟩]
  rfl

theorem Parser.spans_of_run {p : Parser} (h : (p.run construct).1 = some value) :
    ∃ s, p.Spans construct value s ∧ s.script.isValid = true := by
  obtain ⟨s, hvalid, hread, hend, hs⟩ := Parser.run_eq_some_iff.mp h
  exact ⟨s, ⟨hvalid, hread, hend⟩, hs⟩

/-- A construct that takes up a text begins with its first token and ends with the text. -/
theorem Parser.Spans.from_first
    (h : (Parser.ofScript host (Script.ofSource path source)).Spans construct value s) :
    ∃ first, Parse.scan Scanner.next (ParserState.ofScript (Script.ofSource path source)) =
        .ok () first ∧
      construct (host.level (source.toList.length + 3)) first = .ok value s ∧ s.token.kind = .endOfProgram := by
  obtain ⟨hvalid, hread, hend⟩ := h
  obtain ⟨start, l, stop, -, -, hnext⟩ | ⟨failure, token, -, hnext⟩ :=
    (ParserState.ofScript (Script.ofSource path source)).scanner.next_cases
  case inr =>
    -- A text whose first token cannot be read is not valid.
    have hstate : (Parser.ofScript host (Script.ofSource path source)).script.isValid = false := by
      unfold Parser.script Parser.ofScript Parse.scan
      rw [hnext]
      rfl
    rw [hstate] at hvalid
    cases hvalid
  obtain ⟨first, hscan, hcontent⟩ : ∃ first : ParserState,
      Parse.scan Scanner.next (ParserState.ofScript (Script.ofSource path source)) = .ok () first ∧
        first.script.content = source.toList := by
    unfold Parse.scan
    rw [hnext]
    exact ⟨_, rfl, rfl⟩
  have hstate : (Parser.ofScript host (Script.ofSource path source)).state = first := by
    unfold Parser.ofScript
    rw [hscan]
  have hrules : Rules.ofHost host first.script = host.level (source.toList.length + 3) := by
    unfold Rules.ofHost Rules.levelFor
    rw [hcontent]
  rw [Parser.script, hstate] at hread
  exact ⟨first, hscan, hrules ▸ hread, hend⟩

theorem Parser.rules_of_content
    (hcontent : (Parser.ofScript host (Script.ofSource path source)).state.script.content =
      source.toList) :
    Rules.ofHost host (Parser.ofScript host (Script.ofSource path source)).script =
      host.level (source.toList.length + 3) := by
  unfold Rules.ofHost Rules.levelFor Parser.script
  rw [hcontent]

/-- A parser that reads a construct from its first token to the end of the text. -/
theorem Parser.spans_of_read
    (hcontent : (Parser.ofScript host (Script.ofSource path source)).state.script.content =
      source.toList)
    (hvalid : (Parser.ofScript host (Script.ofSource path source)).state.script.valid = true)
    (hread : construct (host.level (source.toList.length + 3))
      (Parser.ofScript host (Script.ofSource path source)).state = .ok value s)
    (hend : s.token.kind = .endOfProgram) :
    (Parser.ofScript host (Script.ofSource path source)).Spans construct value s := by
  refine ⟨hvalid, ?_, hend⟩
  show construct (Rules.ofHost host _) _ = _
  rw [Parser.rules_of_content hcontent]
  exact hread

theorem Parser.Spans.read_level
    (h : (Parser.ofScript host (Script.ofSource path source)).Spans construct value s)
    (hcontent : (Parser.ofScript host (Script.ofSource path source)).state.script.content =
      source.toList) :
    construct (host.level (source.toList.length + 3))
      (Parser.ofScript host (Script.ofSource path source)).state = .ok value s :=
  (congrArg (construct · _) (Parser.rules_of_content hcontent)).symm.trans h.read

/-- No comment runs from the text on into what is put behind it. -/
def ParserState.Closed (text : List Char) (s : ParserState) : Prop :=
  ∀ comment ∈ s.script.comments, comment.multiLine = false → comment.span.stop ≠ byteLength text

theorem ParserState.closed_of_comments (h : s.script.comments = #[]) (text : List Char) :
    s.Closed text := by
  intro comment hmem
  rw [h] at hmem
  exact absurd hmem (by simp)

theorem ParserState.Closed.not_gone {x : Passage} (h : s.Closed x.own) : ¬ x.Gone s := by
  rintro ⟨-, -, comment, hmem, hline, hstop⟩
  exact h comment hmem hline hstop

theorem Passage.not_gone_of_last {x : Passage} (h : x.after = []) : ¬ x.Gone s := by
  rintro ⟨⟨ch, hch, -⟩, -, -⟩
  rw [h] at hch
  cases hch

end Wholes

section Start

namespace Fragment

variable {x : Fragment} {own other : Bool} {path : String} {s t : ParserState} {l : Lexeme}

/-- Two parsers in front of the first token of the piece. -/
structure Enters (x : Fragment) (own other : Bool) (s t : ParserState) : Prop where
  aligned : x.Aligned s.scanner t.scanner
  previous : s.previous.Like t.previous
  behindBrace : (s.previous.kind == .rightBrace) = (t.previous.kind == .rightBrace)
  previousLines : x.Layered → 1 ≤ s.previous.span.firstLine ∧
    t.previous.span.firstLine = s.previous.span.firstLine + x.lines ∧
    t.previous.span.lastLine = s.previous.span.lastLine + x.lines
  functions : x.Layered → s.functions = t.functions
  superFound : x.Layered → s.superFound = t.superFound
  path : s.script.path = t.script.path
  valid : (own && s.script.valid) = (other && t.script.valid)

/-- The parser of the piece reads its first token, and so does the parser of the whole. -/
theorem Enters.goes (h : x.Enters own other s t) :
    Goes (x.Near own other) x.Gone Eq (Parse.scan Scanner.next s) (Parse.scan Scanner.next t) := by
  refine scan_goes fun hok => ?_
  rcases next_meets h.aligned hok with ⟨hok', hmeets⟩ | hgone
  · obtain ⟨hpath, -, hvalid⟩ := Scanner.next_keeps (Prod.ext hok rfl)
    obtain ⟨hpath', -, hvalid'⟩ := Scanner.next_keeps (Prod.ext hok' rfl)
    refine Or.inl ⟨hok', hmeets, h.previous, h.behindBrace, h.previousLines, h.functions, h.superFound,
      hpath.trans (h.path.trans hpath'.symm), ?_⟩
    exact (congrArg (own && ·) hvalid).trans (h.valid.trans (congrArg (other && ·) hvalid').symm)
  · exact Or.inr (hgone _ rfl)

/-- A mark says no more than that nothing has been read. -/
theorem initial_like {l : Lexeme} (h : t.token.toLexeme = l) (hmark : l = { kind := l.kind })
    (hkind : l.kind.isMark = true) : Token.initial.Like t.token := by
  have hkind' : t.token.kind = l.kind := congrArg Lexeme.kind h
  refine ⟨Or.inr ⟨rfl, by rw [hkind']; exact hkind⟩, ?_, ?_, ?_, ?_, fun hname => by cases hname⟩
  · rw [show t.token.text = t.token.toLexeme.text from rfl, h, hmark]
    rfl
  · rw [show t.token.number = t.token.toLexeme.number from rfl, h, hmark]
    rfl
  · rw [show t.token.flags = t.token.toLexeme.flags from rfl, h, hmark]
    rfl
  · rw [show t.token.operator = t.token.toLexeme.operator from rfl, h, hmark]
    rfl

/-- The parser of the whole reads on from the mark in front of the piece. -/
theorem Near.start {source : String} {first : ParserState} (h : t.Stands x.whole x.before l)
    (hpath : t.script.path = path) (hvalid : own = (other && t.script.valid))
    (hmark : l = { kind := l.kind }) (hkind : l.kind.isMark = true) (hbrace : l.kind ≠ .rightBrace)
    (hlayered : x.Layered → x.lines = 0 ∧ t.token.span.firstLine = 1 ∧ t.token.span.lastLine = 1 ∧
      t.functions = [] ∧ t.superFound = false)
    (hlead : x.lead = []) (hpiece : x.piece = source.toList)
    (hscan : Parse.scan Scanner.next (ParserState.ofScript (Script.ofSource path source)) =
      .ok () first)
    (hgone : ¬ x.Gone first) : ∃ t', Parse.next t = .ok () t' ∧ x.Near own other first t' := by
  have hpassed : (Scanner.ofScript (Script.ofSource path source)).Passed x.lead := by
    rw [hlead]
    exact .ofSource path source
  have hown : source.toList = x.own := by rw [Passage.own, hlead, hpiece, List.nil_append]
  have henters : x.Enters own other (ParserState.ofScript (Script.ofSource path source))
      { t with previous := t.token } := by
    refine ⟨.start hpassed hown h.passed (h.cursor_rest (List.append_assoc ..)),
      initial_like h.token hmark hkind, ?_, fun hl => ?_, fun hl => ?_, fun hl => ?_, hpath.symm, ?_⟩
    · show false = (t.token.kind == .rightBrace)
      rw [h.kind]
      exact (beq_eq_false_iff_ne.mpr hbrace).symm
    · obtain ⟨hlines, hfirst, hlast, -, -⟩ := hlayered hl
      rw [hlines]
      exact ⟨Nat.le_refl 1, hfirst, hlast⟩
    · exact (hlayered hl).2.2.2.1.symm
    · exact (hlayered hl).2.2.2.2.symm
    · exact (Bool.and_true own).trans hvalid
  have hgoes := henters.goes
  rw [hscan] at hgoes
  show ∃ t', Parse.scan Scanner.next { t with previous := t.token } = .ok () t' ∧ _
  generalize Parse.scan Scanner.next { t with previous := t.token } = q at hgoes
  cases hgoes with
  | ok value close => exact ⟨_, rfl, close⟩
  | lost gone => exact absurd gone hgone

/-- A piece in parentheses behind the word with which a text begins. -/
theorem Near.ofScript_worded (host : Host) {path source piece : String} {word : List Char} {l : Lexeme}
    {start stop : Cursor} {first : ParserState} (hsource : source.toList = x.whole)
    (hbefore : x.before = word ++ [' ', '(']) (hplain : AllNarrow x.before)
    (htrivia : Scan.trivia (Cursor.ofContent (word ++ ([' ', '('] ++ (x.piece ++ x.after)))) = .ok start)
    (hlexeme : Scan.lexeme start = .ok (l, stop)) (hstop : stop.rest = [' ', '('] ++ (x.piece ++ x.after))
    (hlead : x.lead = []) (hpiece : x.piece = piece.toList)
    (hscan : Parse.scan Scanner.next (ParserState.ofScript (Script.ofSource path piece)) = .ok () first)
    (hgone : ¬ x.Gone first) :
    (Parser.ofScript host (Script.ofSource path source)).state.Stands source.toList word l ∧
      (ParserState.ofScript (Script.ofSource path source)).Keeps
        (Parser.ofScript host (Script.ofSource path source)).state ∧
      ∃ t₁ t, Parse.next (Parser.ofScript host (Script.ofSource path source)).state = .ok () t₁ ∧
        t₁.token.kind = .leftParen ∧ Parse.next t₁ = .ok () t ∧ x.Near true true first t := by
  have hword : AllNarrow word := fun ch hch => hplain ch (by simp [hbefore, hch])
  have hmark : source.toList = word ++ ([' ', '('] ++ (x.piece ++ x.after)) := by
    simp [hsource, hbefore, Passage.whole]
  obtain ⟨hstands, hkeeps, -⟩ := ParserState.ofScript_stands host path hmark hword.plain htrivia hlexeme hstop
  obtain ⟨t₁, hnext₁, hstands₁, hkeeps₁, -, hfirst, hlast⟩ := hstands.next_line
    (blankLeftParen_spells (x.piece ++ x.after)) (hmark.trans (List.append_assoc ..).symm)
  rw [hstands.line_one hword.plain] at hfirst hlast
  have hkept := hkeeps.trans hkeeps₁
  have hvalid : true = (true && t₁.script.valid) := by
    rw [hkept.valid]
    rfl
  have hstart : t₁.Stands x.whole x.before { kind := .leftParen } := by
    rw [← hsource, hbefore]
    exact hstands₁
  have hlines : x.lines = 0 := by
    rw [Passage.lines, Lines.ends_of_forall_not hplain.plain]
    rfl
  obtain ⟨t, hnext, hnear⟩ := Near.start hstart hkept.path hvalid rfl rfl (by decide)
    (fun _ => ⟨hlines, hfirst, hlast, hkept.functions, hkept.superFound⟩) hlead hpiece hscan hgone
  exact ⟨hstands, hkeeps, t₁, t, hnext₁, hstands₁.kind, hnext, hnear⟩

end Fragment

end Start

end ActionSyntax
