import ActionSyntax.Parser
import ActionSyntax.Proofs.Elementary
import ActionSyntax.Proofs.ScanAmid

/-!
The words of operator chains, their spellings on one line, and how a parser moves over them.
-/

namespace ActionSyntax

set_option autoImplicit false

namespace Scan

/-- The lexeme that a text is as a whole. -/
def whole? (text : List Char) : Option Lexeme :=
  match lexeme (Cursor.ofContent text) with
  | .ok (l, c) => if c.rest.isEmpty then some l else none
  | .error _ => none

theorem whole?_lexeme {text : List Char} {l : Lexeme} (h : whole? text = some l) :
    ∃ c, lexeme (Cursor.ofContent text) = .ok (l, c) ∧ c.rest = [] := by
  unfold whole? at h
  split at h
  · rename_i hl
    split at h
    · rename_i hempty
      cases h
      exact ⟨_, hl, List.isEmpty_iff.mp hempty⟩
    · cases h
  · cases h

/-- The characters between tokens: blanks and line terminators. -/
def separators : List Char :=
  [' ', '\t', '\x0b', '\x0c', '\u00a0', '\n', '\r', '\u2028', '\u2029']

theorem mem_separators {ch : Char}
    (h : CharClass.isBlank ch = true ∨ CharClass.isLineTerminator ch = true) :
    ch ∈ separators := by
  simp only [CharClass.isBlank, CharClass.isLineTerminator, Bool.or_eq_true, beq_iff_eq] at h
  rcases h with ((((h | h) | h) | h) | h) | (((h | h) | h) | h) <;> simp [separators, h]

/-- No lexeme begins with a blank or a line terminator. -/
theorem lexeme_separator {c : Cursor} {ch : Char} {rest : List Char} (hc : c.rest = ch :: rest)
    (hch : CharClass.isBlank ch = true ∨ CharClass.isLineTerminator ch = true) :
    lexeme c = .error (.unexpected c) := by
  have hclass : (separators.all fun ch => decide (
      CharClass.isIdentifierStart ch = false ∧ CharClass.isDecimalDigit ch = false ∧
        (∀ entry ∈ spelledChars, entry.1.head? ≠ some ch ∧ entry.1 ≠ []) ∧
        ch ≠ '.' ∧ ch ≠ '"' ∧ ch ≠ '\'' ∧ ch ≠ '#' ∧ ch ≠ '\\')) = true := by decide +kernel
  obtain ⟨hstart, hdigit, hspelled, hpoint, hdouble, hsingle, hhash, hslash⟩ :=
    of_decide_eq_true (List.all_eq_true.mp hclass ch (mem_separators hch))
  have hmark : punctuation? c = none := by
    unfold punctuation?
    rw [Option.map_eq_none_iff, List.find?_eq_none]
    intro entry hentry
    obtain ⟨hhead, hne⟩ := hspelled entry hentry
    cases he : entry.1 with
    | nil => exact absurd he hne
    | cons first more =>
      rw [he] at hhead
      have : first ≠ ch := by simpa using hhead
      simp [Cursor.startsWith, hc, List.isPrefixOf, this]
  unfold lexeme
  simp [hc, hstart, hdigit, hmark, otherLexeme, hpoint, hdouble, hsingle, hhash, hslash]

/-- What a whole text of a lexeme begins with. -/
theorem whole?_begins {text : List Char} {l : Lexeme} (h : whole? text = some l)
    (hend : l.kind ≠ .endOfProgram) :
    ∃ ch rest, text = ch :: rest ∧ CharClass.isBlank ch = false ∧
      CharClass.isLineTerminator ch = false := by
  obtain ⟨c, hl, _⟩ := whole?_lexeme h
  cases text with
  | nil =>
    cases hl
    exact absurd rfl hend
  | cons ch rest =>
    refine ⟨ch, rest, rfl, ?_, ?_⟩
    · refine Bool.eq_false_iff.mpr fun hch => ?_
      rw [lexeme_separator rfl (Or.inl hch)] at hl
      cases hl
    · refine Bool.eq_false_iff.mpr fun hch => ?_
      rw [lexeme_separator rfl (Or.inr hch)] at hl
      cases hl

/-- A whole text of a lexeme does not begin with a comment. -/
theorem whole?_comment {text : List Char} {l : Lexeme} (h : whole? text = some l) :
    comment? (Cursor.ofContent text) = .ok none := by
  obtain ⟨c, hl, hc⟩ := whole?_lexeme h
  have hmarks : ∀ mark ∈ [['<', '!', '-', '-'], ['/', '*'], ['/', '/']],
      (Cursor.ofContent text).startsWith mark = false := by
    intro mark hmark
    refine Bool.eq_false_iff.mpr fun hs => ?_
    obtain ⟨rest, rfl⟩ := List.isPrefixOf_iff_prefix.mp hs
    simp only [List.mem_cons, List.not_mem_nil, or_false] at hmark
    rcases hmark with rfl | rfl | rfl
    · cases hl
      cases hc
    · cases hl
      cases hc
    · cases hl
      cases hc
  exact comment?_eq_none.mpr ⟨hmarks _ (by simp), hmarks _ (by simp), hmarks _ (by simp)⟩
/-- Spaces are passed up to where nothing between tokens stands. -/
theorem triviaEnd_spaces {rest : List Char} : ∀ {k fuel : Nat} {c : Cursor}, k < fuel →
    c.rest = List.replicate k ' ' ++ rest → triviaStep? (c.skip k) = .ok none →
      triviaEnd fuel c = .ok (c.skip k)
  | 0, fuel + 1, c, _, _, hstep => by
    have hskip : c.skip 0 = c := rfl
    rw [hskip] at hstep ⊢
    unfold triviaEnd
    rw [hstep]
    rfl
  | k + 1, fuel + 1, c, hfuel, hc, hstep => by
    have hcons : c.rest = ' ' :: (List.replicate k ' ' ++ rest) := by
      rw [hc, List.replicate_succ, List.cons_append]
    have hblank : triviaStep? c = .ok (some c.advance) := by
      unfold triviaStep?
      rw [hcons]
      rfl
    have hadvance : c.advance = { c with
        rest := List.replicate k ' ' ++ rest, index := c.index + 1 } := by
      unfold Cursor.advance
      rw [hcons]
      rfl
    have hskip : c.advance.skip k = c.skip (k + 1) := by
      rw [hadvance]
      simp only [Cursor.skip, hcons, List.drop_succ_cons, Nat.add_assoc, Nat.add_comm 1 k]
    have hmore : triviaEnd fuel c.advance = .ok (c.advance.skip k) :=
      triviaEnd_spaces (by omega) (by rw [hadvance]) (by rw [hskip]; exact hstep)
    rw [hskip] at hmore
    unfold triviaEnd
    rw [hblank]
    exact hmore

theorem trivia_spaces {rest : List Char} {k : Nat} {c : Cursor}
    (hc : c.rest = List.replicate k ' ' ++ rest) (hstep : triviaStep? (c.skip k) = .ok none) :
    trivia c = .ok (c.skip k) := by
  refine triviaEnd_spaces ?_ hc hstep
  rw [hc, List.length_append, List.length_replicate]
  omega

/-- A piece on one line. -/
def onLine (offset line : Nat) (tail : List Char) : Surroundings where
  place c := { rest := c.rest ++ tail, index := c.index + offset, line }
  offset
  tail
  rest _ := rfl
  index _ := rfl
  skip {c n} h := by
    simp only [Cursor.skip, List.drop_append_of_le_length h, Nat.add_right_comm]
  advance {c} h := by
    obtain ⟨ch, rest, hc⟩ := List.exists_cons_of_ne_nil h
    simp [Cursor.advance, hc, Nat.add_right_comm]

/-- In front of a lexeme nothing is passed. -/
theorem triviaStep?_whole {text : List Char} {l : Lexeme} (h : whole? text = some l)
    (hend : l.kind ≠ .endOfProgram) {a : Surroundings} (ha : a.Parted) :
    triviaStep? ((Cursor.ofContent text).amid a) = .ok none := by
  obtain ⟨ch, rest, rfl, hblank, hline⟩ := whole?_begins h hend
  have hmarks := comment?_none_amid ha (whole?_comment h)
  have hnewline : ((Cursor.ofContent (ch :: rest)).amid a).newline? = none := by
    have hreturn : ch ≠ '\r' := fun he => by
      subst he
      exact absurd hline (by decide)
    unfold Cursor.newline?
    rw [Cursor.amid_rest]
    simp only [Cursor.ofContent, List.cons_append]
    split
    · rename_i heq
      cases heq
    · rename_i heq
      exact absurd (List.cons.inj heq).1 hreturn
    · rename_i first more _ heq
      obtain ⟨rfl, rfl⟩ := List.cons.inj heq
      rw [hline]
      rfl
  unfold triviaStep?
  rw [Cursor.amid_rest]
  simp only [Cursor.ofContent, List.cons_append, hblank, Bool.false_eq_true, if_false]
  have hcursor : Cursor.ofContent (ch :: rest) = { rest := ch :: rest, index := 0, line := 1 } := rfl
  rw [← hcursor, hnewline]
  exact hmarks

end Scan

namespace Operator

/-- The operators in front of an operand that chains may have. -/
def fronts : List Operator := [.negate, .positive, .logicalNot, .bitwiseNot, .typeOf, .void]

/-- The operators between two operands. -/
def betweens : List Operator :=
  [.add, .subtract, .multiply, .divide, .remainder, .power, .logicalAnd, .logicalXor, .logicalOr,
   .nullCoalescing, .bitwiseAnd, .bitwiseXor, .bitwiseOr, .shiftLeft, .shiftRight,
   .shiftRightUnsigned, .equal, .notEqual, .strictEqual, .strictNotEqual, .less, .greater,
   .lessOrEqual, .greaterOrEqual, .within]

theorem mem_betweens {op : Operator} :
    op ∈ betweens ↔ (OperatorRule.binaryLevels? op).isSome = true ∨ op = .within := by
  cases op <;> decide

end Operator

/-- A word of a chain. A sign is told from a sum by where it stands. -/
inductive ChainWord where
  | name (n : String)
  | number (v : Double)
  | front (op : Operator)
  | between (op : Operator)
  | opening
  | closing

namespace ChainWord

/-- The texts of a word. -/
def Spelling : ChainWord → List Char → Prop
  | .name n, text => Scan.whole? text = some { kind := .identifier, text := n }
  | .number v, text => Scan.whole? text = some { kind := .number, number := v }
  | .front op, text => op ∈ Operator.fronts ∧ text = op.symbol.toList
  | .between op, text => op ∈ Operator.betweens ∧ text = op.symbol.toList
  | .opening, text => text = ['(']
  | .closing, text => text = [')']

/-- How a sign or a word in front of an operand is read. -/
def frontLexeme : Operator → Lexeme
  | .negate => { kind := .operator, operator := some .subtract }
  | .positive => { kind := .operator, operator := some .add }
  | .logicalNot => { kind := .exclamationMark }
  | .bitwiseNot => { kind := .operator, operator := some .bitwiseNot }
  | op => { kind := .keyword, text := op.symbol }

def betweenLexeme : Operator → Lexeme
  | .within => { kind := .keyword, text := "in" }
  | op => { kind := .operator, operator := some op }

theorem betweenLexeme_of_ne {op : Operator} (h : op ≠ .within) :
    betweenLexeme op = { kind := .operator, operator := some op } := by
  unfold betweenLexeme
  split
  · exact absurd rfl h
  · rfl

theorem betweenLexeme_kind_ne (op : Operator) : (betweenLexeme op).kind ≠ .colon := by
  cases op <;> decide

def lexeme : ChainWord → Lexeme
  | .name n => { kind := .identifier, text := n }
  | .number v => { kind := .number, number := v }
  | .front op => frontLexeme op
  | .between op => betweenLexeme op
  | .opening => { kind := .leftParen }
  | .closing => { kind := .rightParen }

theorem fronts_whole : ∀ op ∈ Operator.fronts,
    Scan.whole? op.symbol.toList = some (frontLexeme op) := by decide +kernel

theorem betweens_whole : ∀ op ∈ Operator.betweens,
    Scan.whole? op.symbol.toList = some (betweenLexeme op) := by decide +kernel

theorem Spelling.whole {w : ChainWord} {text : List Char} (h : w.Spelling text) :
    Scan.whole? text = some w.lexeme := by
  cases w with
  | name n => exact h
  | number v => exact h
  | front op =>
    obtain ⟨hop, rfl⟩ := h
    exact fronts_whole op hop
  | between op =>
    obtain ⟨hop, rfl⟩ := h
    exact betweens_whole op hop
  | opening =>
    cases h
    rfl
  | closing =>
    cases h
    rfl

theorem lexeme_kind (w : ChainWord) :
    w.lexeme.kind ≠ .endOfProgram ∧ w.lexeme.kind ≠ .string := by
  cases w with
  | front op => cases op <;> decide
  | between op => cases op <;> decide
  | name _ | number _ | opening | closing => exact ⟨nofun, nofun⟩

end ChainWord

/-- The text behind a word: further words on the same line, each behind at least one space. -/
inductive Spaced : List ChainWord → List Char → Prop where
  | done (k : Nat) : Spaced [] (List.replicate k ' ')
  | word {w : ChainWord} {ws : List ChainWord} {text rest : List Char} (k : Nat)
      (hw : w.Spelling text) (hrest : Spaced ws rest) :
      Spaced (w :: ws) (List.replicate (k + 1) ' ' ++ (text ++ rest))

/-- A text of words on one line. -/
def OnLine (ws : List ChainWord) (text : List Char) : Prop := Spaced ws (' ' :: text)

/-- The text behind a token: further lexemes on the same line, each behind at least one space. -/
inductive Laid : List Lexeme → List Char → Prop where
  | done (k : Nat) : Laid [] (List.replicate k ' ')
  | lexeme {l : Lexeme} {ls : List Lexeme} {text rest : List Char} (k : Nat)
      (hl : Scan.whole? text = some l) (hkind : l.kind ≠ .endOfProgram ∧ l.kind ≠ .string)
      (hrest : Laid ls rest) : Laid (l :: ls) (List.replicate (k + 1) ' ' ++ (text ++ rest))

/-- Words are laid out as their lexemes are. -/
theorem Spaced.laid {ws : List ChainWord} {text : List Char} (h : Spaced ws text) :
    Laid (ws.map ChainWord.lexeme) text := by
  induction h with
  | done k => exact .done k
  | @word w _ _ _ k hw hrest ih => exact .lexeme k hw.whole w.lexeme_kind ih

namespace Laid

variable {ls : List Lexeme} {text : List Char}

theorem parted (h : Laid ls text) : text = [] ∨ ∃ ch rest, text = ch :: rest ∧ ch ∈ partings := by
  have blank : ∀ rest, ∃ ch more, ' ' :: rest = ch :: more ∧ ch ∈ partings := fun rest =>
    ⟨' ', rest, rfl, by decide⟩
  cases h with
  | done k =>
    cases k with
    | zero => exact Or.inl rfl
    | succ k => exact Or.inr (blank _)
  | lexeme k hl hkind hrest => exact Or.inr (blank _)

theorem blank_head (h : Laid ls text) : ∀ ch ∈ text.head?, ' ' = ch := by
  intro ch hch
  cases h with
  | done k =>
    cases k with
    | zero => cases hch
    | succ k => exact Option.some.inj hch
  | lexeme k hl hkind hrest => exact Option.some.inj hch

theorem length_le (h : Laid ls text) : ls.length ≤ text.length := by
  induction h with
  | done k => exact Nat.zero_le _
  | lexeme k hl hkind hrest ih =>
    simp only [List.length_cons, List.length_append, List.length_replicate]
    omega

end Laid

/-- The first of the lexemes that follow, or the end. -/
def headLexeme : List Lexeme → Lexeme
  | [] => { kind := .endOfProgram }
  | l :: _ => l

/-- A scanner of a script that has yet to read some lexemes. -/
structure Scanner.Before (script : Script) (ls : List Lexeme) (sc : Scanner) : Prop where
  laid : Laid ls sc.cursor.rest
  lines : sc.cursor.passedLines = []
  comments : sc.cursor.passedComments = []
  script : sc.script = script

/-- A parser of a script in front of some lexemes, the first of which is the current token. -/
structure ParserState.At (script : Script) (ls : List Lexeme) (s : ParserState) : Prop where
  token : s.token.toLexeme = headLexeme ls
  before : s.scanner.Before script ls.tail

namespace Scanner.Before

variable {script : Script} {sc : Scanner}

theorem moveTo {c : Cursor} (hlines : c.passedLines = []) (hcomments : c.passedComments = []) :
    sc.moveTo c = { sc with cursor := c } := by
  rcases sc with ⟨script, cursor, token⟩
  cases script
  rcases c with ⟨rest, index, line, lines, comments⟩
  cases hlines
  cases hcomments
  simp only [Scanner.moveTo, List.reverse_nil, Array.appendList_nil]

/-- The end of the text behind some spaces. -/
theorem next_done {k : Nat} (hrest : sc.cursor.rest = List.replicate k ' ')
    (hlines : sc.cursor.passedLines = []) (hcomments : sc.cursor.passedComments = [])
    (hscript : sc.script = script) :
    sc.next.1 = .ok () ∧ sc.next.2.token.toLexeme = headLexeme [] ∧
      sc.next.2.Before script [] := by
  have hskip : (sc.cursor.skip k).rest = [] := by
    simp [Cursor.skip, hrest]
  have htrivia : Scan.trivia sc.cursor = .ok (sc.cursor.skip k) := by
    refine Scan.trivia_spaces (hrest.trans (List.append_nil _).symm) ?_
    unfold Scan.triviaStep?
    rw [hskip]
  have hlexeme : Scan.lexeme (sc.cursor.skip k) =
      .ok ({ kind := .endOfProgram }, sc.cursor.skip k) := by
    unfold Scan.lexeme
    rw [hskip]
  have hmove : sc.moveTo (sc.cursor.skip k) = { sc with cursor := sc.cursor.skip k } :=
    moveTo hlines hcomments
  unfold Scanner.next
  rw [htrivia]
  dsimp only
  rw [hlexeme]
  dsimp only
  rw [hmove]
  refine ⟨rfl, rfl, ?_, hlines, hcomments, hscript⟩
  show Laid [] (sc.cursor.skip k).rest
  rw [hskip]
  exact .done 0

/-- A lexeme behind some spaces. It stands where its text does by itself, amid the spaces and what
follows. -/
theorem next_lexeme {l : Lexeme} {ls : List Lexeme} {text rest : List Char} {k : Nat}
    (hl : Scan.whole? text = some l) (hkind : l.kind ≠ .endOfProgram ∧ l.kind ≠ .string)
    (hlaid : Laid ls rest) (hrest : sc.cursor.rest = List.replicate k ' ' ++ (text ++ rest))
    (hlines : sc.cursor.passedLines = []) (hcomments : sc.cursor.passedComments = [])
    (hscript : sc.script = script) :
    sc.next.1 = .ok () ∧ sc.next.2.token.toLexeme = l ∧ sc.next.2.Before script ls := by
  obtain ⟨d, hd, hempty⟩ := Scan.whole?_lexeme hl
  obtain ⟨hend, hstring⟩ := hkind
  obtain ⟨a, ha⟩ : ∃ a, a = Scan.onLine (sc.cursor.index + k) sc.cursor.line rest := ⟨_, rfl⟩
  have hskip : sc.cursor.skip k = (Cursor.ofContent text).amid a := by
    rcases hcursor : sc.cursor with ⟨text', index, line, lines, comments⟩
    rw [hcursor] at hrest hlines hcomments ha
    cases hlines
    cases hcomments
    dsimp only at hrest
    simp only [ha, Scan.onLine, Cursor.skip, Cursor.amid, Cursor.ofContent, Nat.zero_add, hrest,
      List.drop_left' (List.length_replicate ..)]
  have hparted : a.Parted := by
    rw [ha]
    exact hlaid.parted
  have htrivia : Scan.trivia sc.cursor = .ok (sc.cursor.skip k) := by
    refine Scan.trivia_spaces hrest ?_
    rw [hskip]
    exact Scan.triviaStep?_whole hl hend hparted
  have hapart : a.Apart (Cursor.ofContent text) := by
    intro last _ ch hch
    rw [ha] at hch
    obtain rfl := hlaid.blank_head ch hch
    exact ⟨fun _ => by decide, fun _ => by decide⟩
  have hclear : a.Clear (Cursor.ofContent text) := by
    refine .of_head (fun ch hch => ?_) _
    rw [ha] at hch
    obtain rfl := hlaid.blank_head ch hch
    decide
  have hlexeme := Scan.lexeme_amid hparted hapart hclear hend
    (fun _ _ hread => absurd (Scan.stringLiteral_leads hread).1 hstring) hd
  have hmove : sc.moveTo (d.amid a) = { sc with cursor := d.amid a } :=
    moveTo (by rw [ha]; rfl) (by rw [ha]; rfl)
  rw [← hskip] at hlexeme
  unfold Scanner.next
  rw [htrivia]
  dsimp only
  rw [hlexeme]
  dsimp only
  rw [hmove]
  refine ⟨rfl, rfl, ?_, by rw [ha]; rfl, by rw [ha]; rfl, hscript⟩
  show Laid ls (d.amid a).rest
  rw [Cursor.amid_rest, hempty, ha]
  exact hlaid

/-- The next lexeme, or the end of the text. -/
theorem next {ls : List Lexeme} (h : sc.Before script ls) :
    sc.next.1 = .ok () ∧ sc.next.2.token.toLexeme = headLexeme ls ∧
      sc.next.2.Before script ls.tail := by
  obtain ⟨hlaid, hlines, hcomments, hscript⟩ := h
  generalize hrest : sc.cursor.rest = rest at hlaid
  cases hlaid with
  | done k => exact next_done hrest hlines hcomments hscript
  | lexeme k hl hkind hlaid => exact next_lexeme hl hkind hlaid hrest hlines hcomments hscript

end Scanner.Before

namespace ParserState.At

variable {script : Script} {s : ParserState} {l : Lexeme} {ls : List Lexeme}

/-- Consuming a lexeme. -/
theorem next (h : s.At script (l :: ls)) :
    ∃ t, Parse.next s = .ok () t ∧ t.At script ls ∧ t.previous = s.token := by
  obtain ⟨hok, htoken, hbefore⟩ := h.before.next
  refine ⟨s.advance, ?_, ⟨htoken, hbefore⟩, rfl⟩
  rw [Parse.next_apply, hok]

/-- A parser of a text of lexemes stands at the first one. -/
theorem first (h : Laid ls (' ' :: script.content)) (hne : ls ≠ []) (host : Host) :
    (Parser.ofScript host script).state.At script ls := by
  obtain ⟨l, ls, rfl⟩ := List.exists_cons_of_ne_nil hne
  obtain ⟨k, text, rest, hl, hkind, hlaid, hcontent⟩ : ∃ k text rest,
      Scan.whole? text = some l ∧ (l.kind ≠ .endOfProgram ∧ l.kind ≠ .string) ∧ Laid ls rest ∧
        script.content = List.replicate k ' ' ++ (text ++ rest) := by
    generalize hline : ' ' :: script.content = line at h
    cases h with
    | lexeme k hl hkind hlaid => exact ⟨k, _, _, hl, hkind, hlaid, (List.cons.inj hline).2⟩
  have hstart : (Scanner.ofScript script).cursor.rest =
      List.replicate k ' ' ++ (text ++ rest) := hcontent
  obtain ⟨hok, htoken, hbefore⟩ :=
    Scanner.Before.next_lexeme hl hkind hlaid hstart rfl rfl rfl
  have hscan : Parse.scan Scanner.next (ParserState.ofScript script) =
      .ok () { ParserState.ofScript script with scanner := (Scanner.ofScript script).next.2 } := by
    rw [Parse.scan_apply, show (ParserState.ofScript script).scanner.next.1 = .ok () from hok]
    rfl
  unfold Parser.ofScript
  rw [hscan]
  exact ⟨htoken, hbefore⟩

end ParserState.At

end ActionSyntax
