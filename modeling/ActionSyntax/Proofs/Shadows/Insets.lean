import ActionSyntax.Proofs.Frames.Statements
import ActionSyntax.Proofs.Heedless
import ActionSyntax.Proofs.Shadows.Alongside
import ActionSyntax.Proofs.Shadows.Stages

/-!
Expressions set in a text. What reads as an expression by itself is read as the same expression where it
stands in a longer text. By itself it is indented like the line on which it begins there, since layout may
end an expression.
-/

namespace ActionSyntax

set_option autoImplicit false

open Utf8 Parse Scan

/-- Outside of functions, without a problem so far. -/
structure ParserState.Settled (path : String) (s : ParserState) : Prop where
  path : s.script.path = path
  valid : s.script.valid = true
  functions : s.functions = []
  superFound : s.superFound = false

theorem ParserState.Settled.keeps {path : String} {s t : ParserState} (h : s.Settled path)
    (hst : s.Keeps t) : t.Settled path :=
  ⟨hst.path.trans h.path, hst.valid.trans h.valid, hst.functions.trans h.functions,
    hst.superFound.trans h.superFound⟩

theorem ParserState.Settled.ofSource (path source : String) :
    (ParserState.ofScript (Script.ofSource path source)).Settled path := ⟨rfl, rfl, rfl, rfl⟩

/-- A parser has read the token with which its text begins. -/
theorem Parser.ofScript_behind (host : Host) (path : String) {source : String} {text rest : List Char} {l : Lexeme}
    (hsource : source.toList = text ++ rest) (htoken : Tokenizes [] text rest l) :
    (Parser.ofScript host (Script.ofSource path source)).state.Behind text rest ∧
    (Parser.ofScript host (Script.ofSource path source)).state.token.toLexeme = l ∧
    (Parser.ofScript host (Script.ofSource path source)).state.Settled path ∧
    (Parser.ofScript host (Script.ofSource path source)).state.script.content = source.toList := by
  have hreadable : Scanner.Readable [] source.toList := hsource ▸ htoken.scans []
  obtain ⟨hfaces, hkeeps⟩ := ofScript_faces host path hreadable
  have hcontent := hfaces.content
  have hfaces : (Parser.ofScript host (Script.ofSource path source)).state.Faces [] ([] ++ (text ++ rest)) :=
    hsource ▸ hfaces
  obtain ⟨hbehind, hfirst⟩ := hfaces.behind htoken
  exact ⟨hbehind, congrArg Token.toLexeme hfirst, (ParserState.Settled.ofSource path source).keeps hkeeps, hcontent⟩

/-- Blanks may be passed before the token behind them is read. -/
theorem Scanner.next_blanks : ∀ {lead read rest : List Char} {s : Scanner},
    (∀ ch ∈ lead, CharClass.isBlank ch = true) → s.Passed read → s.cursor.rest = lead ++ rest →
    ∃ cursor, ({ s with cursor } : Scanner).next = s.next ∧
      ({ s with cursor } : Scanner).Passed (read ++ lead)
  | [], read, rest, s, _, hs, _ => ⟨s.cursor, rfl, by rwa [List.append_nil]⟩
  | ch :: lead, read, rest, s, hblanks, hs, hrest => by
    have hblank := hblanks ch List.mem_cons_self
    obtain ⟨hpassed, hleft⟩ := hs.blank hrest hblank
    obtain ⟨cursor, hnext, hpassed'⟩ := next_blanks
      (fun ch hmem => hblanks ch (List.mem_cons_of_mem _ hmem)) hpassed hleft
    rw [List.append_assoc] at hpassed'
    exact ⟨cursor, hnext.trans (Scanner.next_blank hrest hblank), hpassed'⟩

section Begin

variable {host : Host} {path source : String} {front gap : List Char} {first w : ParserState} {x : Fragment}

/-- A text by itself, and a whole text in which it stands behind blanks and line breaks, are read abreast
from its first token on. What has been read in front of it is forgotten. -/
theorem Fragment.Near.begin (hl : x.Layered) (hbefore : x.before = front ++ gap) (hgap : Spacing gap)
    (hplain : ∀ ch ∈ x.piece.head?, CharClass.isLineTerminator ch = false)
    (hw : w.Behind front (gap ++ (x.piece ++ x.after))) (hsettled : w.Settled path)
    (hsource : source.toList = x.own)
    (hscan : Parse.scan Scanner.next (ParserState.ofScript (Script.ofSource path source)) = .ok () first)
    (hgone : ¬ x.Gone first) :
    ∃ t previous, Parse.next w = .ok () t ∧ x.Near true true first { t with previous } := by
  have hlead : ∀ ch ∈ x.lead, CharClass.isBlank ch = true := by
    rw [hl.margin]
    exact Lines.margin_blank _
  obtain ⟨c, hblanks, hpassed⟩ := Scanner.next_blanks hlead (.ofSource path source)
    (show source.toList = x.lead ++ x.piece from hsource)
  have hwhole : ¬ Lines.Splits gap (x.piece ++ x.after) := by
    rintro ⟨-, hhead⟩
    cases hpiece : x.piece with
    | nil =>
      rw [hpiece, List.nil_append] at hhead
      rcases x.stopped with hnil | ⟨mark, rest, hcons, hmark⟩
      · simp [hnil] at hhead
      · have hmarks : ∀ mark ∈ stopMarks, mark ≠ '\n' := by decide
        exact hmarks mark hmark (by simpa [hcons] using hhead)
    | cons ch piece =>
      rw [hpiece] at hhead
      cases hhead
      have hfeed := hplain '\n' (by rw [hpiece]; rfl)
      exact absurd hfeed (by decide)
  obtain ⟨d, hpasses, htrivia⟩ := trivia_gap hgap hwhole hw.rest
  have hbehind : (w.scanner.moveTo d).Passed x.before := by
    rw [hbefore]
    exact hw.passed.moveTo hpasses
  have hrest : (w.scanner.moveTo d).cursor.rest = x.piece ++ x.after :=
    List.append_cancel_left (hpasses.rest.symm.trans hw.rest)
  let s : ParserState :=
    { ParserState.ofScript (Script.ofSource path source) with
      scanner := { (ParserState.ofScript (Script.ofSource path source)).scanner with cursor := c } }
  let t : ParserState := { w with scanner := w.scanner.moveTo d, previous := x.moved Token.initial }
  have henters : x.Enters true true s t := by
    refine ⟨.start hpassed hsource hbehind hrest, Passage.moved_like _, rfl,
      fun _ => ⟨Nat.le_refl 1, rfl, rfl⟩, fun _ => hsettled.functions.symm, fun _ => hsettled.superFound.symm,
      hsettled.path.symm, ?_⟩
    show true = (true && w.script.valid)
    rw [hsettled.valid]
    rfl
  have hfirst : Parse.scan Scanner.next s = .ok () first := by
    rw [← hscan]
    unfold Parse.scan
    rw [show s.scanner.next = _ from hblanks]
    rfl
  have hgoes := henters.goes
  rw [hfirst] at hgoes
  unfold Parse.scan at hgoes
  generalize hread : t.scanner.next = outcome at hgoes
  obtain ⟨_ | _, v⟩ := outcome
  · cases hgoes with
    | lost gone => exact absurd gone hgone
  · cases hgoes with
    | lost gone => exact absurd gone hgone
    | ok value close =>
      refine ⟨{ w with previous := w.token, scanner := v }, x.moved Token.initial, ?_, close⟩
      show Parse.scan Scanner.next { w with previous := w.token } = _
      unfold Parse.scan
      rw [Scanner.next_moveTo htrivia hread]

end Begin

/-- The text in its place, as a piece of the whole. -/
abbrev Fragment.inset (before text after : List Char) (stopped : Stopped after) : Fragment where
  before
  piece := text
  after
  lead := Lines.margin before
  lead_plain := Lines.margin_plain before
  lead_le := Lines.margin_le before
  stopped
  minded := True

/-- The text in its place, in front of no colon. -/
abbrev Excerpt.inset (before text after : List Char) (stopped : Stopped after)
    (closing : after.head? ≠ some ':') : Excerpt where
  toFragment := .inset before text after stopped
  closing

/-- The text begins with no blank and on no new line. -/
def Begins (text : List Char) : Prop :=
  ∀ ch ∈ text.head?, CharClass.isBlank ch = false ∧ CharClass.isLineTerminator ch = false

instance (text : List Char) : Decidable (Begins text) := Option.decidableForallMem text.head?

theorem Begins.layered {before text after : List Char} (h : Begins text) (stopped : Stopped after) :
    (Fragment.inset before text after stopped).Layered := by
  refine ⟨trivial, rfl, fun ch hch => (h ch hch).1, ?_⟩
  rintro ⟨-, hhead⟩
  have hfeed := (h '\n' hhead).2
  exact absurd hfeed (by decide)

/-- What the text is by itself, indented like the line on which it begins behind what stands before. -/
def insetSource (before text : List Char) : String := String.ofList (Lines.margin before ++ text)

/-- A text that is an expression by itself. -/
structure Inset (host : Host) (path : String) (before text : List Char) (e : Expr) : Prop where
  begins : Begins text
  accepted : ((Parser.ofScript host (Script.ofSource path (insetSource before text))).parseExpressionWith
    true .assignment).1 = some e

/-- By itself, the text leaves no comment open that would run on, and no function, also in what it
includes. -/
structure Ends (host : Host) (path : String) (before text : List Char) : Prop where
  closed : ((Parser.ofScript host (Script.ofSource path (insetSource before text))).parseExpressionWith
    true .assignment).2.state.Closed (insetSource before text).toList
  settled : ((Parser.ofScript host (Script.ofSource path (insetSource before text))).parseExpressionWith
    true .assignment).2.state.functions = []

/-- A text without tokens. -/
structure Void (host : Host) (path : String) (before text : List Char) : Prop where
  begins : Begins text
  ended : (Parser.ofScript host (Script.ofSource path (insetSource before text))).state.token.kind =
    .endOfProgram
  accepted : (Parser.ofScript host (Script.ofSource path (insetSource before text))).state.script.valid = true
  closed : (Parser.ofScript host (Script.ofSource path (insetSource before text))).state.Closed
    (insetSource before text).toList

/-- Blanks and line breaks, and behind them a text that is an expression by itself, in front of something
else. -/
def Item (host : Host) (path : String) (before text : List Char) (e : Expr) : Prop :=
  ∃ gap inner, text = gap ++ inner ∧ Spacing gap ∧ Inset host path (before ++ gap) inner e ∧
    Ends host path (before ++ gap) inner

/-- Blanks, line breaks and comments. -/
def Blank (host : Host) (path : String) (before text : List Char) : Prop :=
  ∃ gap comments, text = gap ++ comments ∧ Spacing gap ∧ Void host path (before ++ gap) comments

section Reading

variable {host : Host} {path : String} {front gap text after : List Char} {e : Expr} {w : ParserState}
  {n : Nat}

theorem margin_sublist (before : List Char) : (Lines.margin before).Sublist before := by
  have hlast := Lines.endedLines_append before
  refine (List.takeWhile_prefix _).sublist.trans ?_
  nth_rewrite 2 [← hlast]
  exact List.sublist_append_right _ _

/-- The margin ends where something else stands. -/
theorem margin_lt {before : List Char} (h : ∃ ch ∈ before, CharClass.isBlank ch = false) :
    (Lines.margin before).length < before.length := by
  refine lt_of_le_of_ne (margin_sublist before).length_le fun heq => ?_
  obtain ⟨ch, hmem, hblank⟩ := h
  rw [← (margin_sublist before).eq_of_length heq] at hmem
  rw [Lines.margin_blank before ch hmem] at hblank
  cases hblank

/-- What is read by itself, side by side with the whole from its first token on. What has been read in front
of it is forgotten. -/
theorem Inset.opens (h : Inset host path (front ++ gap) text e) (stopped : Stopped after)
    (hends : after = [] ∨ Ends host path (front ++ gap) text) (hgap : Spacing gap)
    (hw : w.Behind front (gap ++ (text ++ after))) (hsettled : w.Settled path) :
    ∃ first s t previous, (Parser.ofScript host (Script.ofSource path (insetSource (front ++ gap) text))).Spans
        (fun r => r.exprRule { level := .assignment }) e s ∧
      (host.level ((insetSource (front ++ gap) text).toList.length + 3)).exprRule { level := .assignment } first =
        .ok e s ∧
      (Parser.ofScript host (Script.ofSource path (insetSource (front ++ gap) text))).state = first ∧
      ¬ (Fragment.inset (front ++ gap) text after stopped).Gone s ∧
      s.script.path = path ∧ s.script.valid = true ∧
      (Ends host path (front ++ gap) text → s.functions = []) ∧ Parse.next w = .ok () t ∧
      (Fragment.inset (front ++ gap) text after stopped).Near true true first { t with previous } := by
  let x := Fragment.inset (front ++ gap) text after stopped
  obtain ⟨s, hspans, hok⟩ := Parser.spans_of_run h.accepted
  have hlast : ((Parser.ofScript host (Script.ofSource path (insetSource (front ++ gap) text))).parseExpressionWith
      true .assignment).2.state = s := by
    rw [Parser.parseExpressionWith, Parser.run_of_spans hspans]
  obtain ⟨first, hscan, hread, hend⟩ := hspans.from_first
  have hown : (insetSource (front ++ gap) text).toList = x.own := by simp [insetSource, x, Passage.own]
  have hgone : ¬ x.Gone s := by
    rcases hends with hnil | hends
    · exact Passage.not_gone_of_last hnil
    · have hclosed := hends.closed
      rw [hlast, hown] at hclosed
      exact hclosed.not_gone
  have hreads := (level_lenient host.readFile host.includeDepth
    ((insetSource (front ++ gap) text).toList.length + 3)).exprRule_reads { level := .assignment }
  have hstays : ¬ x.Gone first := fun hgone => (Starves.of_reads hreads).empty hgone.ended hread
  obtain ⟨t, previous, hnext, hnear⟩ := Fragment.Near.begin (h.begins.layered stopped) rfl hgap
    (fun ch hch => (h.begins ch hch).2) hw hsettled hown hscan hstays
  have hpath : s.script.path = path := by
    have hends := hreads first (Or.inl trivial)
    rw [hread] at hends
    obtain ⟨hfirst, -⟩ := Parse.next_inv (s := ParserState.ofScript _) hscan
    exact hends.reaches.grows.path.trans (Scanner.next_keeps hfirst).1
  have hstate : (Parser.ofScript host (Script.ofSource path (insetSource (front ++ gap) text))).state = first := by
    unfold Parser.ofScript
    rw [hscan]
  exact ⟨first, s, t, previous, hspans, hread, hstate, hgone, hpath, hok,
    fun hends => hlast ▸ hends.settled, hnext, hnear⟩

/-- Behind an expression that is read in its place the parser is as settled as it is by itself. -/
theorem Fragment.Near.settled {x : Fragment} {s t u : ParserState} {e' : Expr} {mode : ExprMode}
    (h : x.Near true true s u) (hl : x.Layered) (hpath : s.script.path = path) (hvalid : s.script.valid = true)
    (hfunctions : s.functions = []) (hread : (host.level n).exprRule mode t = .ok e' u)
    (hsuper : t.superFound = false) : u.Settled path := by
  have hframed : Framed .expression ((host.level n).exprRule mode) := Framed.exprRule mode
  have hkeeps := hframed.keeps t
  rw [hread] at hkeeps
  refine ⟨h.path.symm.trans hpath, ?_, (h.functions hl).symm.trans hfunctions,
    (hkeeps.superFound (by decide)).trans hsuper⟩
  have hboth := h.valid
  rw [hvalid] at hboth
  simpa using hboth.symm

/-- What stands in front of an expression has no part in it. -/
theorem exprRule_heedless {mode : ExprMode} {previous : Token} {t u : ParserState} {e' : Expr}
    (h : (host.level n).exprRule mode { t with previous } = .ok e' u) :
    (host.level n).exprRule mode t = .ok e' u := by
  rcases Heedless.exprRule (host.level n) mode t previous with hsame | ⟨_, hnone, -⟩ | ⟨-, stop, v, herror⟩
  · exact hsame.symm.trans h
  · exact hnone.elim
  · rw [h] at herror
    cases herror

/-- An expression is read in its place. -/
theorem Inset.near (h : Inset host path (front ++ gap) text e) (stopped : Stopped after)
    (closing : after.head? ≠ some ':')
    (hends : after = [] ∨ Ends host path (front ++ gap) text) (hgap : Spacing gap)
    (hw : w.Behind front (gap ++ (text ++ after))) (hsettled : w.Settled path)
    (hn : (Lines.margin (front ++ gap)).length + text.length + 3 ≤ n) :
    ∃ t e' s u, Parse.next w = .ok () t ∧ (host.level n).exprRule { level := .assignment } t = .ok e' u ∧
      Matches e e' ∧ (Fragment.inset (front ++ gap) text after stopped).Near true true s u ∧
      s.token.kind = .endOfProgram ∧ u.script.valid = true ∧
      (Ends host path (front ++ gap) text → u.Settled path) := by
  let x := Excerpt.inset (front ++ gap) text after stopped closing
  have hl : x.Layered := h.begins.layered stopped
  obtain ⟨first, s, t, previous, hspans, hread, -, hgone, hpath, hvalid, hfunctions, hnext, hnear⟩ :=
    h.opens stopped hends hgap hw hsettled
  have hshadow : RulesShadow (x.pairing true true)
      (host.level ((insetSource (front ++ gap) text).toList.length + 3)) (host.level n) :=
    level_shadow host.readFile host.includeDepth hl (by simpa [insetSource] using hn)
  have hexpr : Shadows (x.pairing true true) .tight Matches
      ((host.level ((insetSource (front ++ gap) text).toList.length + 3)).exprRule { level := .assignment })
      ((host.level n).exprRule { level := .assignment }) := hshadow.exprRule_shadows (Or.inl (by decide))
  obtain ⟨e', u, hread', hnear', hmatch⟩ := (x.pairing true true).read hexpr hnear hread hgone
  have hnear' : x.Near true true s u := hnear'
  have hplace := exprRule_heedless hread'
  have hsuper : t.superFound = false := by
    rw [(Parse.next_inv hnext).2]
    exact hsettled.superFound
  refine ⟨t, e', s, u, hnext, hplace, hmatch, hnear', hspans.ends, ?_,
    fun hends => hnear'.settled hl hpath hvalid (hfunctions hends) hplace hsuper⟩
  have hboth := hnear'.valid
  rw [hvalid] at hboth
  simpa using hboth.symm

/-- The parser has read a mark. -/
structure ParserState.AtMark (read : List Char) (mark : Char) (rest : List Char) (s : ParserState) : Prop where
  behind : s.Behind (read ++ [mark]) rest
  lexeme : s.token.toLexeme = stopLexeme mark

theorem ParserState.AtMark.kind {read : List Char} {mark : Char} {rest : List Char} {s : ParserState}
    (h : s.AtMark read mark rest) : s.token.kind = (stopLexeme mark).kind := congrArg Lexeme.kind h.lexeme

theorem Fragment.Near.atMark {before : List Char} {mark : Char} {rest : List Char} {s u : ParserState}
    {stopped : Stopped (mark :: rest)}
    (h : (Fragment.inset before text (mark :: rest) stopped).Near true true s u)
    (hend : s.token.kind = .endOfProgram) : u.AtMark (before ++ text) mark rest := by
  have hstands := h.stands_behind hend rfl
  exact ⟨⟨hstands.passed, hstands.cursor_rest (by simp [Passage.whole])⟩, hstands.token⟩

variable {before : List Char} {mark : Char} {rest : List Char}

/-- An expression is read up to the mark behind it. -/
theorem Item.read (h : Item host path before text e) (hmark : mark ∈ closingMarks)
    (hw : w.Behind before (text ++ mark :: rest)) (hsettled : w.Settled path)
    (hn : (before ++ text).length + 3 ≤ n) :
    ∃ t e' u, Parse.next w = .ok () t ∧ (host.level n).exprRule { level := .assignment } t = .ok e' u ∧
      Matches e e' ∧ u.AtMark (before ++ text) mark rest ∧ u.Settled path := by
  obtain ⟨gap, inner, rfl, hgap, hinset, hends⟩ := h
  rw [List.append_assoc] at hw
  have hclosing : (mark :: rest).head? ≠ some ':' := by
    rintro ⟨⟩
    exact absurd hmark (by decide)
  have hn : (Lines.margin (before ++ gap)).length + inner.length + 3 ≤ n := by
    have hmargin := (margin_sublist (before ++ gap)).length_le
    simp only [List.length_append] at hmargin hn ⊢
    omega
  obtain ⟨t, e', s, u, hnext, hread, hmatch, hnear, hend, -, hsettled'⟩ :=
    hinset.near (Or.inr ⟨mark, rest, rfl, List.mem_cons_of_mem _ hmark⟩) hclosing (Or.inr hends) hgap hw hsettled hn
  have hplace := hnear.atMark hend
  rw [List.append_assoc] at hplace
  exact ⟨t, e', u, hnext, hread, hmatch, hplace, hsettled' hends⟩

/-- An expression with which the text ends is read to the end. -/
theorem Inset.read_last (h : Inset host path (front ++ gap) text e) (hgap : Spacing gap)
    (hw : w.Behind front (gap ++ text)) (hsettled : w.Settled path)
    (hn : (Lines.margin (front ++ gap)).length + text.length + 3 ≤ n) :
    ∃ t e' u, Parse.next w = .ok () t ∧ (host.level n).exprRule { level := .assignment } t = .ok e' u ∧
      Matches e e' ∧ u.token.kind = .endOfProgram ∧ u.script.valid = true := by
  rw [← List.append_nil text] at hw
  obtain ⟨t, e', s, u, hnext, hread, hmatch, hnear, hend, hvalid, -⟩ :=
    h.near (Or.inl rfl) (by simp) (Or.inl rfl) hgap hw hsettled hn
  exact ⟨t, e', u, hnext, hread, hmatch, hnear.ends_together hend rfl, hvalid⟩

/-- A text without tokens is passed. -/
theorem Blank.read (h : Blank host path before text) (hmark : mark ∈ stopMarks)
    (hw : w.Behind before (text ++ mark :: rest)) (hsettled : w.Settled path) :
    ∃ t, Parse.next w = .ok () t ∧ t.AtMark (before ++ text) mark rest ∧ t.Settled path := by
  obtain ⟨gap, text, rfl, hgap, h⟩ := h
  rw [List.append_assoc] at hw
  have stopped : Stopped (mark :: rest) := Or.inr ⟨mark, rest, rfl, hmark⟩
  let x := Fragment.inset (before ++ gap) text (mark :: rest) stopped
  obtain ⟨first, hscan⟩ : ∃ first, Parse.scan Scanner.next
      (ParserState.ofScript (Script.ofSource path (insetSource (before ++ gap) text))) = .ok () first := by
    obtain ⟨start, l, stop, -, -, hnext⟩ | ⟨failure, token, -, hnext⟩ :=
      (ParserState.ofScript (Script.ofSource path (insetSource (before ++ gap) text))).scanner.next_cases
    · unfold Parse.scan
      rw [hnext]
      exact ⟨_, rfl⟩
    · have haccepted := h.accepted
      unfold Parser.ofScript Parse.scan at haccepted
      rw [hnext] at haccepted
      cases haccepted
  have hfirst : (Parser.ofScript host (Script.ofSource path (insetSource (before ++ gap) text))).state = first := by
    unfold Parser.ofScript
    rw [hscan]
  have hended := h.ended
  have hclosed := h.closed
  rw [hfirst] at hended hclosed
  have hown : (insetSource (before ++ gap) text).toList = x.own := by simp [insetSource, x, Passage.own]
  obtain ⟨t, previous, hnext, hnear⟩ := Fragment.Near.begin (h.begins.layered stopped) rfl hgap
    (fun ch hch => (h.begins ch hch).2) hw hsettled hown hscan (ParserState.Closed.not_gone (hown ▸ hclosed))
  have hplace := hnear.atMark hended
  rw [List.append_assoc] at hplace
  obtain ⟨hbehind, hlexeme⟩ := hplace
  refine ⟨t, hnext, ⟨⟨hbehind.passed, hbehind.rest⟩, hlexeme⟩, ?_⟩
  obtain ⟨hread, rfl⟩ := Parse.next_inv hnext
  obtain ⟨hpath, -, hvalid⟩ := Scanner.next_keeps hread
  exact hsettled.keeps ⟨hpath, hvalid, rfl, rfl⟩

end Reading

end ActionSyntax
