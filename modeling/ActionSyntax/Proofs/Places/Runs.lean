import ActionSyntax.Proofs.Follows.Levels
import ActionSyntax.Proofs.Entries

/-!
Runs of a scanner, and calls of a parser. However they go on, also behind problems, the lines that
have been counted are those of the text that has been passed, and everything found is where it is said
to be.
-/

namespace ActionSyntax

set_option autoImplicit false

open Utf8

namespace Scanner

/-- Steps of a scanner one after the other, of which any may fail. From a slash it may read on to the
end of a regular expression. -/
inductive Run : Scanner → Scanner → Prop
  | refl (s : Scanner) : Run s s
  | next {s t : Scanner} (h : Run s t) : Run s t.next.2
  | regular {s t : Scanner} (h : Run s t) (slash : Rules.beginsRegularExpression t.token = true) :
      Run s t.readRegularExpression.2

/-- A run goes on from the beginning that has been passed. -/
theorem Run.scanned {before : List Char} {s t : Scanner} (h : s.Run t) (hs : s.Scanned before) :
    ∃ text, t.Scanned (before ++ text) := by
  induction h with
  | refl => exact ⟨[], by simpa using hs⟩
  | next _ ih =>
    obtain ⟨text, ht⟩ := ih
    obtain ⟨more, hnext⟩ := next_scanned ht
    exact ⟨text ++ more, by simpa using hnext⟩
  | regular _ _ ih =>
    obtain ⟨text, ht⟩ := ih
    obtain ⟨more, hread⟩ := readRegularExpression_scanned ht
    exact ⟨text ++ more, by simpa using hread⟩

/-- The lines known to the script are those that begin in the text passed so far, in order, and the
scanner stands on the last of them, not inside a pair of carriage return and line feed. -/
def CountsLines (s : Scanner) : Prop :=
  ∃ before, s.script.content = before ++ s.cursor.rest ∧ s.cursor.index = byteLength before ∧
    s.script.lineStarts.toList = 0 :: Lines.ends 0 before ∧
    s.script.lineStarts.toList.Pairwise (· < ·) ∧
    s.cursor.line = 1 + (Lines.ends 0 before).length ∧ ¬ Lines.Splits before s.cursor.rest

theorem Scanned.countsLines {before : List Char} {s : Scanner} (h : s.Scanned before) :
    s.CountsLines := by
  have hsorted := h.lineStarts ▸ Lines.starts_pairwise before
  have hline := h.behind.line.trans (Nat.add_comm _ 1)
  exact ⟨before, h.content, h.behind.index, h.lineStarts, hsorted, hline, h.behind.whole⟩

end Scanner

namespace ParserState.Sound

variable {s : ParserState}

theorem countsLines (h : s.Sound) : s.scanner.CountsLines := by
  obtain ⟨before, hb⟩ := h.scanned
  exact hb.countsLines

end ParserState.Sound

/-- A token stays where it is said to be, however far the parser goes on. -/
theorem Walk.token_locates {s t : ParserState} (h : Walk s t) (hs : s.Sound) :
    t.script.Locates s.token.span := by
  obtain ⟨ht, hle⟩ := h.sound hs
  refine ht.locates ?_
  unfold ParserState.Ranges
  rw [h.content_eq]
  exact hs.token.mono hle

namespace Parser

/-- Calls of entry points one after the other. -/
def calls (p : Parser) (entries : List Entry) : Parser :=
  entries.foldl (fun p entry => (p.call entry).2) p

/-- A reading that follows itself strides. -/
theorem run_strides {α : Type} [Located α] {p : Parser} {construct : Rules → Parse α}
    (hs : p.state.Sound)
    (h : ∀ r, Alike (fun _ => False) r r →
      Follows (fun _ => False) [] (construct r) (construct r)) :
    Strides p.state (p.run construct).2.state := by
  unfold run
  split
  · exact .refl _
  have hfollows := toEnd_follows (h _ (ofHost_alike p.host p.script))
  have hmeets := hfollows p.state hs nofun
  have hstrides := hmeets.lands.strides
  cases hread : toEnd (construct (Rules.ofHost p.host p.script)) p.state <;>
    rw [hread] at hstrides <;> exact hstrides

theorem call_strides {p : Parser} (hs : p.state.Sound) (entry : Entry) :
    Strides p.state (p.call entry).2.state := by
  cases entry with
  | program => exact run_strides hs fun r h => h.program_follows
  | statement =>
    exact run_strides hs fun r h =>
      .seq (h.statementRule_follows {}) fun ⟨statement, _⟩ => .pure statement (List.nil_subset _)
  | expression allowIn level => exact run_strides hs fun r h => h.exprRule_follows _
  | type => exact run_strides hs fun r h => h.typeExprRule_follows

theorem calls_walk : ∀ (entries : List Entry) {p : Parser}, p.state.Sound →
    Walk p.state (p.calls entries).state
  | [], _, _ => .refl _
  | entry :: entries, _, hs =>
    have hwalk := (call_strides hs entry).walk
    hwalk.trans (calls_walk entries (hwalk.sound hs).1)

/-- A parser goes on from the beginning of its script, whatever is called. -/
theorem walk_calls (host : Host) (path source : String) (entries : List Entry) :
    Walk (ParserState.ofScript (Script.ofSource path source))
      ((ofScript host (Script.ofSource path source)).calls entries).state := by
  have hfirst := ofScript_state host (Script.ofSource path source)
  have hwalk : Walk (ParserState.ofScript (Script.ofSource path source))
      (ofScript host (Script.ofSource path source)).state := hfirst ▸ .scan (.refl _)
  exact hwalk.trans (calls_walk entries (hwalk.sound (.ofSource path source)).1)

end Parser

/-- Whatever a scanner reads of a fresh script, it counts the lines of the text that it has passed,
and tokens, comments and problems are on the lines and in the columns that they are said to be. So it is
for every parser of the script, wherever it comes to. -/
theorem lines_counted (host : Host) (path source : String) :
    (∀ s, (Scanner.ofScript (Script.ofSource path source)).Run s →
      s.CountsLines ∧ s.script.Locates s.token.span ∧ s.script.Accurate) ∧
    (∀ t u, Walk (ParserState.ofScript (Script.ofSource path source)) t → Walk t u →
      u.scanner.CountsLines ∧ u.script.Locates t.token.span ∧
        ∀ d ∈ u.script.withIncluded, d.Accurate) ∧
    ∀ entries, Walk (ParserState.ofScript (Script.ofSource path source))
      ((Parser.ofScript host (Script.ofSource path source)).calls entries).state := by
  refine ⟨fun s h => ?_, fun t u hst htu => ?_, Parser.walk_calls host path source⟩
  · obtain ⟨text, ht⟩ := h.scanned (.ofSource path source)
    exact ⟨ht.countsLines, ht.locates ht.token, ht.accurate⟩
  · have ht := (hst.sound (.ofSource path source)).1
    have hu := (htu.sound ht).1
    exact ⟨hu.countsLines, htu.token_locates ht, hu.accurate⟩

/-- Two names with a line break between them, and the parser at the first of them. -/
theorem lines_counted_break :
    let script := Script.ofSource "main.es" "a\r\nb"
    let s := (Scanner.ofScript script).next.2.next.2
    let p := (Parser.ofScript (Host.ofFiles []) script).calls [.program]
    s.script.lineStarts = #[0, 3] ∧ s.token.span = ⟨2, 2, 3, 4⟩ ∧ s.CountsLines ∧
      s.script.Locates s.token.span ∧
      p.script.Locates (ParserState.ofScript script).scanned.token.span := by
  intro script s p
  obtain ⟨hrun, hwalk, -⟩ := lines_counted (Host.ofFiles []) "main.es" "a\r\nb"
  obtain ⟨hcounts, hlocates, -⟩ := hrun s (.next (.next (.refl _)))
  have hfirst := Parser.ofScript_state (Host.ofFiles []) script
  have hstart : Walk (ParserState.ofScript script).scanned p.state :=
    hfirst ▸ Parser.calls_walk [.program] (hfirst ▸ ((Walk.scan (.refl _)).sound (.ofSource _ _)).1)
  have htoken := (hwalk _ _ (.scan (.refl _)) hstart).2.1
  exact ⟨by decide +kernel, by decide +kernel, hcounts, hlocates, htoken⟩

end ActionSyntax
