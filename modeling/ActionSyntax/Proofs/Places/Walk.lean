import ActionSyntax.Proofs.Places.Steps
import ActionSyntax.Proofs.FunctionStack
import ActionSyntax.Proofs.Reach

/-!
What a parser does to its scanner. It reads tokens, reads on from a slash to the end of a regular
expression, splits tokens, records problems at places it has passed, and takes over the scripts that
it includes. Wherever it goes, its tokens, comments and problems are where they are said to be.
-/

namespace ActionSyntax

set_option autoImplicit false

open Utf8

namespace Script

/-- The lines of a range are those of the text, and its columns are the distances to the last
beginnings of lines. -/
structure Locates (s : Script) (span : Span) : Prop where
  firstLine : span.firstLine = Lines.lineAt s.content span.start
  lastLine : span.lastLine = Lines.lineAt s.content span.stop
  firstColumn : Lines.startAt s.content span.start + s.firstColumn span = span.start
  lastColumn : Lines.startAt s.content span.stop + s.lastColumn span = span.stop

/-- All comments and problems of the script are where they are said to be. -/
def Accurate (s : Script) : Prop :=
  (∀ c ∈ s.comments, s.Locates c.span) ∧ ∀ p ∈ s.problems, s.Locates p.span

end Script

namespace Scanner.Scanned

variable {before : List Char} {s : Scanner}

/-- The beginning of the line of a place that has been passed is known to the script. -/
theorem lineStart_eq (h : s.Scanned before) {line offset : Nat}
    (hat : Lines.At s.script.content (byteLength before) line offset) :
    s.script.lineStart line = Lines.startAt s.script.content offset := by
  obtain ⟨hpos, hstart⟩ := hat.getElem? h.content
  obtain ⟨n, rfl⟩ : ∃ n, line = n + 1 := ⟨line - 1, by omega⟩
  simp only [Nat.add_sub_cancel] at hstart
  simp only [Script.lineStart, ← Array.getElem?_toList, h.lineStarts, hstart]
  rfl

theorem locates (h : s.Scanned before) {span : Span}
    (hspan : Lines.Range s.script.content (byteLength before) span) : s.script.Locates span where
  firstLine := hspan.1.lineAt_eq.symm
  lastLine := hspan.2.lineAt_eq.symm
  firstColumn := by
    rw [Script.firstColumn, h.lineStart_eq hspan.1]
    exact Nat.add_sub_cancel' (Lines.startAt_le _ _)
  lastColumn := by
    rw [Script.lastColumn, h.lineStart_eq hspan.2]
    exact Nat.add_sub_cancel' (Lines.startAt_le _ _)

theorem accurate (h : s.Scanned before) : s.script.Accurate :=
  ⟨fun c hc => h.locates (h.comments c hc), fun p hp => h.locates (h.problems p hp)⟩

theorem index_eq (h : s.Scanned before) : s.cursor.index = byteLength before := h.behind.index

end Scanner.Scanned

namespace ParserState

/-- How much of the text has been passed. -/
def limit (s : ParserState) : Nat := s.scanner.cursor.index

/-- The range lies in the part of the text that has been passed. -/
def Ranges (s : ParserState) (span : Span) : Prop := Lines.Range s.script.content s.limit span

end ParserState

/-- What a parser can do from a state on. -/
inductive Walk : ParserState → ParserState → Prop
  | refl (s : ParserState) : Walk s s
  | scan {s t : ParserState} (h : Walk s t) : Walk s t.scanned
  | keep {s t : ParserState} (h : Walk s t) : Walk s { t with previous := t.token }
  | regular {s t : ParserState} (h : Walk s t)
      (slash : Rules.beginsRegularExpression t.token = true) : Walk s t.advanceRegular
  | split {s t : ParserState} {kind : TokenKind} {operator : Option Operator} (h : Walk s t)
      (greater : Parse.afterGreater? t.token = some (kind, operator)) : Walk s (t.split kind operator)
  | collect {s t : ParserState} {p : Problem} (h : Walk s t) (range : t.Ranges p.span) :
      Walk s (t.collect p)
  | note {s t : ParserState} (h : Walk s t) (functions : List FunctionUse) (superFound : Bool) :
      Walk s { t with functions, superFound }
  | splice {s t u : ParserState} {path source : String} (h : Walk s t)
      (child : Walk (ParserState.ofScript (Script.ofSource path source)) u) :
      Walk s (t.addIncluded u.script)

/-- The parser stands in its text, and all that it has found is where it is said to be. -/
structure ParserState.Sound (s : ParserState) : Prop where
  scanned : ∃ before, s.scanner.Scanned before
  previous : s.Ranges s.previous.span
  included : ∀ child ∈ s.script.included, ∀ d ∈ child.withIncluded, d.Accurate

namespace ParserState.Sound

variable {s : ParserState}

theorem ofSource (path source : String) : (ofScript (Script.ofSource path source)).Sound where
  scanned := ⟨[], .ofSource path source⟩
  previous := (Scanner.Scanned.ofSource path source).token
  included := by simp [script, ofScript, Scanner.ofScript, Script.ofSource]

theorem token (h : s.Sound) : s.Ranges s.token.span := by
  obtain ⟨before, hb⟩ := h.scanned
  unfold Ranges limit
  rw [hb.index_eq]
  exact hb.token

theorem locates (h : s.Sound) {span : Span} (hspan : s.Ranges span) : s.script.Locates span := by
  obtain ⟨before, hb⟩ := h.scanned
  unfold Ranges limit at hspan
  rw [hb.index_eq] at hspan
  exact hb.locates hspan

/-- Everything found in the script and in what it includes is where it is said to be. -/
theorem accurate (h : s.Sound) : ∀ d ∈ s.script.withIncluded, d.Accurate := by
  obtain ⟨before, hb⟩ := h.scanned
  have hincluded : s.script.withIncluded =
      s.script :: Script.withIncludedOfAll s.script.included := by
    cases s.script
    rfl
  intro d hd
  rw [hincluded] at hd
  rcases List.mem_cons.mp hd with rfl | hd
  · exact hb.accurate
  · obtain ⟨child, hchild, hd⟩ := (Script.mem_withIncludedOfAll _).mp hd
    exact h.included child hchild d hd

end ParserState.Sound

/-- Behind a place and a character that ends no line there is a place of the same line. -/
theorem Lines.At.behind {text front rest : List Char} {ch : Char} {limit line offset : Nat}
    (h : At text limit line offset) (htext : text = front ++ ch :: rest)
    (hoffset : offset = byteLength front) (hch : CharClass.isLineTerminator ch = false)
    (hle : offset + ch.utf8Size ≤ limit) : At text limit line (offset + ch.utf8Size) := by
  obtain ⟨before, after, heq, hwhole, hb, -, rfl⟩ := h
  obtain ⟨more, hfront, -⟩ := append_of_byteLength_le (heq.symm.trans htext)
    (by rw [← hb, hoffset])
  have hmore : more = [] := byteLength_eq_zero (by
    have := congrArg byteLength hfront
    rw [byteLength_append] at this
    omega)
  obtain rfl : front = before := by simpa [hmore] using hfront
  have hr : ch ≠ '\r' := by
    rintro rfl
    exact absurd hch (by decide)
  have hn : ch ≠ '\n' := by
    rintro rfl
    exact absurd hch (by decide)
  refine ⟨front ++ [ch], rest, by simp [htext], not_splits_of_last hr _ _, by simp [hoffset], hle, ?_⟩
  have hplain : ∀ c ∈ [ch], CharClass.isLineTerminator c = false := by simpa using hch
  rw [ends_append (not_splits_of_head hn _ _), ends_of_forall_not hplain, List.append_nil]

namespace Walk

/-- What a `>` leaves of an operator is spelled behind it. -/
theorem spelled_afterGreater : ∀ entry ∈ Scan.spelledChars,
    ∀ after ∈ Parse.afterGreater? { entry.2 with span := default },
      ∃ rest ∈ Scan.spelledChars, entry.1 = '>' :: rest.1 ∧ rest.2.kind = after.1 ∧
        rest.2.operator = after.2 := by
  decide +kernel

theorem afterGreater?_congr {t u : Token} (hkind : t.kind = u.kind)
    (hoperator : t.operator = u.operator) : Parse.afterGreater? t = Parse.afterGreater? u := by
  unfold Parse.afterGreater?
  rw [hkind, hoperator]

theorem afterGreater?_kind {t : Token} {kind : TokenKind} {operator : Option Operator}
    (h : Parse.afterGreater? t = some (kind, operator)) :
    t.operator ≠ none ∧ (t.kind = .operator ∨ t.kind = .compoundAssignment) := by
  unfold Parse.afterGreater? at h
  split at h
  all_goals first | exact ⟨by simp [*], by simp [*]⟩ | cases h

/-- A token can be split behind its first `>`, which is the character that it begins with. -/
theorem split_spelled {before : List Char} {t : Token} {kind : TokenKind}
    {operator : Option Operator} (h : t.Spelled before)
    (hafter : Parse.afterGreater? t = some (kind, operator)) :
    ∃ front back, before = front ++ '>' :: back ∧ t.span.start = byteLength front ∧
      ({ t with kind, operator, span := { t.span with start := t.span.start + 1 } } : Token).Spelled
        before := by
  obtain ⟨hoperator, hkind⟩ := afterGreater?_kind hafter
  obtain ⟨entry, hmem, hk, ho, front, back, rfl, hstart⟩ := h hoperator hkind
  rw [afterGreater?_congr hk.symm ho.symm (u := { entry.2 with span := default })] at hafter
  obtain ⟨rest, hrest, hentry, hrk, hro⟩ := spelled_afterGreater entry hmem _ hafter
  refine ⟨front, rest.1 ++ back, by simp [hentry], hstart, fun _ _ => ?_⟩
  refine ⟨rest, hrest, hrk, hro, front ++ ['>'], back, by simp [hentry], ?_⟩
  simp only [byteLength_append, hstart]
  rfl

variable {s t u : ParserState}


theorem trans (hst : Walk s t) (htu : Walk t u) : Walk s u := by
  induction htu with
  | refl => exact hst
  | scan _ ih => exact (ih hst).scan
  | keep _ ih => exact (ih hst).keep
  | regular _ hslash ih => exact (ih hst).regular hslash
  | split _ hgreater ih => exact (ih hst).split hgreater
  | collect _ hrange ih => exact (ih hst).collect hrange
  | note _ functions superFound ih => exact (ih hst).note functions superFound
  | splice _ hchild ih _ => exact (ih hst).splice hchild

theorem path_eq (h : Walk s t) : t.script.path = s.script.path := by
  induction h with
  | refl => rfl
  | @scan _ t _ ih =>
    rw [← ih]
    obtain ⟨_, _, _, _, _, he⟩ | ⟨_, _, _, he⟩ := t.scanner.next_cases <;>
      simp only [ParserState.scanned, ParserState.script, he] <;> rfl
  | @regular _ t _ _ ih =>
    rw [← ih]
    obtain ⟨_, _, _, _, _, he⟩ | ⟨_, he⟩ := t.scanner.readRegularExpression_cases <;>
      simp only [ParserState.advanceRegular, ParserState.script, he] <;> rfl
  | keep _ ih | split _ _ ih | collect _ _ ih | note _ _ _ ih | splice _ _ ih _ => exact ih

theorem content_eq (h : Walk s t) : t.script.content = s.script.content := by
  induction h with
  | refl => rfl
  | @scan _ t _ ih => exact t.scanner.next_content.trans ih
  | @regular _ t _ _ ih =>
    exact t.scanner.readRegularExpression_content.trans ih
  | keep _ ih | split _ _ ih | collect _ _ ih | note _ _ _ ih | splice _ _ ih _ => exact ih

/-- What has been included stays so. -/
theorem included_prefix (h : Walk s t) : s.script.included <+: t.script.included := by
  induction h with
  | refl => exact List.prefix_rfl
  | @scan _ t _ ih =>
    have heq : t.scanned.script.included = t.script.included := t.scanner.next_included
    exact heq ▸ ih
  | @regular _ t _ _ ih =>
    have heq : t.advanceRegular.script.included = t.script.included :=
      t.scanner.readRegularExpression_included
    exact heq ▸ ih
  | splice _ _ ih _ => exact ih.trans (List.prefix_append _ _)
  | keep _ ih | split _ _ ih | collect _ _ ih | note _ _ _ ih => exact ih

/-- A parser that has not lost its place keeps it, and goes on from there. -/
theorem sound (h : Walk s t) (hs : s.Sound) : t.Sound ∧ s.limit ≤ t.limit := by
  have step : ∀ {t u : ParserState}, t.Sound → u.script.content = t.script.content →
      (∃ before, u.scanner.Scanned before ∧ t.limit ≤ byteLength before) →
      u.previous = t.previous ∨ u.previous = t.token → u.script.included = t.script.included →
      u.Sound ∧ t.limit ≤ u.limit := by
    rintro t u ht hcontent ⟨before, hscanned, hle⟩ hprevious hincluded
    have hlimit : t.limit ≤ u.limit := by
      unfold ParserState.limit at hle ⊢
      rwa [hscanned.index_eq]
    refine ⟨⟨⟨before, hscanned⟩, ?_, hincluded ▸ ht.included⟩, hlimit⟩
    unfold ParserState.Ranges
    rw [hcontent]
    rcases hprevious with heq | heq
    · rw [heq]
      exact ht.previous.mono hlimit
    · rw [heq]
      exact ht.token.mono hlimit
  induction h with
  | refl => exact ⟨hs, Nat.le_refl _⟩
  | @scan _ t _ ih =>
    obtain ⟨ht, hle⟩ := ih hs
    obtain ⟨before, hb⟩ := ht.scanned
    obtain ⟨text, hnext⟩ := Scanner.next_scanned hb
    obtain ⟨hu, hmore⟩ := step (u := t.scanned) ht t.scanner.next_content
      ⟨_, hnext, by simp [ParserState.limit, hb.index_eq]⟩ (Or.inl rfl) t.scanner.next_included
    exact ⟨hu, hle.trans hmore⟩
  | @keep _ t _ ih =>
    obtain ⟨ht, hle⟩ := ih hs
    obtain ⟨before, hb⟩ := ht.scanned
    obtain ⟨hu, hmore⟩ := step (u := { t with previous := t.token }) ht rfl
      ⟨before, hb, by simp [ParserState.limit, hb.index_eq]⟩ (Or.inr rfl) rfl
    exact ⟨hu, hle.trans hmore⟩
  | @regular _ t ht' hslash ih =>
    obtain ⟨ht, hle⟩ := ih hs
    obtain ⟨before, hb⟩ := ht.scanned
    obtain ⟨text, hnext⟩ := Scanner.readRegularExpression_scanned hb
    obtain ⟨hu, hmore⟩ := step (u := t.advanceRegular) ht
      ((ht'.regular hslash).content_eq.trans ht'.content_eq.symm)
      ⟨_, hnext, by simp [ParserState.limit, hb.index_eq]⟩ (Or.inl rfl)
      t.scanner.readRegularExpression_included
    exact ⟨hu, hle.trans hmore⟩
  | @split _ t kind operator _ hgreater ih =>
    obtain ⟨ht, hle⟩ := ih hs
    obtain ⟨before, hb⟩ := ht.scanned
    obtain ⟨front, back, hfront, hstart, hspelled⟩ := split_spelled hb.spelled hgreater
    have hcontent : t.script.content = front ++ '>' :: (back ++ t.scanner.cursor.rest) := by
      rw [show t.script.content = _ from hb.content, hfront]
      simp
    have hwidth : t.token.span.start + ('>' : Char).utf8Size ≤ t.limit := by
      unfold ParserState.limit
      rw [hb.index_eq, hfront, show t.token.span.start = _ from hstart]
      simp
    have htoken := ht.token
    have hplace : Lines.At t.script.content t.limit t.token.span.firstLine
        (t.token.span.start + 1) :=
      htoken.1.behind hcontent hstart (by decide) hwidth
    have hlimit : byteLength before = t.limit := hb.index_eq.symm
    refine ⟨⟨⟨before, hb.withToken ?_ hspelled⟩, ?_, ht.included⟩, hle⟩
    · rw [hlimit]
      exact ⟨hplace, htoken.2⟩
    · exact ⟨htoken.1, hplace⟩
  | @collect _ t p _ hrange ih =>
    obtain ⟨ht, hle⟩ := ih hs
    obtain ⟨before, hb⟩ := ht.scanned
    refine ⟨⟨⟨before, hb.collect ?_⟩, ht.previous, ht.included⟩, hle⟩
    unfold ParserState.Ranges ParserState.limit at hrange
    rwa [hb.index_eq] at hrange
  | note _ _ _ ih =>
    obtain ⟨ht, hle⟩ := ih hs
    exact ⟨⟨ht.scanned, ht.previous, ht.included⟩, hle⟩
  | @splice _ t u path source _ _ ih ihchild =>
    obtain ⟨ht, hle⟩ := ih hs
    have hu := (ihchild (.ofSource path source)).1
    obtain ⟨before, hb⟩ := ht.scanned
    refine ⟨⟨⟨before, { hb with }⟩, ht.previous, fun child hchild => ?_⟩, hle⟩
    rcases List.mem_append.mp hchild with hchild | hchild
    · exact ht.included child hchild
    · rw [List.mem_singleton.mp hchild]
      exact hu.accurate

end Walk

end ActionSyntax
