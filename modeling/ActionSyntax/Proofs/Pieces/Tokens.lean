import ActionSyntax.Proofs.Elementary
import ActionSyntax.Proofs.Places.Steps
import ActionSyntax.Proofs.Problems

/-!
The tokens that a parser consumes on its way. They stand in the order in which they have been
consumed, one behind the other, and the last of them is the previous token.
-/

namespace ActionSyntax

set_option autoImplicit false

open Utf8

namespace Span

/-- The range ends where the other one begins, or before. -/
structure Before (a b : Span) : Prop where
  offset : a.stop ≤ b.start
  line : a.lastLine ≤ b.firstLine

/-- The other range lies within this one, in offsets and in lines. -/
structure Covers (outer inner : Span) : Prop where
  start : outer.start ≤ inner.start
  stop : inner.stop ≤ outer.stop
  firstLine : outer.firstLine ≤ inner.firstLine
  lastLine : inner.lastLine ≤ outer.lastLine

@[simp] theorem Covers.refl (a : Span) : a.Covers a := ⟨Nat.le_refl _, Nat.le_refl _, Nat.le_refl _,
  Nat.le_refl _⟩

theorem Covers.trans {a b c : Span} (hab : a.Covers b) (hbc : b.Covers c) : a.Covers c where
  start := hab.start.trans hbc.start
  stop := hbc.stop.trans hab.stop
  firstLine := hab.firstLine.trans hbc.firstLine
  lastLine := hbc.lastLine.trans hab.lastLine

end Span

namespace ParserState

/-- The states stand at the same place of the same script, whatever else they know. -/
structure Beside (s t : ParserState) : Prop where
  token : t.token = s.token
  previous : t.previous = s.previous
  cursor : t.scanner.cursor = s.scanner.cursor
  path : t.script.path = s.script.path
  content : t.script.content = s.script.content

theorem Beside.refl (s : ParserState) : s.Beside s := ⟨rfl, rfl, rfl, rfl, rfl⟩

end ParserState

/-- From the first state to the second just these tokens are consumed, in this order. -/
inductive Consumes : ParserState → List Token → ParserState → Prop
  | refl (s : ParserState) : Consumes s [] s
  | next {s t : ParserState} {tokens : List Token} (h : Consumes s tokens t)
      (more : t.token.kind ≠ .endOfProgram) (ok : t.scanner.next.1 = .ok ()) :
      Consumes s (tokens ++ [t.token]) t.advance
  | regular {s t : ParserState} {tokens : List Token} (h : Consumes s tokens t)
      (slash : Rules.beginsRegularExpression t.token = true)
      (ok : t.scanner.readRegularExpression.1 = .ok ()) : Consumes s tokens t.advanceRegular
  | split {s t : ParserState} {tokens : List Token} {kind : TokenKind} {operator : Option Operator}
      (h : Consumes s tokens t) (greater : Parse.afterGreater? t.token = some (kind, operator)) :
      Consumes s (tokens ++ [Parse.firstGreater t.token]) (t.split kind operator)
  | beside {s t u : ParserState} {tokens : List Token} (h : Consumes s tokens t)
      (same : t.Beside u) : Consumes s tokens u

namespace Consumes

variable {s t u : ParserState} {tokens more : List Token}

theorem trans (hst : Consumes s tokens t) (htu : Consumes t more u) :
    Consumes s (tokens ++ more) u := by
  induction htu with
  | refl => simpa using hst
  | next _ hmore ok ih => simpa using ih.next hmore ok
  | regular _ slash ok ih => exact ih.regular slash ok
  | split _ greater ih => simpa using ih.split greater
  | beside _ same ih => exact ih.beside same

end Consumes

theorem Utf8.length_le_byteLength (text : List Char) : text.length ≤ byteLength text := by
  induction text with
  | nil => exact Nat.le_refl _
  | cons ch text ih =>
    have := ch.utf8Size_pos
    simp only [List.length_cons, byteLength_cons]
    omega

/-- A token has room for all the pieces it may be split into. -/
structure Token.Roomy (t : Token) : Prop where
  offset : t.span.start + t.toLexeme.weight ≤ t.span.stop
  line : t.span.firstLine ≤ t.span.lastLine

/-- The previous token, the current one and the place of the scanner stand one behind the other. -/
structure ParserState.Ordered (s : ParserState) : Prop where
  behind : ∃ before, s.scanner.cursor.Behind before
  previous : s.previous.span.Before s.token.span
  token : s.token.Roomy
  cursor : s.token.span.Before s.scanner.cursor.place

namespace ParserState.Ordered

variable {s t : ParserState}

theorem initial (script : Script) : (ofScript script).Ordered where
  behind := ⟨[], .ofContent _⟩
  previous := ⟨Nat.le_refl _, Nat.le_refl _⟩
  token := ⟨Nat.le_refl _, Nat.le_refl _⟩
  cursor := ⟨Nat.le_refl _, Nat.le_refl _⟩

theorem beside (h : s.Ordered) (same : s.Beside t) : t.Ordered := by
  obtain ⟨behind, previous, token, cursor⟩ := h
  constructor
  · rwa [same.cursor]
  · rwa [same.previous, same.token]
  · rwa [same.token]
  · rwa [same.token, same.cursor]

/-- What a step of the scanner reads stands behind the place where it began. -/
theorem next_after {c : Scanner} (hc : ∃ before, c.cursor.Behind before) (ok : c.next.1 = .ok ()) :
    (∃ before, c.next.2.cursor.Behind before) ∧ c.cursor.place.Before c.next.2.token.span ∧
      c.next.2.token.Roomy ∧ c.next.2.token.span.Before c.next.2.cursor.place := by
  obtain ⟨before, hbehind⟩ := hc
  obtain ⟨start, l, stop, ht, hl, he⟩ | ⟨_, _, _, he⟩ := c.next_cases
  case inr => simp [he] at ok
  have htrivia := Scan.triviaEnd_crosses (c.cursor.rest.length + 1) hbehind
  unfold Scan.trivia at ht
  rw [ht] at htrivia
  obtain ⟨gap, notes, -, hp⟩ := htrivia
  obtain ⟨text, hq⟩ : start.Onto stop := by
    have hcovers := Scan.lexeme_covers start
    rwa [hl] at hcovers
  have hweight := (Scan.lexeme_weight hl).2.1
  have hlength := length_le_byteLength text
  have hstart := hp.index
  have hstop := hq.index
  have hline := hp.line
  have hlast := hq.line
  have hrest := congrArg List.length hq.rest
  simp only [List.length_append] at hrest
  have hmoved := (hbehind.passes hp).passes hq
  rw [he]
  refine ⟨⟨_, ⟨hmoved.index, hmoved.line, hmoved.whole⟩⟩, ⟨?_, ?_⟩, ⟨?_, ?_⟩, ⟨Nat.le_refl _, Nat.le_refl _⟩⟩
  · show c.cursor.index ≤ start.index
    omega
  · show c.cursor.line ≤ start.line
    omega
  · show start.index + l.weight ≤ stop.index
    omega
  · show start.line ≤ stop.line
    omega

theorem scanned {s : ParserState} (h : s.Ordered) (ok : s.scanner.next.1 = .ok ()) :
    ({ s with scanner := s.scanner.next.2 } : ParserState).Ordered := by
  obtain ⟨hbehind, hgap, hroomy, hcursor⟩ := next_after h.behind ok
  refine ⟨hbehind, ?_, hroomy, hcursor⟩
  have hoffset := h.token.offset
  exact ⟨(h.previous.offset.trans (by omega)).trans (h.cursor.offset.trans hgap.offset),
    (h.previous.line.trans h.token.line).trans (h.cursor.line.trans hgap.line)⟩

theorem advance (h : s.Ordered) (ok : s.scanner.next.1 = .ok ()) : s.advance.Ordered := by
  obtain ⟨hbehind, hgap, hroomy, hcursor⟩ := next_after h.behind ok
  exact ⟨hbehind, ⟨h.cursor.offset.trans hgap.offset, h.cursor.line.trans hgap.line⟩, hroomy, hcursor⟩

theorem begins_weight {t : Token} (h : Rules.beginsRegularExpression t = true) :
    0 < t.toLexeme.weight := by
  refine Lexeme.weight_pos fun hk => ?_
  simp [Rules.beginsRegularExpression, Token.isOperator, Token.isCompoundAssignment, hk] at h

/-- What a regular expression is read of begins where its slash does. -/
theorem advanceRegular (h : s.Ordered)
    (slash : Rules.beginsRegularExpression s.token = true)
    (ok : s.scanner.readRegularExpression.1 = .ok ()) :
    s.advanceRegular.Ordered ∧ s.advanceRegular.token.span.start = s.token.span.start ∧
      s.advanceRegular.token.span.firstLine = s.token.span.firstLine ∧
      s.advanceRegular.token.kind = .regularExpression := by
  obtain ⟨before, hbehind⟩ := h.behind
  obtain ⟨body, flags, stop, hb, hf, he⟩ | ⟨_, he⟩ := s.scanner.readRegularExpression_cases
  case inr => simp [he] at ok
  obtain ⟨text, hp⟩ : s.scanner.cursor.Onto body := by
    have hbody := Scan.regularBody_covers (s.scanner.cursor.rest.length + 1) s.scanner.cursor
    rwa [hb] at hbody
  obtain ⟨more, hq⟩ : body.Onto stop := by
    have hflags := Scan.regularFlags_covers body
    rwa [hf] at hflags
  have hpq := hp.trans hq
  have hindex := hpq.index
  have hline := hpq.line
  have hmoved := hbehind.passes hpq
  have hoffset := h.token.offset
  have hlines := h.token.line
  have hcursor := h.cursor.offset
  have hcursorLine := h.cursor.line
  have hpos := begins_weight slash
  unfold ParserState.advanceRegular ParserState.token
  rw [he]
  refine ⟨⟨⟨_, ⟨hmoved.index, hmoved.line, hmoved.whole⟩⟩, ⟨h.previous.offset, h.previous.line⟩,
    ⟨?_, ?_⟩, ⟨Nat.le_refl _, Nat.le_refl _⟩⟩, rfl, rfl, rfl⟩
  · show s.token.span.start + 1 ≤ stop.index
    have : s.scanner.cursor.index ≤ stop.index := by omega
    exact (Nat.add_le_add_left hpos _).trans (hoffset.trans (hcursor.trans this))
  · show s.token.span.firstLine ≤ stop.line
    have : s.scanner.cursor.line ≤ stop.line := by omega
    exact hlines.trans (hcursorLine.trans this)

/-- What is left of a token begins behind its first `>`. -/
theorem split {kind : TokenKind} {operator : Option Operator} (h : s.Ordered)
    (greater : Parse.afterGreater? s.token = some (kind, operator)) :
    (s.split kind operator).Ordered := by
  have hweight := Setting.afterGreater?_weight greater
  have hoffset := h.token.offset
  refine ⟨h.behind, ⟨Nat.le_refl _, Nat.le_refl _⟩, ⟨?_, h.token.line⟩,
    ⟨h.cursor.offset, h.cursor.line⟩⟩
  show s.token.span.start + 1 + (s.split kind operator).token.toLexeme.weight ≤ s.token.span.stop
  rw [Nat.add_assoc, Nat.add_comm 1]
  exact (Nat.add_le_add_left hweight _).trans hoffset

end ParserState.Ordered

/-- The tokens that are consumed between two states stand one behind the other. The first one begins
where the current token of the first state does, and the last one is the previous token in the end. -/
structure Paced (s : ParserState) (tokens : List Token) (t : ParserState) : Prop where
  ordered : t.Ordered
  wide : ∀ a ∈ tokens, a.span.start < a.span.stop ∧ a.span.firstLine ≤ a.span.lastLine
  chain : tokens.Pairwise fun a b => a.span.Before b.span
  behind : ∀ a ∈ tokens, a.span.Before t.token.span
  first : ∀ a ∈ tokens.head?, a.span.start = s.token.span.start ∧
    a.span.firstLine = s.token.span.firstLine ∧ (a.kind = .keyword → a = s.token)
  last : ∀ b ∈ tokens.getLast?, b = t.previous
  stays : tokens = [] → t.previous = s.previous ∧ t.token.span.start = s.token.span.start ∧
    t.token.span.firstLine = s.token.span.firstLine ∧ (t.token.kind = .keyword → t.token = s.token)

namespace Paced

variable {s t u : ParserState} {tokens : List Token} {a : Token}

/-- Another token is consumed, which begins where the current one does. -/
theorem snoc (h : Paced s tokens t) (hu : u.Ordered) (hprevious : u.previous = a)
    (hstart : a.span.start = t.token.span.start)
    (hline : a.span.firstLine = t.token.span.firstLine) (hkind : a.kind = .keyword → a = t.token)
    (hwide : a.span.start < a.span.stop ∧ a.span.firstLine ≤ a.span.lastLine) :
    Paced s (tokens ++ [a]) u where
  ordered := hu
  wide b hb := (List.mem_append.mp hb).elim (h.wide b) fun hb => List.mem_singleton.mp hb ▸ hwide
  chain := by
    refine List.pairwise_append.mpr ⟨h.chain, List.pairwise_singleton _ _, fun b hb c hc => ?_⟩
    obtain rfl := List.mem_singleton.mp hc
    have hbehind := h.behind b hb
    exact ⟨hstart ▸ hbehind.offset, hline ▸ hbehind.line⟩
  behind := by
    have hlast : a.span.Before u.token.span := hprevious ▸ hu.previous
    intro b hb
    rcases List.mem_append.mp hb with hb | hb
    · have hbehind := h.behind b hb
      have hoffset := hlast.offset
      have hlines := hlast.line
      exact ⟨by have := hbehind.offset; omega, by have := hbehind.line; omega⟩
    · exact List.mem_singleton.mp hb ▸ hlast
  first := by
    intro b hb
    cases tokens with
    | nil =>
      obtain rfl : a = b := by simpa using hb
      obtain ⟨-, hs, hl, hk⟩ := h.stays rfl
      exact ⟨hstart.trans hs, hline.trans hl, fun hkey => (hkind hkey).trans (hk (hkind hkey ▸ hkey))⟩
    | cons c tokens => exact h.first b (by simpa using hb)
  last := by
    intro b hb
    obtain rfl : a = b := by simpa using hb
    exact hprevious.symm
  stays hnil := by simp at hnil

end Paced

theorem Consumes.paced {s t : ParserState} {tokens : List Token} (h : Consumes s tokens t)
    (hs : s.Ordered) : Paced s tokens t := by
  induction h with
  | refl =>
    exact
      { ordered := hs
        wide := by simp
        chain := .nil
        behind := by simp
        first := by simp
        last := by simp
        stays := fun _ => ⟨rfl, rfl, rfl, fun _ => rfl⟩ }
  | @next t _ _ more ok ih =>
    have hoffset := ih.ordered.token.offset
    have hpos := Lexeme.weight_pos more
    exact ih.snoc (ih.ordered.advance ok) rfl rfl rfl (fun _ => rfl)
      ⟨by omega, ih.ordered.token.line⟩
  | @regular t _ _ slash ok ih =>
    obtain ⟨hordered, hstart, hline, hkind⟩ := ih.ordered.advanceRegular slash ok
    refine { ih with ordered := hordered, behind := fun a ha => ?_, stays := fun hnil => ?_ }
    · have hbehind := ih.behind a ha
      exact ⟨hstart ▸ hbehind.offset, hline ▸ hbehind.line⟩
    · obtain ⟨hprevious, hs, hl, -⟩ := ih.stays hnil
      exact ⟨hprevious, hstart.trans hs, hline.trans hl, fun hk => by simp [hkind] at hk⟩
  | @split t _ _ _ _ greater ih =>
    have hkind : (Parse.firstGreater t.token).kind = .operator := rfl
    exact ih.snoc (ih.ordered.split greater) rfl rfl rfl (fun hk => by simp [hkind] at hk)
      ⟨Nat.lt_succ_self _, Nat.le_refl _⟩
  | beside _ same ih =>
    refine { ih with
      ordered := ih.ordered.beside same
      behind := same.token ▸ ih.behind
      last := same.previous ▸ ih.last
      stays := ?_ }
    rw [same.token, same.previous]
    exact ih.stays

namespace Paced

variable {s t : ParserState} {tokens : List Token}

/-- The current token moves on with every token that is consumed. -/
theorem start_lt (h : Paced s tokens t) (hne : tokens ≠ []) :
    s.token.span.start < t.token.span.start := by
  obtain ⟨a, rest, rfl⟩ := List.exists_cons_of_ne_nil hne
  have hfirst := (h.first a rfl).1
  have hwide := (h.wide a List.mem_cons_self).1
  have hbehind := (h.behind a List.mem_cons_self).offset
  omega

theorem start_le (h : Paced s tokens t) : s.token.span.start ≤ t.token.span.start := by
  by_cases hnil : tokens = []
  · exact (h.stays hnil).2.1.ge
  · exact (h.start_lt hnil).le

/-- What begins at the first state and is finished at the second covers the tokens between them, from
the first one to the last. -/
theorem ends (h : Paced s tokens t) (hne : tokens ≠ []) :
    ∃ a ∈ tokens, ∃ b ∈ tokens, a.span.start ≤ b.span.start ∧
      s.token.span.«to» t.previous.span = a.span.«to» b.span ∧ (a.kind = .keyword → a = s.token) ∧
      ∀ c ∈ tokens, (a.span.«to» b.span).Covers c.span := by
  have hlast : tokens.getLast hne = t.previous := h.last _ (List.getLast?_eq_some_getLast hne)
  obtain ⟨hstart, hline, hkind⟩ := h.first _ (List.head?_eq_some_head hne)
  have hfirst : ∀ c ∈ tokens, (tokens.head hne).span.start ≤ c.span.start ∧
      (tokens.head hne).span.firstLine ≤ c.span.firstLine := by
    intro c hc
    have hwide := h.wide _ (List.head_mem hne)
    rw [← List.cons_head_tail hne] at hc
    rcases List.mem_cons.mp hc with rfl | hc
    · exact ⟨Nat.le_refl _, Nat.le_refl _⟩
    · have hchain := h.chain
      rw [← List.cons_head_tail hne] at hchain
      have hbefore := (List.pairwise_cons.mp hchain).1 c hc
      exact ⟨hwide.1.le.trans hbefore.offset, hwide.2.trans hbefore.line⟩
  have hend : ∀ c ∈ tokens, c.span.stop ≤ (tokens.getLast hne).span.stop ∧
      c.span.lastLine ≤ (tokens.getLast hne).span.lastLine := by
    intro c hc
    have hwide := h.wide _ (List.getLast_mem hne)
    rw [← List.dropLast_concat_getLast hne] at hc
    rcases List.mem_append.mp hc with hc | hc
    · have hchain := h.chain
      rw [← List.dropLast_concat_getLast hne] at hchain
      have hbefore := (List.pairwise_append.mp hchain).2.2 c hc _ (List.mem_singleton_self _)
      exact ⟨hbefore.offset.trans hwide.1.le, hbefore.line.trans hwide.2⟩
    · rw [List.mem_singleton.mp hc]
      exact ⟨Nat.le_refl _, Nat.le_refl _⟩
  refine ⟨_, List.head_mem hne, _, List.getLast_mem hne, (hfirst _ (List.getLast_mem hne)).1, ?_,
    hkind, fun c hc => ⟨(hfirst c hc).1, (hend c hc).1, (hfirst c hc).2, (hend c hc).2⟩⟩
  rw [hlast]
  simp only [Span.to, hstart, hline]

end Paced

end ActionSyntax
