import ActionSyntax.Proofs.Respacing.Contract
import ActionSyntax.Proofs.Respacing.Crossing
import ActionSyntax.Proofs.Respacing.Indents
import ActionSyntax.Proofs.Respacing.Offsets

/-!
The states of three readings of a text with a gap: of the text up to the end of the gap, of the whole text,
and of the text with another gap. In front of the gap they are one state, in texts that go on differently.
Behind it the places of the last one have been moved. The first one tells whether the gap stands between
two tokens: if it does, that reading is at its end when the token in front of the gap is the previous one.
-/

namespace ActionSyntax

set_option autoImplicit false

open Utf8

namespace ParserState

/-- The state in a text that goes on. -/
def before (tail : List Char) (s : ParserState) : ParserState :=
  { s with
    scanner := { s.scanner with
      script := { s.scanner.script with content := s.scanner.script.content ++ tail }
      cursor := s.scanner.cursor.before tail } }

/-- The state when other problems have been found. -/
def refound (problems : Array Problem) (s : ParserState) : ParserState :=
  { s with scanner := { s.scanner with script := { s.scanner.script with problems } } }

end ParserState

/-- A text that has been read stays read when the text goes on. -/
theorem Scanner.Passed.before {read : List Char} {s : ParserState} (h : s.scanner.Passed read)
    (hread : read = [] ∨ EndsSolid read) (tail : List Char) : (s.before tail).scanner.Passed read where
  content := by
    show s.scanner.script.content ++ tail = read ++ (s.scanner.cursor.rest ++ tail)
    rw [h.content, List.append_assoc]
  behind := by
    refine ⟨h.behind.index, h.behind.line, ?_⟩
    rcases hread with rfl | hsolid
    · exact Lines.not_splits_nil _
    · exact hsolid.not_splits _
  linesTaken := h.linesTaken
  commentsTaken := h.commentsTaken
  lineStarts := h.lineStarts

def Token.moved (bytes : Nat) (t : Token) : Token := { t with span := t.span.moved bytes 0 }

/-- Tokens that have been moved by different lengths are twins. -/
theorem Token.twin_moved (t : Token) (a b : Nat) : (t.moved a).Twin (t.moved b) where
  lexeme := rfl
  firstLine := rfl
  lastLine := rfl
  length := by
    show t.span.stop + a - (t.span.start + a) = t.span.stop + b - (t.span.start + b)
    rw [Nat.add_sub_add_right, Nat.add_sub_add_right]

theorem Parse.kind_of_afterGreater? {t : Token} {kind : TokenKind} {operator : Option Operator}
    (h : afterGreater? t = some (kind, operator)) : kind ≠ .endOfProgram := by
  unfold afterGreater? at h
  split at h <;> cases h <;> decide

namespace Respacing

variable (x : Respacing)

/-- A state of the front, at its beginning or behind something solid. -/
structure Standing (read : List Char) (u : ParserState) : Prop where
  passed : u.scanner.Passed read
  content : u.script.content = x.front
  solid : read = [] ∨ EndsSolid read

/-- A state of the front in front of the gap, at a token. -/
structure Inside (read : List Char) (u : ParserState) : Prop where
  passed : u.scanner.Passed read
  content : u.script.content = x.front
  solid : EndsSolid read
  ends : u.token.span.stop = byteLength read
  proper : u.token.kind ≠ .endOfProgram

/-- One state of the front, in the three texts. What has been found may be placed otherwise in the last. -/
def Before (c s t : ParserState) : Prop :=
  ∃ read u problems, x.Inside read u ∧ Matches u.script.problems.toList (Array.toList problems) ∧
    c = u.before x.gap ∧ s = u.before (x.gap ++ x.back) ∧
    t = (u.refound problems).before (x.other ++ x.back)

/-- Two states behind the gaps, with the same text read there. -/
structure Level (read : List Char) (u : Cursor) (v : Token) (s t : ParserState) : Prop where
  solid : EndsSolid x.front
  split : x.back = read ++ u.rest
  passed : s.scanner.Passed (x.front ++ x.gap ++ read)
  passedOther : t.scanner.Passed (x.front ++ x.other ++ read)
  cursor : s.scanner.cursor = u.shifted { bytes := byteLength (x.front ++ x.gap) }
  cursorOther : t.scanner.cursor = u.shifted { bytes := byteLength (x.front ++ x.other) }
  token : s.token = v.moved (byteLength (x.front ++ x.gap))
  tokenOther : t.token = v.moved (byteLength (x.front ++ x.other))
  previous : s.previous.Twin t.previous
  functions : s.functions = t.functions
  superFound : s.superFound = t.superFound
  path : s.script.path = t.script.path
  alike : s.script.Alike t.script

def Beyond (s t : ParserState) : Prop := ∃ read u v, x.Level read u v s t

/-- The reading has taken something of the gap into a token, or has come to the end of the text without a
token that ends in front of the gap. -/
def Astray (c : ParserState) : Prop :=
  (∃ read, c.scanner.Passed read) ∧ byteLength x.front < c.scanner.cursor.index ∧
    byteLength x.front < c.token.span.stop ∧
    (c.token.kind = .endOfProgram → c.previous.span.stop ≠ byteLength x.front)

/-- The reading is at the end of the text, and the token before that ends in front of the gap. -/
def Arrived (c : ParserState) : Prop :=
  c.token.kind = .endOfProgram ∧ c.previous.span.stop = byteLength x.front

variable {x} {c s t u : ParserState}

section Inside

variable {read : List Char}

theorem Inside.standing (h : x.Inside read u) : x.Standing read u := ⟨h.passed, h.content, Or.inr h.solid⟩

theorem Standing.before (h : x.Standing read u) (tail : List Char) :
    (u.before tail).scanner.Passed read := h.passed.before h.solid tail

theorem Standing.front_eq (h : x.Standing read u) : x.front = read ++ u.scanner.cursor.rest :=
  h.content.symm.trans h.passed.content

theorem Inside.collect (h : x.Inside read u) (p : Problem) : x.Inside read (u.collect p) :=
  ⟨h.passed.withScript rfl rfl, h.content, h.solid, h.ends, h.proper⟩

theorem Inside.addIncluded (h : x.Inside read u) (child : Script) : x.Inside read (u.addIncluded child) :=
  ⟨h.passed.withScript rfl rfl, h.content, h.solid, h.ends, h.proper⟩

theorem Inside.split {kind : TokenKind} {operator : Option Operator} (h : x.Inside read u)
    (hafter : Parse.afterGreater? u.token = some (kind, operator)) :
    x.Inside read (u.split kind operator) :=
  ⟨h.passed.withToken _, h.content, h.solid, h.ends, Parse.kind_of_afterGreater? hafter⟩

/-- In texts that go on differently, and with different problems, the rules see the same. -/
theorem Inside.view_eq (h : x.Inside read u) (tail tail' : List Char) (problems : Array Problem) :
    (u.before tail).view = ((u.refound problems).before tail').view := by
  have hleft := h.passed.before (Or.inr h.solid) tail
  have hfound : ({ u.scanner with script := { u.scanner.script with problems } } : Scanner).Passed read :=
    h.passed.withScript rfl rfl
  have hright : ((u.refound problems).before tail').scanner.Passed read :=
    Scanner.Passed.before hfound (Or.inr h.solid) tail'
  have hindent : (u.before tail).indentedFurther = ((u.refound problems).before tail').indentedFurther := by
    have hlines := hleft.lineIndent_eq hright h.solid
    unfold ParserState.indentedFurther ParserState.script
    rw [hlines, hlines]
    rfl
  unfold ParserState.view
  rw [hindent]
  rfl

end Inside

namespace Before

theorem short (h : x.Before c s t) : ¬ x.Arrived c := by
  obtain ⟨read, u, problems, hu, -, rfl, -, -⟩ := h
  exact fun harrived => hu.proper harrived.1

theorem proper (h : x.Before c s t) : c.token.kind ≠ .endOfProgram := by
  obtain ⟨read, u, problems, hu, -, rfl, -, -⟩ := h
  exact hu.proper

theorem views (h : x.Before c s t) : c.view = s.view ∧ s.view.Like t.view := by
  obtain ⟨read, u, problems, hu, -, rfl, rfl, rfl⟩ := h
  refine ⟨hu.view_eq _ _ u.script.problems, ?_⟩
  rw [hu.view_eq _ (x.other ++ x.back) problems]
  exact .refl _

theorem collect {p q : Problem} (h : x.Before c s t) (hpq : Matches p q) :
    x.Before (c.collect p) (s.collect p) (t.collect q) := by
  obtain ⟨read, u, problems, hu, hproblems, rfl, rfl, rfl⟩ := h
  refine ⟨read, u.collect p, problems.push q, hu.collect p, ?_, rfl, rfl, ?_⟩
  · simp_all [ParserState.collect, ParserState.script, Script.collect]
  · simp only [ParserState.collect, ParserState.refound, ParserState.before, Script.collect,
      Problem.isWarning_of_matches hpq]

theorem addIncluded (h : x.Before c s t) (child : Script) :
    x.Before (c.addIncluded child) (s.addIncluded child) (t.addIncluded child) := by
  obtain ⟨read, u, problems, hu, hproblems, rfl, rfl, rfl⟩ := h
  exact ⟨read, u.addIncluded child, problems, hu.addIncluded child, hproblems, rfl, rfl, rfl⟩

theorem withFunctions (h : x.Before c s t) (functions : List FunctionUse) :
    x.Before { c with functions } { s with functions } { t with functions } := by
  obtain ⟨read, u, problems, hu, hproblems, rfl, rfl, rfl⟩ := h
  exact ⟨read, { u with functions }, problems,
    ⟨hu.passed, hu.content, hu.solid, hu.ends, hu.proper⟩, hproblems, rfl, rfl, rfl⟩

theorem withSuperFound (h : x.Before c s t) (superFound : Bool) :
    x.Before { c with superFound } { s with superFound } { t with superFound } := by
  obtain ⟨read, u, problems, hu, hproblems, rfl, rfl, rfl⟩ := h
  exact ⟨read, { u with superFound }, problems,
    ⟨hu.passed, hu.content, hu.solid, hu.ends, hu.proper⟩, hproblems, rfl, rfl, rfl⟩

theorem split {kind : TokenKind} {operator : Option Operator} (h : x.Before c s t)
    (hafter : Parse.afterGreater? c.token = some (kind, operator)) :
    x.Before (c.split kind operator) (s.split kind operator) (t.split kind operator) := by
  obtain ⟨read, u, problems, hu, hproblems, rfl, rfl, rfl⟩ := h
  exact ⟨read, u.split kind operator, problems, hu.split hafter, hproblems, rfl, rfl, rfl⟩

end Before

namespace Beyond

theorem views (h : x.Beyond s t) : s.view.Like t.view := by
  obtain ⟨read, u, v, hst⟩ := h
  have htoken : s.token.Twin t.token := by
    rw [hst.token, hst.tokenOther]
    exact v.twin_moved _ _
  have hrest : s.scanner.cursor.rest = t.scanner.cursor.rest := by rw [hst.cursor, hst.cursorOther]; rfl
  have hlines := hst.passed.lineIndent_parted hst.passedOther hrest hst.solid x.plain x.plainOther
  refine ⟨htoken, hst.previous, hst.functions, hst.superFound, hst.path, ?_⟩
  show s.indentedFurther = t.indentedFurther
  unfold ParserState.indentedFurther ParserState.script
  rw [hlines, hlines, htoken.firstLine, hst.previous.firstLine]

theorem alike (h : x.Beyond s t) : s.script.Alike t.script := by
  obtain ⟨read, u, v, hst⟩ := h
  exact hst.alike

theorem collect {p q : Problem} (h : x.Beyond s t) (hpq : Matches p q) :
    x.Beyond (s.collect p) (t.collect q) := by
  obtain ⟨read, u, v, hst⟩ := h
  exact ⟨read, u, v, { hst with
    passed := hst.passed.withScript rfl rfl
    passedOther := hst.passedOther.withScript rfl rfl
    alike := hst.alike.collect hpq }⟩

theorem addIncluded (h : x.Beyond s t) (child : Script) :
    x.Beyond (s.addIncluded child) (t.addIncluded child) := by
  obtain ⟨read, u, v, hst⟩ := h
  exact ⟨read, u, v, { hst with
    passed := hst.passed.withScript rfl rfl
    passedOther := hst.passedOther.withScript rfl rfl
    alike := hst.alike.addIncluded child }⟩

theorem withFunctions (h : x.Beyond s t) (functions : List FunctionUse) :
    x.Beyond { s with functions } { t with functions } := by
  obtain ⟨read, u, v, hst⟩ := h
  exact ⟨read, u, v, { hst with functions := rfl }⟩

theorem withSuperFound (h : x.Beyond s t) (superFound : Bool) :
    x.Beyond { s with superFound } { t with superFound } := by
  obtain ⟨read, u, v, hst⟩ := h
  exact ⟨read, u, v, { hst with superFound := rfl }⟩

theorem split {kind : TokenKind} {operator : Option Operator} (h : x.Beyond s t) :
    x.Beyond (s.split kind operator) (t.split kind operator) := by
  obtain ⟨read, u, v, hst⟩ := h
  have hmoved : ∀ bytes, ({ v.moved bytes with
      kind, operator, span := { (v.moved bytes).span with start := (v.moved bytes).span.start + 1 } } : Token) =
      ({ v with kind, operator, span := { v.span with start := v.span.start + 1 } } : Token).moved bytes := by
    intro bytes
    simp only [Token.moved, Span.moved, Nat.add_right_comm]
  refine ⟨read, u, { v with kind, operator, span := { v.span with start := v.span.start + 1 } },
    { hst with
      passed := hst.passed.withToken _
      passedOther := hst.passedOther.withToken _
      token := ?_
      tokenOther := ?_
      previous := ?_ }⟩
  · rw [← hmoved, ← hst.token]
    rfl
  · rw [← hmoved, ← hst.tokenOther]
    rfl
  · show (Parse.firstGreater s.token).Twin (Parse.firstGreater t.token)
    rw [hst.token, hst.tokenOther]
    have hlength : ∀ bytes, (Parse.firstGreater (v.moved bytes)).rawLength = 1 :=
      fun _ => Nat.add_sub_cancel_left _ 1
    exact ⟨rfl, rfl, rfl, (hlength _).trans (hlength _).symm⟩

end Beyond

namespace Astray

theorem short (h : x.Astray c) : ¬ x.Arrived c := fun harrived => h.2.2.2 harrived.1 harrived.2

theorem withScript (h : x.Astray c) {script : Script} (hcontent : script.content = c.script.content)
    (hlines : script.lineStarts = c.script.lineStarts) :
    x.Astray { c with scanner := { c.scanner with script } } := by
  obtain ⟨⟨read, hread⟩, hc⟩ := h
  exact ⟨⟨read, hread.withScript hcontent hlines⟩, hc⟩

theorem split {kind : TokenKind} {operator : Option Operator} (h : x.Astray c)
    (hafter : Parse.afterGreater? c.token = some (kind, operator)) : x.Astray (c.split kind operator) := by
  obtain ⟨⟨read, hread⟩, hindex, hstop, -⟩ := h
  exact ⟨⟨read, hread.withToken _⟩, hindex, hstop,
    fun hkind => absurd hkind (Parse.kind_of_afterGreater? hafter)⟩

end Astray

end Respacing

end ActionSyntax
