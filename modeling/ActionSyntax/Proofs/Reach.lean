import ActionSyntax.Grammar.Levels
import ActionSyntax.Proofs.ScanSuffix

/-!
What a parser can do to its state. Every reading is made of a few elementary steps, of functions that
are entered and left, and of scripts that are read in place of an inclusion. What all of these keep
is kept by every rule of the grammar.
-/

namespace ActionSyntax

set_option autoImplicit false

/-- A later view of the same function has seen at least as much. -/
instance : LE FunctionUse :=
  ⟨fun a b => (a.usesAwait = true → b.usesAwait = true) ∧ (a.usesYield = true → b.usesYield = true)⟩

theorem FunctionUse.le_refl (a : FunctionUse) : a ≤ a := ⟨id, id⟩

theorem FunctionUse.le_trans {a b c : FunctionUse} (hab : a ≤ b) (hbc : b ≤ c) : a ≤ c :=
  ⟨hbc.1 ∘ hab.1, hbc.2 ∘ hab.2⟩

namespace Scanner

variable (s : Scanner)

@[simp] theorem moveTo_path (c : Cursor) : (s.moveTo c).script.path = s.script.path := rfl

@[simp] theorem moveTo_content (c : Cursor) : (s.moveTo c).script.content = s.script.content := rfl

@[simp] theorem moveTo_included (c : Cursor) :
    (s.moveTo c).script.included = s.script.included := rfl

theorem next_cases :
    (∃ start l stop, Scan.trivia s.cursor = .ok start ∧ Scan.lexeme start = .ok (l, stop) ∧
      s.next = (.ok (), { s.moveTo stop with token := { l with span := start.spanTo stop } })) ∨
    ∃ failure token, (token = s.blankToken ∨ ∃ start, token = s.startedToken start) ∧
      s.next = (.error failure.problem, { s with token }.stopAt failure) := by
  unfold next
  cases ht : Scan.trivia s.cursor with
  | error failure => exact Or.inr ⟨failure, _, Or.inl rfl, rfl⟩
  | ok start =>
    dsimp only
    cases hl : Scan.lexeme start with
    | error failure => exact Or.inr ⟨failure, _, Or.inr ⟨start, rfl⟩, rfl⟩
    | ok reading => exact Or.inl ⟨start, reading.1, reading.2, rfl, hl, rfl⟩

theorem readRegularExpression_cases :
    (∃ body flags stop, Scan.regularBody (s.cursor.rest.length + 1) s.cursor = .ok body ∧
      Scan.regularFlags body = .ok (flags, stop) ∧
      s.readRegularExpression = (.ok (), { s.moveTo stop with
        token := { s.token with
          kind := .regularExpression
          text := s.regularBodyText body
          flags := String.ofList flags
          operator := none
          span := { s.token.span with lastLine := stop.line, stop := stop.index } } })) ∨
    ∃ failure, s.readRegularExpression = (.error failure.problem, s.stopAt failure) := by
  unfold readRegularExpression
  cases hb : Scan.regularBody (s.cursor.rest.length + 1) s.cursor with
  | error failure => exact Or.inr ⟨failure, rfl⟩
  | ok body =>
    dsimp only
    cases hf : Scan.regularFlags body with
    | error failure => exact Or.inr ⟨failure, rfl⟩
    | ok reading => exact Or.inl ⟨body, reading.1, reading.2, rfl, hf, rfl⟩

@[simp] theorem stopAt_included (failure : Scan.Failure) :
    (s.stopAt failure).script.included = s.script.included := rfl

theorem next_included : s.next.2.script.included = s.script.included := by
  obtain ⟨_, _, _, _, _, he⟩ | ⟨_, _, _, he⟩ := s.next_cases <;> rw [he] <;> rfl

theorem readRegularExpression_included :
    s.readRegularExpression.2.script.included = s.script.included := by
  obtain ⟨_, _, _, _, _, he⟩ | ⟨_, he⟩ := s.readRegularExpression_cases <;> rw [he] <;> rfl

end Scanner

namespace ParserState

/-- The current token becomes the previous one and another is read, which may fail. -/
def advance (s : ParserState) : ParserState :=
  { s with previous := s.token, scanner := s.scanner.next.2 }

/-- The next token is read into its place. -/
def scanned (s : ParserState) : ParserState := { s with scanner := s.scanner.next.2 }

/-- The current token is read on as a regular expression, which may fail. -/
def advanceRegular (s : ParserState) : ParserState :=
  { s with scanner := s.scanner.readRegularExpression.2 }

/-- The first `>` of the current token becomes the previous token, the rest stays. -/
def split (s : ParserState) (kind : TokenKind) (operator : Option Operator) : ParserState :=
  { s with
    previous := Parse.firstGreater s.token
    scanner := { s.scanner with
      token := { s.token with
        kind, operator, span := { s.token.span with start := s.token.span.start + 1 } } } }

def enter (s : ParserState) : ParserState := { s with functions := {} :: s.functions }

def leave (s : ParserState) : ParserState := { s with functions := s.functions.tail }

def addIncluded (s : ParserState) (child : Script) : ParserState :=
  { s with scanner := { s.scanner with script := s.scanner.script.addIncluded child } }

/-- Where the reading of an included script begins. -/
def inside (s : ParserState) (script : Script) : ParserState :=
  { ofScript script with functions := s.functions, superFound := s.superFound }

/-- What is left of the including script's state when the included one has been read. -/
def outside (s t : ParserState) : ParserState :=
  { s with functions := t.functions, superFound := t.superFound }

/-- How many tokens may still come: one for each character and each piece of the current token. -/
def left (s : ParserState) : Nat := s.scanner.cursor.rest.length + s.token.toLexeme.weight

end ParserState

/-- One elementary step. -/
inductive Step : ParserState → ParserState → Prop where
  | advance (s : ParserState) : Step s s.advance
  | advanceRegular (s : ParserState) : Step s s.advanceRegular
  | split {s : ParserState} {kind : TokenKind} {operator : Option Operator}
      (h : Parse.afterGreater? s.token = some (kind, operator)) : Step s (s.split kind operator)
  | collect (s : ParserState) (p : Problem) : Step s (s.collect p)
  | use {s : ParserState} {old new : FunctionUse} {outer : List FunctionUse}
      (h : s.functions = old :: outer) (hle : old ≤ new) :
      Step s { s with functions := new :: outer }
  | superFound (s : ParserState) (found : Bool) : Step s { s with superFound := found }
  | addIncluded (s : ParserState) (child : Script) : Step s (s.addIncluded child)

/-- The problem has been recorded, and it is more than a warning. -/
def ParserState.Has (s : ParserState) (p : Problem) : Prop :=
  p ∈ s.script.problems ∧ p.isWarning = false

/-- A reading leads from the first state to the second. It may have been stopped there, and on the
way `k` functions have been entered and given up, because their bodies were stopped. -/
inductive Reach : Option Stop → Nat → ParserState → ParserState → Prop where
  | refl (s : ParserState) : Reach none 0 s s
  | step {s t : ParserState} (h : Step s t) : Reach none 0 s t
  | trans {stop : Option Stop} {j k : Nat} {s t u : ParserState} (hst : Reach none j s t)
      (htu : Reach stop k t u) : Reach stop (j + k) s u
  | problem {s : ParserState} {p : Problem} (hp : s.Has p) : Reach (some (.problem p)) 0 s s
  | exhausted (s : ParserState) : Reach (some .exhausted) 0 s s
  | function {k : Nat} {s t : ParserState} (h : Reach none k s.enter t) : Reach none k s t.leave
  | abandoned {stop : Stop} {k : Nat} {s t : ParserState} (h : Reach (some stop) k s.enter t) :
      Reach (some stop) (k + 1) s t
  | superRestored {stop : Stop} {k : Nat} {s t : ParserState} (found : Bool)
      (h : Reach (some stop) k s t) : Reach (some stop) k s { t with superFound := found }
  | included {stop : Option Stop} {k : Nat} {s t : ParserState} {path source : String}
      (h : Reach stop k (s.inside (Script.ofSource path source)) t)
      (hstop : stop ≠ some .exhausted) : Reach none k s ((s.outside t).addIncluded t.script)
  | includedExhausted {k : Nat} {s t : ParserState} {path source : String}
      (h : Reach (some .exhausted) k (s.inside (Script.ofSource path source)) t) :
      Reach (some .exhausted) k s (s.outside t)

/-- Some reading leads from the first state to the second, and may have been stopped there. -/
def Reaches (stop : Option Stop) (s t : ParserState) : Prop := ∃ k, Reach stop k s t

namespace Reaches

variable {stop : Option Stop} {s t u : ParserState}

theorem refl (s : ParserState) : Reaches none s s := ⟨0, .refl s⟩

theorem step (h : Step s t) : Reaches none s t := ⟨0, .step h⟩

theorem trans (hst : Reaches none s t) (htu : Reaches stop t u) : Reaches stop s u := by
  obtain ⟨j, hj⟩ := hst
  obtain ⟨k, hk⟩ := htu
  exact ⟨j + k, hj.trans hk⟩

/-- A step that records a problem and stops at it. -/
theorem problem {p : Problem} (h : Step s t) (hp : t.Has p) : Reaches (some (.problem p)) s t :=
  (step h).trans ⟨0, .problem hp⟩

theorem exhausted (s : ParserState) : Reaches (some .exhausted) s s := ⟨0, .exhausted s⟩

theorem function (h : Reaches none s.enter t) : Reaches none s t.leave := h.imp fun _ => .function

theorem abandoned {stop : Stop} (h : Reaches (some stop) s.enter t) : Reaches (some stop) s t := by
  obtain ⟨k, hk⟩ := h
  exact ⟨k + 1, .abandoned hk⟩

theorem superRestored {stop : Stop} (found : Bool) (h : Reaches (some stop) s t) :
    Reaches (some stop) s { t with superFound := found } := h.imp fun _ => .superRestored found

theorem included {path source : String}
    (h : Reaches stop (s.inside (Script.ofSource path source)) t) (hstop : stop ≠ some .exhausted) :
    Reaches none s ((s.outside t).addIncluded t.script) := h.imp fun _ hk => .included hk hstop

theorem includedExhausted {path source : String}
    (h : Reaches (some .exhausted) (s.inside (Script.ofSource path source)) t) :
    Reaches (some .exhausted) s (s.outside t) := h.imp fun _ => .includedExhausted

end Reaches

end ActionSyntax
