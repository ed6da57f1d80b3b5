import ActionSyntax.Proofs.Problems
import ActionSyntax.Proofs.Reads.Levels

/-!
The entry points of a parser. A call reads from its entry point on to the end of the text; it answers
with a tree just when it leaves a valid script, unless it uses up the depth of inclusions, and then it
does not answer.
-/

namespace ActionSyntax

set_option autoImplicit false

open Parse Rules

/-- What an entry point answers with. -/
inductive Tree where
  | program (program : Program)
  | statement (statement : Statement)
  | expression (expression : Expr)
  | type (type : TypeExpr)

/-- The entry points of a parser. -/
inductive Entry where
  | program
  | statement
  | expression (allowIn : Bool) (level : Precedence)
  | type

namespace Parser

def call (p : Parser) : Entry → Option Tree × Parser
  | .program => p.parseProgram.map (Option.map .program) id
  | .statement => p.parseStatement.map (Option.map .statement) id
  | .expression allowIn level => (p.parseExpressionWith allowIn level).map (Option.map .expression) id
  | .type => p.parseType.map (Option.map .type) id

end Parser

namespace Setting

theorem toEnd_reads {S : Setting} {n : Nat} {α : Type} {construct : Parse α}
    (h : S.Reads n never construct) : S.Reads n never (Parser.toEnd construct) :=
  .seq h fun _ => .seq expectEnd_reads fun _ => .pure _

end Setting

namespace Entry

/-- What is read from an entry point on. -/
def construct : Entry → Rules → Parse Tree
  | .program, r => .program <$> r.program
  | .statement, r => .statement <$> do
    let (found, _) ← r.statementRule {}
    return found
  | .expression allowIn level, r => .expression <$> r.exprRule { allowIn, level }
  | .type, r => .type <$> r.typeExprRule

/-- What is read from an entry point on, and the end of the text behind it. -/
def read (entry : Entry) (r : Rules) : Parse Tree := Parser.toEnd (entry.construct r)

theorem read_reads {S : Setting} {n : Nat} {r : Rules} (h : S.Sound n r) (entry : Entry) :
    S.Reads n never (entry.read r) := by
  refine Setting.toEnd_reads ?_
  cases entry with
  | program => exact h.program_reads.map fun _ => id
  | statement =>
    refine Setting.Reads.map (α := Statement) (c := never) ?_ fun _ => id
    exact .seq ((h.statementRule_reads _).mono (Nat.le_succ _)) fun _ => .pure _
  | expression allowIn level =>
    exact ((h.exprRule_reads _).mono (Nat.le_succ _)).never_of.map fun _ => id
  | type => exact (h.typeExprRule_reads.mono (Nat.le_succ _)).never_of.map fun _ => id

end Entry

section Left

variable {s t : ParserState}

/-- A scanner that stops leaves an invalid script. -/
theorem ParserState.invalid_stopAt {sc : Scanner} {failure : Scan.Failure}
    (h : t.scanner = sc.stopAt failure) : t.script.isValid = false := by
  unfold script
  rw [h]
  exact Script.collect_invalid _ rfl

/-- As long as the script is valid, no token comes back. -/
theorem Step.left_le (h : Step s t) (hvalid : t.script.isValid = true) : t.left ≤ s.left := by
  cases h with
  | advance =>
    rcases hnext : s.scanner.next.1 with problem | ⟨⟩
    · obtain ⟨_, _, _, he⟩ := s.advance_stops hnext
      rw [ParserState.invalid_stopAt he] at hvalid
      cases hvalid
    · exact Nat.le_of_add_right_le (s.advance_left hnext)
  | advanceRegular =>
    rcases hread : s.scanner.readRegularExpression.1 with problem | ⟨⟩
    · obtain ⟨_, _, _, he⟩ := s.advanceRegular_stops hread
      rw [ParserState.invalid_stopAt he] at hvalid
      cases hvalid
    · exact s.advanceRegular_left hread
  | split hafter =>
    have hweight := Setting.afterGreater?_weight hafter
    exact Nat.add_le_add_left (Nat.le_of_add_right_le hweight) _
  | collect | use | superFound | addIncluded => exact Nat.le_refl _

theorem Reach.left_le {stop : Option Stop} {k : Nat} (h : Reach stop k s t)
    (hvalid : t.script.isValid = true) : t.left ≤ s.left := by
  induction h with
  | refl | problem | exhausted | included | includedExhausted => exact Nat.le_refl _
  | step h => exact h.left_le hvalid
  | trans hst htu ihst ihtu => exact Nat.le_trans (ihtu hvalid) (ihst (htu.grows.valid hvalid))
  | function _ ih | abandoned _ ih | superRestored _ _ ih => exact ih hvalid

end Left

namespace Parser

variable {p : Parser} {entry : Entry} {α β : Type}

theorem toEnd_map (f : α → β) (x : Parse α) : toEnd (f <$> x) = f <$> toEnd x := by
  simp only [toEnd, map_eq_pure_bind, bind_assoc, pure_bind]

theorem run_map (f : α → β) (construct : Rules → Parse α) :
    p.run (fun r => f <$> construct r) = (p.run construct).map (Option.map f) id := by
  unfold run
  split
  · rfl
  have hmap : (f <$> toEnd (construct (ofHost p.host p.script))) p.state =
      EStateM.map f (toEnd (construct (ofHost p.host p.script))) p.state := rfl
  rw [toEnd_map, hmap]
  unfold EStateM.map
  cases toEnd (construct (ofHost p.host p.script)) p.state with
  | ok value s => cases hvalid : s.script.isValid <;> simp [hvalid]
  | error stop s => rfl

/-- A call reads from its entry point on, unless the script is done for. -/
theorem call_eq (entry : Entry) : p.call entry =
    if p.script.isValid then
      match entry.read (ofHost p.host p.script) p.state with
      | .ok tree s => (if s.script.isValid then some tree else none, { p with state := s })
      | .error _ s => (none, { p with state := s })
    else (none, p) := by
  have hrun : p.call entry = p.run entry.construct := by
    cases entry with
    | program => exact (run_map Tree.program _).symm
    | statement =>
      exact (run_map Tree.statement fun r => do
        let (found, _) ← r.statementRule {}
        return found).symm
    | expression allowIn level =>
      exact (run_map Tree.expression fun r => r.exprRule { allowIn, level }).symm
    | type => exact (run_map Tree.type _).symm
  rw [hrun]
  unfold run Entry.read
  cases p.script.isValid with
  | false => rfl
  | true => cases Parser.toEnd (entry.construct (ofHost p.host p.script)) p.state <;> rfl

/-- Where two hosts have the text read in the same way, calls answer the same. -/
theorem call_congr {host host' : Host} {s : ParserState} {entry : Entry}
    (h : entry.read (ofHost host s.script) s = entry.read (ofHost host' s.script) s) :
    (Parser.mk host s).call entry =
      (((Parser.mk host' s).call entry).1, ⟨host, ((Parser.mk host' s).call entry).2.state⟩) := by
  have shape : ∀ host : Host, (Parser.mk host s).call entry =
      if s.script.isValid then
        match entry.read (ofHost host s.script) s with
        | .ok tree t => (if t.script.isValid then some tree else none, ⟨host, t⟩)
        | .error _ t => (none, ⟨host, t⟩)
      else (none, ⟨host, s⟩) := fun host => call_eq entry
  rw [shape host, shape host', h]
  cases s.script.isValid with
  | false => rfl
  | true => cases entry.read (ofHost host' s.script) s <;> rfl

theorem ofScript_state (host : Host) (script : Script) :
    (ofScript host script).state = (ParserState.ofScript script).scanned := by
  unfold ofScript
  rw [Parse.scan_apply]
  cases (ParserState.ofScript script).scanner.next.1 <;> rfl

/-- Whatever is read, the last state comes out of the first one, and a problem that stops is recorded. -/
theorem read_ends (p : Parser) (entry : Entry) : (Setting.lenient p.host.readFile).Ends never p.state
    (entry.read (ofHost p.host p.script) p.state) :=
  entry.read_reads (Setting.lenient_sound p.host.readFile p.host.includeDepth _) p.state (Or.inl trivial)

/-- A call leads from the state of the parser to another one, whatever it answers. -/
theorem call_reaches (p : Parser) (entry : Entry) :
    ∃ stop, Reaches stop p.state (p.call entry).2.state := by
  have hends := p.read_ends entry
  rw [call_eq]
  split
  · cases hread : entry.read (ofHost p.host p.script) p.state with
    | ok tree t =>
      rw [hread] at hends
      exact ⟨none, hends.reaches⟩
    | error stop t =>
      rw [hread] at hends
      exact ⟨some stop, hends.1⟩
  · exact ⟨none, .refl _⟩

theorem call_grows (p : Parser) (entry : Entry) : p.script.Grows (p.call entry).2.script := by
  obtain ⟨_, hreaches⟩ := p.call_reaches entry
  exact hreaches.grows

/-- Making a parser reads the first token. -/
theorem ofScript_reaches (host : Host) (script : Script) :
    Reaches none (ParserState.ofScript script) (ofScript host script).state := by
  rw [ofScript_state]
  exact .step (.advance (ParserState.ofScript script))

/-- The call does not use up the depth of inclusions. -/
def Finishes (p : Parser) (entry : Entry) : Prop :=
  p.script.isValid = true → ∀ t, entry.read (ofHost p.host p.script) p.state ≠ .error .exhausted t

/-- A call that finishes answers just when it leaves a valid script. -/
theorem Finishes.answers (h : p.Finishes entry) (hhonest : p.script.Honest) :
    (p.call entry).1.isSome ↔ (p.call entry).2.script.isValid = true := by
  have hends := p.read_ends entry
  rw [call_eq]
  by_cases hvalid : p.script.isValid = true
  · rw [if_pos hvalid]
    cases hread : entry.read (ofHost p.host p.script) p.state with
    | ok tree t => cases ht : t.script.isValid <;> simp [Parser.script, ht]
    | error stop t =>
      rw [hread] at hends
      obtain ⟨hreaches, hrecorded⟩ := hends
      cases stop with
      | exhausted => exact (h hvalid t hread).elim
      | problem q =>
        have hinvalid : t.script.isValid = false := (hreaches.grows.honest hhonest).mpr ⟨q, hrecorded⟩
        simp [Parser.script, hinvalid]
  · rw [if_neg hvalid]
    simpa using hvalid

/-- A call that uses up the depth of inclusions does not answer. -/
theorem call_unfinished (h : ¬ p.Finishes entry) : (p.call entry).1.isSome = false := by
  obtain ⟨hvalid, hread⟩ := Classical.not_imp.mp h
  obtain ⟨t, hread⟩ := Classical.not_forall.mp hread
  rw [call_eq, if_pos hvalid, Classical.not_not.mp hread]
  rfl

end Parser

end ActionSyntax
