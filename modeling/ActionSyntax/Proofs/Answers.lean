import ActionSyntax.Parser
import ActionSyntax.Proofs.Building.Elementary

/-!
When parsers answer: a construct has to be read to the end of the text, and the script has to be
valid before and behind it.
-/

namespace ActionSyntax

set_option autoImplicit false

open Parse

variable {α : Type} {a : α} {s t : ParserState}

namespace Parser

theorem toEnd_ok_iff {construct : Parse α} :
    toEnd construct s = .ok a t ↔ construct s = .ok a t ∧ t.token.kind = .endOfProgram := by
  unfold toEnd
  constructor
  · intro h
    obtain ⟨b, u, hu, h⟩ := bind_ok h
    obtain ⟨_, v, hv, hdone⟩ := bind_ok h
    obtain ⟨rfl, hend⟩ := expectEnd_ok hv
    cases hdone
    exact ⟨hu, hend⟩
  · rintro ⟨hread, hend⟩
    show EStateM.bind construct _ s = _
    unfold EStateM.bind
    rw [hread]
    show (expectEnd >>= fun _ => pure a) t = _
    unfold expectEnd
    rw [bind_assoc, at?_bind, hend]
    rfl

variable {p : Parser} {construct : Rules → Parse α}

/-- The answer of a parser is what the rules for its script read up to the end. -/
theorem run_eq_some_iff :
    (p.run construct).1 = some a ↔ ∃ t, p.script.isValid = true ∧
      construct (Rules.ofHost p.host p.script) p.state = .ok a t ∧
      t.token.kind = .endOfProgram ∧ t.script.isValid = true := by
  unfold run
  cases hvalid : p.script.isValid with
  | false => simp
  | true =>
    cases hread : toEnd (construct (Rules.ofHost p.host p.script)) p.state with
    | ok b u =>
      obtain ⟨hb, hend⟩ := toEnd_ok_iff.mp hread
      simp only [Bool.not_true, Bool.false_eq_true, if_false, hb, EStateM.Result.ok.injEq, true_and]
      constructor
      · intro hanswer
        split at hanswer
        · rename_i huvalid
          cases hanswer
          exact ⟨u, ⟨rfl, rfl⟩, hend, huvalid⟩
        · cases hanswer
      · rintro ⟨t, ⟨rfl, rfl⟩, -, huvalid⟩
        exact if_pos huvalid
    | error stop u =>
      have hnot : ∀ t, ¬ (construct (Rules.ofHost p.host p.script) p.state = .ok a t ∧
          t.token.kind = .endOfProgram) := fun t ht => by
        have := toEnd_ok_iff.mpr ht
        rw [hread] at this
        cases this
      simp only [Bool.not_true, Bool.false_eq_true, if_false, reduceCtorEq, false_iff, not_exists]
      rintro t ⟨-, ht, hend, -⟩
      exact hnot t ⟨ht, hend⟩

end Parser

end ActionSyntax
