import ActionSyntax.Proofs.Reach

/-!
The problems of a script. They are only added to, and they decide whether the script is valid.
-/

namespace ActionSyntax

set_option autoImplicit false

namespace Script

/-- The script is valid as long as none of its problems is more than a warning. -/
def Honest (s : Script) : Prop := s.isValid = false ↔ ∃ p ∈ s.problems, p.isWarning = false

/-- The second script is the first one later on. -/
structure Grows (s t : Script) : Prop where
  path : t.path = s.path
  content : t.content = s.content
  problems : s.problems.toList <+: t.problems.toList
  valid : t.isValid = true → s.isValid = true
  honest : s.Honest → t.Honest

theorem ofSource_honest (path source : String) : (ofSource path source).Honest := by
  simp [Honest, ofSource, isValid]

theorem collect_invalid (s : Script) {p : Problem} (h : p.isWarning = false) :
    (s.collect p).isValid = false := by
  simp [collect, isValid, h]

namespace Grows

variable {s t u : Script}

theorem refl (s : Script) : s.Grows s := ⟨rfl, rfl, List.prefix_rfl, id, id⟩

theorem trans (hst : s.Grows t) (htu : t.Grows u) : s.Grows u where
  path := htu.path.trans hst.path
  content := htu.content.trans hst.content
  problems := hst.problems.trans htu.problems
  valid := hst.valid ∘ htu.valid
  honest := htu.honest ∘ hst.honest

/-- What is noted in a script besides its problems does not matter. -/
theorem of_problems_eq (hpath : t.path = s.path) (hcontent : t.content = s.content)
    (hproblems : t.problems = s.problems) (hvalid : t.valid = s.valid) : s.Grows t where
  path := hpath
  content := hcontent
  problems := hproblems ▸ List.prefix_rfl
  valid h := hvalid.symm.trans h
  honest h := by
    unfold Honest isValid
    rw [hproblems, hvalid]
    exact h

theorem collect (s : Script) (p : Problem) : s.Grows (s.collect p) where
  path := rfl
  content := rfl
  problems := by simp [Script.collect]
  valid h := by
    simp only [Script.collect, isValid, Bool.and_eq_true] at h
    exact h.1
  honest h := by
    simp only [Honest, isValid, Script.collect, Bool.and_eq_false_iff, Array.mem_push] at h ⊢
    rw [h]
    constructor
    · rintro (⟨q, hq, hw⟩ | hw)
      · exact ⟨q, Or.inl hq, hw⟩
      · exact ⟨p, Or.inr rfl, hw⟩
    · rintro ⟨q, hq | rfl, hw⟩
      · exact Or.inl ⟨q, hq, hw⟩
      · exact Or.inr hw

theorem mem (h : s.Grows t) {p : Problem} (hp : p ∈ s.problems) : p ∈ t.problems :=
  Array.mem_toList_iff.mp (h.problems.subset (Array.mem_toList_iff.mpr hp))

end Grows

end Script

namespace Scanner

variable (s : Scanner)

theorem stopAt_grows (failure : Scan.Failure) : s.script.Grows (s.stopAt failure).script := by
  have hmoved : s.script.Grows (s.moveTo failure.cursor).script := .of_problems_eq rfl rfl rfl rfl
  exact hmoved.trans (.collect _ failure.problem)

theorem next_grows : s.script.Grows s.next.2.script := by
  obtain ⟨_, _, _, _, _, he⟩ | ⟨failure, token, _, he⟩ := s.next_cases
  · rw [he]
    exact .of_problems_eq rfl rfl rfl rfl
  · rw [he]
    exact stopAt_grows { s with token } failure

theorem readRegularExpression_grows : s.script.Grows s.readRegularExpression.2.script := by
  obtain ⟨_, _, _, _, _, he⟩ | ⟨failure, he⟩ := s.readRegularExpression_cases
  · rw [he]
    exact .of_problems_eq rfl rfl rfl rfl
  · rw [he]
    exact s.stopAt_grows failure

end Scanner

theorem Step.grows {s t : ParserState} (h : Step s t) : s.script.Grows t.script := by
  cases h with
  | advance => exact s.scanner.next_grows
  | advanceRegular => exact s.scanner.readRegularExpression_grows
  | split h => exact .refl _
  | collect p => exact .collect s.script p
  | use h hle => exact .refl _
  | superFound found => exact .refl _
  | addIncluded child => exact .of_problems_eq rfl rfl rfl rfl

/-- Whatever is read, the script only grows. An included script has its own problems. -/
theorem Reach.grows {stop : Option Stop} {k : Nat} {s t : ParserState} (h : Reach stop k s t) :
    s.script.Grows t.script := by
  induction h with
  | refl => exact .refl _
  | step h => exact h.grows
  | trans _ _ ihst ihtu => exact ihst.trans ihtu
  | problem => exact .refl _
  | exhausted => exact .refl _
  | function _ ih => exact ih
  | abandoned _ ih => exact ih
  | superRestored _ _ ih => exact ih
  | included => exact .of_problems_eq rfl rfl rfl rfl
  | includedExhausted => exact .refl _

theorem Reaches.grows {stop : Option Stop} {s t : ParserState} (h : Reaches stop s t) :
    s.script.Grows t.script := by
  obtain ⟨k, hk⟩ := h
  exact hk.grows

end ActionSyntax
