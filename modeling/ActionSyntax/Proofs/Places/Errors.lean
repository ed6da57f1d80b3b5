import ActionSyntax.Proofs.Places.Walk

/-!
What a parser reports on its way. Nothing of it is a mere warning, and so it is with the scripts that
are read in place of an inclusion.
-/

namespace ActionSyntax

set_option autoImplicit false

namespace Script

/-- No problem of the script, or of anything it includes, is a mere warning. -/
def OnlyErrors (s : Script) : Prop := ∀ d ∈ s.withIncluded, ∀ p ∈ d.problems, p.isWarning = false

theorem onlyErrors_iff (s : Script) : s.OnlyErrors ↔
    (∀ p ∈ s.problems, p.isWarning = false) ∧ ∀ child ∈ s.included, child.OnlyErrors := by
  have hincluded : s.withIncluded = s :: withIncludedOfAll s.included := by
    cases s
    rfl
  unfold OnlyErrors
  rw [hincluded]
  simp only [List.forall_mem_cons, mem_withIncludedOfAll]
  exact and_congr_right fun _ =>
    ⟨fun h c hc d hd => h d ⟨c, hc, hd⟩, fun h d ⟨c, hc, hd⟩ => h c hc d hd⟩

namespace OnlyErrors

variable {s t : Script}

theorem ofSource (path source : String) : (ofSource path source).OnlyErrors :=
  (onlyErrors_iff _).mpr ⟨by simp [Script.ofSource], nofun⟩

/-- Nothing but problems and included scripts counts. -/
theorem congr (h : s.OnlyErrors) (hproblems : t.problems = s.problems)
    (hincluded : t.included = s.included) : t.OnlyErrors := by
  rw [onlyErrors_iff] at h ⊢
  rwa [hproblems, hincluded]

theorem collect (h : s.OnlyErrors) {p : Problem} (hp : p.isWarning = false) :
    (s.collect p).OnlyErrors := by
  obtain ⟨hproblems, hincluded⟩ := (onlyErrors_iff s).mp h
  refine (onlyErrors_iff _).mpr ⟨fun q hq => ?_, hincluded⟩
  rcases Array.mem_push.mp hq with hq | rfl
  · exact hproblems q hq
  · exact hp

theorem addIncluded (h : s.OnlyErrors) {child : Script} (hchild : child.OnlyErrors) :
    (s.addIncluded child).OnlyErrors := by
  obtain ⟨hproblems, hincluded⟩ := (onlyErrors_iff s).mp h
  refine (onlyErrors_iff _).mpr ⟨hproblems, fun c hc => ?_⟩
  rcases List.mem_append.mp hc with hc | hc
  · exact hincluded c hc
  · rwa [List.mem_singleton.mp hc]

end OnlyErrors

end Script

namespace Scanner

variable {s : Scanner}

theorem stopAt_onlyErrors (h : s.script.OnlyErrors) (failure : Scan.Failure) :
    (s.stopAt failure).script.OnlyErrors := by
  have hmoved : (s.moveTo failure.cursor).script.OnlyErrors := h.congr rfl rfl
  exact hmoved.collect rfl

theorem next_onlyErrors (h : s.script.OnlyErrors) : s.next.2.script.OnlyErrors := by
  obtain ⟨_, _, _, _, _, he⟩ | ⟨failure, token, _, he⟩ := s.next_cases
  · rw [he]
    exact h.congr rfl rfl
  · rw [he]
    exact stopAt_onlyErrors (s := { s with token }) h failure

theorem readRegularExpression_onlyErrors (h : s.script.OnlyErrors) :
    s.readRegularExpression.2.script.OnlyErrors := by
  obtain ⟨_, _, _, _, _, he⟩ | ⟨failure, he⟩ := s.readRegularExpression_cases
  · rw [he]
    exact h.congr rfl rfl
  · rw [he]
    exact stopAt_onlyErrors h failure

end Scanner

/-- A walk on which nothing but errors is reported. -/
structure Strides (s t : ParserState) : Prop where
  walk : Walk s t
  errors : s.script.OnlyErrors → t.script.OnlyErrors

namespace Strides

variable {s t u : ParserState}

theorem refl (s : ParserState) : Strides s s := ⟨.refl s, id⟩

theorem trans (hst : Strides s t) (htu : Strides t u) : Strides s u :=
  ⟨hst.walk.trans htu.walk, htu.errors ∘ hst.errors⟩

theorem scan (h : Strides s t) : Strides s t.scanned :=
  ⟨h.walk.scan, fun hs => Scanner.next_onlyErrors (h.errors hs)⟩

theorem keep (h : Strides s t) : Strides s { t with previous := t.token } := ⟨h.walk.keep, h.errors⟩

theorem regular (h : Strides s t) (slash : Rules.beginsRegularExpression t.token = true) :
    Strides s t.advanceRegular :=
  ⟨h.walk.regular slash, fun hs => Scanner.readRegularExpression_onlyErrors (h.errors hs)⟩

theorem split (h : Strides s t) {kind : TokenKind} {operator : Option Operator}
    (greater : Parse.afterGreater? t.token = some (kind, operator)) :
    Strides s (t.split kind operator) := ⟨h.walk.split greater, h.errors⟩

theorem collect (h : Strides s t) {p : Problem} (range : t.Ranges p.span)
    (error : p.isWarning = false) : Strides s (t.collect p) :=
  ⟨h.walk.collect range, fun hs => (h.errors hs).collect error⟩

theorem note (h : Strides s t) (functions : List FunctionUse) (superFound : Bool) :
    Strides s { t with functions, superFound } := ⟨h.walk.note functions superFound, h.errors⟩

theorem splice (h : Strides s t) {path source : String}
    (child : Strides (ParserState.ofScript (Script.ofSource path source)) u) :
    Strides s (t.addIncluded u.script) :=
  ⟨h.walk.splice child.walk, fun hs =>
    (h.errors hs).addIncluded (child.errors (.ofSource path source))⟩

end Strides

end ActionSyntax
