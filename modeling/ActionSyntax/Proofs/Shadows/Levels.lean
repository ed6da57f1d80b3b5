import ActionSyntax.Proofs.Follows.Levels
import ActionSyntax.Proofs.Reads.Levels
import ActionSyntax.Proofs.Shadows.Statements

/-!
The rules of one level read in the shadow of those of any level above. Types do so in every pairing,
statements and expressions where lines are laid out alike.
-/

namespace ActionSyntax

set_option autoImplicit false

open Parse Rules

variable {P : Pairing} {tier : Tier} {readFile : String → Option String} {r r' : Rules}

/-- A script that is read in place is read in the same way everywhere. -/
theorem includeScript_shadows (hl : P.layered) (r : Rules) (context : Context) (script : Script) :
    Shadows P tier Eq (r.includeScript context script) (r.includeScript context script) where
  goes {s t} hst := by
    have hsees := P.sees hst
    unfold includeScript
    rw [← hsees.functions hl, ← hsees.superFound hl]
    generalize includedOutcome r context _ = outcome
    dsimp only
    split
    · exact .stopped
    · exact .ok rfl (P.note hst _ _)
  stays {s a t} hs h := by
    unfold includeScript at h
    dsimp only at h
    split at h
    · cases h
    · cases h
      exact hs.note _ _

theorem includeAt_shadows (hl : P.layered) (depth : Nat) (context : Context) (script : Script) :
    Shadows P tier Eq (includeAt readFile depth context script)
      (includeAt readFile depth context script) := by
  cases depth with
  | zero => exact exhausted_shadows
  | succ depth => exact includeScript_shadows hl _ context script

section Levels

variable (readFile) (depth : Nat)

theorem level_lenient (n : Nat) :
    (Setting.lenient (level readFile (includeAt readFile depth) n).readFile).Sound
      (level readFile (includeAt readFile depth) n).depth
      (level readFile (includeAt readFile depth) n) := by
  rw [level_readFile, level_depth]
  exact Setting.lenient_sound readFile depth n

theorem level_typesShadow : ∀ {n n' : Nat}, n ≤ n' →
    TypesShadow P (level readFile (includeAt readFile depth) n)
      (level readFile (includeAt readFile depth) n')
  | 0, _, _ => {
      depth := Nat.zero_le _
      sound := level_lenient readFile depth 0
      typeExpr := fun _ => exhausted_shadows }
  | n + 1, _ + 1, hle => {
      depth := hle
      sound := level_lenient readFile depth (n + 1)
      typeExpr := fun _ =>
        (level_typesShadow (Nat.le_of_succ_le_succ hle)).typeExprRule_shadows }

theorem level_shadow (hl : P.layered) : ∀ {n n' : Nat}, n ≤ n' →
    RulesShadow P (level readFile (includeAt readFile depth) n)
      (level readFile (includeAt readFile depth) n')
  | 0, n', hle => {
      level_typesShadow readFile depth hle with
      layered := hl
      readFile := (level_readFile 0).trans (level_readFile n').symm
      optExpr := fun _ _ _ => exhausted_shadows
      optPrimary := fun _ _ _ => exhausted_shadows
      node := fun _ => exhausted_shadows
      block := fun _ _ => exhausted_shadows
      statement := fun _ => exhausted_shadows
      included := fun context script => by
        rw [level_included, level_included]
        exact includeAt_shadows hl depth context script }
  | n + 1, n' + 1, hle =>
    have h := level_shadow hl (Nat.le_of_succ_le_succ hle)
    { level_typesShadow readFile depth hle with
      layered := hl
      readFile := h.readFile
      optExpr := fun _ _ hlevel => h.optExprRule_shadows hlevel
      optPrimary := fun _ => h.optPrimaryRule_shadows
      node := fun _ => h.nodeRule_shadows false
      block := h.blockRule_shadows
      statement := h.statementRule_shadows
      included := h.included }

end Levels

end ActionSyntax
