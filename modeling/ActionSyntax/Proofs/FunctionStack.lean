import ActionSyntax.Parser
import ActionSyntax.Proofs.Problems
import ActionSyntax.Proofs.Reads.Levels

/-!
The functions around the current place. An inclusion leaves them as they were, except for functions
that were entered in included scripts and given up because their bodies were stopped.
-/

namespace ActionSyntax

set_option autoImplicit false

/-- The functions around a place, and the same functions later on. Only the innermost may have been
seen to use more. -/
inductive Raised : List FunctionUse → List FunctionUse → Prop where
  | nil : Raised [] []
  | cons {old new : FunctionUse} (h : old ≤ new) (outer : List FunctionUse) :
      Raised (old :: outer) (new :: outer)

namespace Raised

variable {a b c : List FunctionUse}

theorem refl : ∀ a, Raised a a
  | [] => .nil
  | use :: outer => .cons use.le_refl outer

theorem trans (hab : Raised a b) (hbc : Raised b c) : Raised a c := by
  cases hab with
  | nil => exact hbc
  | cons h =>
    cases hbc with
    | cons h' => exact .cons (FunctionUse.le_trans h h') _

theorem length_eq (h : Raised a b) : b.length = a.length := by
  cases h <;> rfl

end Raised

/-- The functions later on, when `k` more have been entered and not left. -/
def Opened (k : Nat) (before after : List FunctionUse) : Prop :=
  ∃ opened raised, after = opened ++ raised ∧ opened.length = k ∧ Raised before raised

namespace Opened

variable {a b c : List FunctionUse} {j k : Nat}

theorem zero_iff : Opened 0 a b ↔ Raised a b := by
  constructor
  · rintro ⟨opened, raised, rfl, hlength, hraised⟩
    rw [List.eq_nil_of_length_eq_zero hlength]
    exact hraised
  · exact fun h => ⟨[], b, rfl, rfl, h⟩

theorem length_eq (h : Opened k a b) : b.length = k + a.length := by
  obtain ⟨opened, raised, rfl, rfl, hraised⟩ := h
  rw [List.length_append, hraised.length_eq]

/-- The functions are what they were just when no more have been entered. -/
theorem raised_iff (h : Opened k a b) : Raised a b ↔ k = 0 := by
  constructor
  · intro hraised
    have hheight := h.length_eq
    rw [hraised.length_eq] at hheight
    omega
  · rintro rfl
    exact zero_iff.mp h

theorem eq_nil_iff (h : Opened k a b) : b = [] ↔ a = [] ∧ k = 0 := by
  have hheight := h.length_eq
  rw [← List.length_eq_zero_iff, ← List.length_eq_zero_iff]
  omega

theorem trans (hab : Opened j a b) (hbc : Opened k b c) : Opened (j + k) a c := by
  obtain ⟨opened, raised, rfl, rfl, hraised⟩ := hab
  obtain ⟨opened', raised', rfl, rfl, hraised'⟩ := hbc
  cases opened with
  | nil => exact ⟨opened', raised', rfl, by simp, hraised.trans hraised'⟩
  | cons use opened =>
    -- What was open already lies below what has been opened since.
    cases hraised' with
    | @cons _ new _ _ =>
      refine ⟨opened' ++ new :: opened, raised, by simp, ?_, hraised⟩
      simp only [List.length_append, List.length_cons]
      omega

/-- A function that is left takes its own entry away. -/
theorem leave {use : FunctionUse} (h : Opened k (use :: a) b) : Opened k a b.tail := by
  obtain ⟨opened, raised, rfl, rfl, hraised⟩ := h
  cases hraised with
  | @cons _ new _ _ =>
    cases opened with
    | nil => exact ⟨[], a, rfl, rfl, .refl a⟩
    | cons use opened => exact ⟨opened ++ [new], a, by simp, by simp, .refl a⟩

/-- A function that is given up keeps its entry. -/
theorem abandon {use : FunctionUse} (h : Opened k (use :: a) b) : Opened (k + 1) a b := by
  obtain ⟨opened, raised, rfl, rfl, hraised⟩ := h
  cases hraised with
  | @cons _ new _ _ => exact ⟨opened ++ [new], a, by simp, by simp, .refl a⟩

end Opened

theorem Step.raised {s t : ParserState} (h : Step s t) : Raised s.functions t.functions := by
  cases h with
  | use hf hle => exact hf ▸ .cons hle _
  | advance => exact .refl _
  | advanceRegular => exact .refl _
  | split => exact .refl _
  | collect => exact .refl _
  | superFound => exact .refl _
  | addIncluded => exact .refl _

/-- As many functions are left open as have been given up. -/
theorem Reach.opened {stop : Option Stop} {k : Nat} {s t : ParserState} (h : Reach stop k s t) :
    Opened k s.functions t.functions := by
  induction h with
  | refl => exact Opened.zero_iff.mpr (.refl _)
  | step h => exact Opened.zero_iff.mpr h.raised
  | trans _ _ ihst ihtu => exact ihst.trans ihtu
  | problem => exact Opened.zero_iff.mpr (.refl _)
  | exhausted => exact Opened.zero_iff.mpr (.refl _)
  | function _ ih => exact ih.leave
  | abandoned _ ih => exact ih.abandon
  | superRestored _ _ ih => exact ih
  | included _ _ ih => exact ih
  | includedExhausted _ ih => exact ih

namespace Script

/-- Neither the script nor anything it includes has a problem that is more than a warning. -/
def WhollyValid (s : Script) : Prop := ∀ child ∈ s.withIncluded, child.isValid = true

theorem mem_withIncludedOfAll {child : Script} :
    ∀ included : List Script, child ∈ withIncludedOfAll included ↔
      ∃ c ∈ included, child ∈ c.withIncluded
  | [] => by simp [withIncludedOfAll]
  | c :: rest => by simp [withIncludedOfAll, mem_withIncludedOfAll rest]

theorem whollyValid_iff (s : Script) :
    s.WhollyValid ↔ s.isValid = true ∧ ∀ child ∈ s.included, child.WhollyValid := by
  have hincluded : s.withIncluded = s :: withIncludedOfAll s.included := by
    cases s
    rfl
  unfold WhollyValid
  rw [hincluded]
  simp only [List.forall_mem_cons, mem_withIncludedOfAll]
  exact and_congr_right fun _ =>
    ⟨fun h c hc d hd => h d ⟨c, hc, hd⟩, fun h d ⟨c, hc, hd⟩ => h c hc d hd⟩

end Script

theorem Step.included {s t : ParserState} (h : Step s t) :
    ∀ child ∈ s.script.included, child ∈ t.script.included := by
  cases h with
  | advance => exact fun child hc => s.scanner.next_included ▸ hc
  | advanceRegular => exact fun child hc => s.scanner.readRegularExpression_included ▸ hc
  | split => exact fun _ => id
  | collect => exact fun _ => id
  | use => exact fun _ => id
  | superFound => exact fun _ => id
  | addIncluded added => exact fun child hc => List.mem_append_left _ hc

theorem Reach.included_mem {stop : Option Stop} {k : Nat} {s t : ParserState}
    (h : Reach stop k s t) : ∀ child ∈ s.script.included, child ∈ t.script.included := by
  induction h with
  | refl => exact fun _ => id
  | step h => exact h.included
  | trans _ _ ihst ihtu => exact fun child hc => ihtu child (ihst child hc)
  | problem => exact fun _ => id
  | exhausted => exact fun _ => id
  | function _ ih => exact ih
  | abandoned _ ih => exact ih
  | superRestored _ _ ih => exact ih
  | included => exact fun child hc => List.mem_append_left _ hc
  | includedExhausted => exact fun _ => id

/-- A script that is wholly valid was so before. -/
theorem Reach.whollyValid {stop : Option Stop} {k : Nat} {s t : ParserState}
    (h : Reach stop k s t) (ht : t.script.WhollyValid) : s.script.WhollyValid := by
  obtain ⟨hvalid, hincluded⟩ := (Script.whollyValid_iff _).mp ht
  exact (Script.whollyValid_iff _).mpr
    ⟨h.grows.valid hvalid, fun child hc => hincluded child (h.included_mem child hc)⟩

/-- A script that is wholly valid was not stopped, and no function was given up in it. -/
theorem Reach.none_given_up {stop : Option Stop} {k : Nat} {s t : ParserState}
    (h : Reach stop k s t) (hs : s.script.Honest) (ht : t.script.WhollyValid) :
    (∀ p, stop ≠ some (.problem p)) ∧ (stop = none → k = 0) := by
  induction h with
  | refl => exact ⟨nofun, fun _ => rfl⟩
  | step => exact ⟨nofun, fun _ => rfl⟩
  | trans hst htu ihst ihtu =>
    have hmid := htu.whollyValid ht
    obtain ⟨hstop, hk⟩ := ihtu (hst.grows.honest hs) ht
    refine ⟨hstop, fun hnone => ?_⟩
    rw [(ihst hs hmid).2 rfl, hk hnone]
  | @problem s p hp =>
    have hinvalid : s.script.isValid = false := hs.mpr ⟨p, hp⟩
    have hvalid := ((Script.whollyValid_iff _).mp ht).1
    exact absurd hvalid (by simp [hinvalid])
  | exhausted => exact ⟨nofun, nofun⟩
  | function _ ih => exact ih hs ht
  | abandoned _ ih => exact ⟨(ih hs ht).1, nofun⟩
  | superRestored _ _ ih => exact ih hs ht
  | @included stop k s u path source _ hstop ih =>
    have hchild : u.script.WhollyValid :=
      ((Script.whollyValid_iff _).mp ht).2 u.script (List.mem_append_right _ List.mem_cons_self)
    obtain ⟨hproblem, hk⟩ := ih (Script.ofSource_honest path source) hchild
    refine ⟨nofun, fun _ => hk ?_⟩
    cases stop with
    | none => rfl
    | some stop =>
      cases stop with
      | problem p => exact absurd rfl (hproblem p)
      | exhausted => exact absurd rfl hstop
  | includedExhausted => exact ⟨nofun, nofun⟩

/-- The included script `child` was read in place of the inclusion, with the functions of `s` around
it, and `k` functions were given up in it or in what it includes. -/
def SplicedIn (k : Nat) (s : ParserState) (child : Script) (t : ParserState) : Prop :=
  ∃ (path source : String) (stop : Option Stop) (before u : ParserState),
    before.functions = s.functions ∧ Reach stop k (before.inside (Script.ofSource path source)) u ∧
      stop ≠ some .exhausted ∧ u.script = child ∧ t.functions = u.functions

namespace SplicedIn

variable {k : Nat} {s t : ParserState} {child : Script}

theorem opened (h : SplicedIn k s child t) : Opened k s.functions t.functions := by
  obtain ⟨path, source, stop, before, u, hbefore, hreach, _, _, ht⟩ := h
  rw [← hbefore, ht]
  exact hreach.opened

theorem none_given_up (h : SplicedIn k s child t) (hvalid : child.WhollyValid) : k = 0 := by
  obtain ⟨path, source, stop, before, u, _, hreach, hstop, rfl, _⟩ := h
  obtain ⟨hproblem, hk⟩ := hreach.none_given_up (Script.ofSource_honest path source) hvalid
  match stop with
  | none => exact hk rfl
  | some (.problem p) => exact absurd rfl (hproblem p)
  | some .exhausted => exact absurd rfl hstop

end SplicedIn

namespace Parse

open Rules

variable {s t : ParserState}

theorem next_functions {u : Unit} (h : next s = .ok u t) : t.functions = s.functions := by
  rw [(next_inv h).2]
  rfl

theorem endStatement_functions {ended : Bool} (h : endStatement s = .ok ended t) :
    t.functions = s.functions := by
  obtain ⟨consumed, u, hconsume, hrest⟩ := bind_ok h
  have hu : u.functions = s.functions := by
    unfold consume consumeIf at hconsume
    rw [token_bind] at hconsume
    split at hconsume
    · obtain ⟨_, v, hnext, hv⟩ := bind_ok hconsume
      cases hv
      exact next_functions hnext
    · cases hconsume
      rfl
  cases consumed <;> cases hrest <;> exact hu

end Parse

/-- An inclusion hands over the script that it has spliced in. -/
theorem includeStatement_spliced {S : Setting} {n : Nat} {r : Rules} (hr : S.Sound n r)
    {context : Context} {m : Mark} {source : String} {s t : ParserState} {statement : Statement}
    {ended : Bool}
    (h : r.includeStatement context m source s = .ok (statement, ended) t) :
    ∃ span child statements k, statement = .includeSource span source child statements ∧
      SplicedIn k s child t := by
  obtain ⟨_, s₁, h₁, h⟩ := Parse.bind_ok h
  obtain ⟨properly, s₂, h₂, h⟩ := Parse.bind_ok h
  obtain ⟨span, s₃, h₃, h⟩ := Parse.bind_ok h
  cases h₃
  obtain ⟨_, _, h₄, h⟩ := Parse.bind_ok h
  cases h₄
  obtain ⟨text, s₅, h₅, h⟩ := Parse.bind_ok h
  obtain ⟨⟨child, statements⟩, s₆, h₆, h⟩ := Parse.bind_ok h
  obtain ⟨_, _, h₇, h⟩ := Parse.bind_ok h
  cases h₇
  cases h
  obtain ⟨rfl, htext⟩ := Setting.Sound.includedText_ok h₅
  have hfunctions : s₅.functions = s.functions :=
    htext.trans ((Parse.endStatement_functions h₂).trans (Parse.next_functions h₁))
  have hread := hr.included context (Path.resolveInclude s₂.script.path source) s₅
  rw [hr.readFile] at h₆
  rw [show r.included context (S.file _) s₅ = _ from h₆] at hread
  obtain ⟨stop, u, ⟨k, hk⟩, hstop, rfl, rfl⟩ := hread
  exact ⟨_, u.script, statements, k, rfl, _, _, stop, s₅, u, hfunctions, hk, hstop, rfl, rfl⟩

/-- A `yield` is out of place just where no function is around. -/
theorem yield_unexpected_iff (span : Span) (s : ParserState) :
    Rules.noteUse .yield span s = Parse.syntaxError .yieldUnexpectedHere span s ↔
      s.functions = [] := by
  unfold Rules.noteUse
  rw [Parse.get_bind]
  cases hf : s.functions with
  | nil => simp
  | cons use outer =>
    refine iff_of_false (fun h => ?_) (List.cons_ne_nil use outer)
    cases hawait : use.usesAwait with
    | true =>
      simp only [hawait, if_true] at h
      injection h with _ hstate
      have hlast := congrArg (fun t => t.script.problems.back?.map (·.id)) hstate
      simp [ParserState.collect, ParserState.script, Script.collect] at hlast
    | false =>
      simp only [hawait, Bool.false_eq_true, if_false] at h
      injection h with _ hstate
      have hsize := congrArg (fun t => t.script.problems.size) hstate
      simp [ParserState.collect, ParserState.script, Script.collect] at hsize

/-- Behind an inclusion the functions are those from before, and above them one for each function
that was given up in the included script or below. Just when there are none the stack is as it was,
as it is whenever these scripts are valid, and a `yield` is out of place where it was before. -/
theorem include_function_stack {readFile : String → Option String} {depth n : Nat}
    {context : Context} {m : Mark} {source : String} {s t : ParserState} {statement : Statement}
    {ended : Bool} (h : (Rules.level readFile (Rules.includeAt readFile depth) n).includeStatement
      context m source s = .ok (statement, ended) t) :
    ∃ span child statements k, statement = .includeSource span source child statements ∧
      SplicedIn k s child t ∧ Opened k s.functions t.functions ∧
      (Raised s.functions t.functions ↔ k = 0) ∧ (child.WhollyValid → k = 0) ∧
      ∀ span, Rules.noteUse .yield span t = Parse.syntaxError .yieldUnexpectedHere span t ↔
        s.functions = [] ∧ k = 0 := by
  obtain ⟨span, child, statements, k, hstatement, hspliced⟩ :=
    includeStatement_spliced (Setting.lenient_sound readFile depth n) h
  have hopened := hspliced.opened
  refine ⟨span, child, statements, k, hstatement, hspliced, hopened, hopened.raised_iff,
    hspliced.none_given_up, fun span => ?_⟩
  rw [yield_unexpected_iff]
  exact hopened.eq_nil_iff

section Stopped

/-- A file whose only function is stopped inside its body. -/
def stoppedHost : Host := Host.ofFiles [("/a.es", "function f() \x7b x y \x7d")]

/-- A text that includes this file outside of any function. -/
def stoppedScript : Script := Script.ofSource "/m.es" "include \"a\"\nyield b"

/-- Behind the word `include`. -/
def stoppedState : ParserState := (Parser.ofScript stoppedHost stoppedScript).state.advance

def stoppedResult : EStateM.Result Stop ParserState Ended :=
  (Rules.level stoppedHost.readFile (Rules.includeAt stoppedHost.readFile 1) 5).includeStatement
    {} ⟨1, 0⟩ "a" stoppedState

/-- How many functions are around the place where a reading ends. -/
def heightBehind {α : Type} : EStateM.Result Stop ParserState α → Option Nat
  | .ok _ t => some t.functions.length
  | .error _ _ => none

/-- The function of the file is still open behind the inclusion. -/
theorem include_function_stack_stopped :
    ∃ value t, stoppedResult = .ok value t ∧ ¬ Raised stoppedState.functions t.functions := by
  have hbefore : stoppedState.functions.length = 0 := by decide +kernel
  have hafter : heightBehind stoppedResult = some 1 := by decide +kernel
  cases hresult : stoppedResult with
  | error stop t =>
    rw [hresult] at hafter
    cases hafter
  | ok value t =>
    rw [hresult] at hafter
    obtain ⟨_, _, _, k, _, _, hopened, hraised, _⟩ := include_function_stack hresult
    refine ⟨value, t, rfl, fun h => ?_⟩
    have hheight : t.functions.length = 1 := Option.some.inj hafter
    have hk := hraised.mp h
    have := hopened.length_eq
    omega

/-- So the `yield` behind it is taken for one inside a function. -/
theorem yield_accepted_outside :
    ((Parser.ofScript stoppedHost stoppedScript).parseProgram).1.isSome = true := by
  decide +kernel

end Stopped

end ActionSyntax
