import ActionSyntax.Parser
import ActionSyntax.Proofs.Follows.Statements

/-!
How programs and included scripts are read, side by side, and the rules of every level.
-/

namespace ActionSyntax

set_option autoImplicit false

open Parse Rules

variable {refused : ParserState → Prop} {r r' : Rules} {known : List Place}

namespace Alike

theorem packagePart?_follows : Follows refused known packagePart? packagePart? := by
  refine .seq (consume_follows _) fun more => .ite ?_ (.pure none (List.nil_subset _))
  refine .seq (expectIf_follows _) fun _ => ?_
  exact .seq previous_follows fun _ => .pure _ (List.nil_subset _)

variable (h : Alike refused r r')
include h

theorem packageName_follows : Follows refused known r.packageName r'.packageName := by
  refine .seq consumeIdentifier_follows fun named => .ite ?_ (.pure [] (List.nil_subset _))
  refine .seq previous_follows fun first => ?_
  exact .seq (h.collectWhile_follows fun _ => packagePart?_follows) fun _ => .pure _ (by grind)

theorem package?_follows : Follows refused known r.package? r'.package? := by
  refine .seq (atKeyword?_follows _) fun found => .ite (.pure none (List.nil_subset _)) ?_
  refine .seq mark_follows fun m => ?_
  refine .seq next_follows fun _ => ?_
  refine .seq h.packageName_follows fun id => ?_
  exact .seq (h.block _ _) fun block => finished_follows m (by grind) fun _ => List.nil_subset _

theorem programStatements_follows :
    ∀ fuel known, Follows refused known (r.programStatements fuel) (r'.programStatements fuel)
  | 0, _ => exhausted_follows
  | fuel + 1, known => by
    refine .seq (at?_follows _) fun closed => .ite (.pure _ (List.nil_subset _)) ?_
    refine .seq (h.statement _ _) fun ⟨first, ended⟩ => .ite ?_ (.pure _ (List.nil_subset _))
    exact .seq (programStatements_follows fuel _) fun _ => .pure _ (by grind)

theorem program_follows : Follows refused known r.program r'.program := by
  refine .seq mark_follows fun m => ?_
  refine .seq (h.collectWhile_follows fun _ => h.package?_follows) fun packages => ?_
  refine .seq (h.loop (fun fuel => h.programStatements_follows fuel _) r'.programStatements_shortens)
    fun statements => ?_
  refine .seq expectEnd_follows fun _ => .ite ?_ (finished_follows m (by grind) fun _ =>
    List.nil_subset _)
  exact .seq get_follows fun _ => .pure _ (List.nil_subset _)

/-- Rules above rules that are alike are alike. -/
theorem above {m n : Nat} (depth : Deepens refused m n) :
    Alike refused (Rules.above (fun _ => r) m) (Rules.above (fun _ => r') n) where
  depth
  readFile := h.readFile
  typeExpr _ := h.typeExprRule_follows
  optExpr mode _ := h.optExprRule_follows mode
  optPrimary allowTyped level _ := h.optPrimaryRule_follows allowTyped level
  node _ := h.nodeRule_follows false
  block context _ := h.blockRule_follows context
  statement context _ := h.statementRule_follows context
  included := h.included

end Alike

/-- Two rules for included scripts, the first of which may give up. -/
def Inserting (refused : ParserState → Prop) (included included' : IncludeRule) : Prop :=
  ∀ context path source s, Inserts refused s path source
    (included context (Script.ofSource path source) s)
    (included' context (Script.ofSource path source) s)

section Levels

variable {readFile : String → Option String} {included included' : IncludeRule}

theorem level_depth_eq (n : Nat) : (level readFile included n).depth = (level readFile included' n).depth :=
  (level_depth n).trans (level_depth n).symm

theorem level_alike (hincluded : Inserting refused included included') :
    ∀ n, Alike refused (level readFile included n) (level readFile included' n)
  | 0 => {
      depth := Or.inl rfl
      readFile := rfl
      typeExpr := fun _ => exhausted_follows
      optExpr := fun _ _ => exhausted_follows
      optPrimary := fun _ _ _ => exhausted_follows
      node := fun _ => exhausted_follows
      block := fun _ _ => exhausted_follows
      statement := fun _ _ => exhausted_follows
      included := hincluded }
  | n + 1 => (level_alike hincluded n).above (Or.inl rfl)

/-- The rules of a deeper level do the same, unless the depth is used up. -/
theorem level_deepens (hincluded : Inserting (fun _ => True) included included) : ∀ {m n}, m ≤ n →
    Alike (fun _ => True) (level readFile included m) (level readFile included n)
  | 0, n, hle => by
    have h : Alike (fun _ => True) (level readFile included n) (level readFile included n) :=
      level_alike hincluded n
    exact {
      depth := Or.inr ⟨Nat.zero_le _, fun _ => trivial⟩
      readFile := (level_readFile 0).trans (level_readFile n).symm
      typeExpr := fun known => (h.typeExpr known).exhausted fun _ => trivial
      optExpr := fun mode known => (h.optExpr mode known).exhausted fun _ => trivial
      optPrimary := fun allowTyped level known =>
        (h.optPrimary allowTyped level known).exhausted fun _ => trivial
      node := fun known => (h.node known).exhausted fun _ => trivial
      block := fun context known => (h.block context known).exhausted fun _ => trivial
      statement := fun context known => (h.statement context known).exhausted fun _ => trivial
      included := fun context path source s => by
        rw [level_included, level_included]
        exact hincluded context path source s }
  | m + 1, n + 1, hle => (level_deepens hincluded (Nat.le_of_succ_le_succ hle)).above
    (Or.inr ⟨hle, fun _ => trivial⟩)

end Levels

/-- Two ways to read an included script to its end. -/
structure Outcome.Meets (refused : ParserState → Prop) (s : ParserState) (p q : Outcome) :
    Prop where
  strides : Strides s q.state
  agree : p = q ∨ p.stop = some .exhausted ∧ Refuses refused q.state

namespace Outcome.Meets

variable {s t u : ParserState} {p q : Outcome}

theorem of_strides (h : Strides s q.state) : Outcome.Meets refused s q q := ⟨h, Or.inl rfl⟩

theorem trans (hstrides : Strides s t) (h : Outcome.Meets refused t p q) :
    Outcome.Meets refused s p q := ⟨hstrides.trans h.strides, h.agree⟩

/-- What was refused before is still included at the end. -/
theorem gaveUp {read : List Statement} (hstrides : Strides s t) (hrefuses : Refuses refused t)
    (h : Strides t q.state) : Outcome.Meets refused s ⟨read, some .exhausted, u⟩ q :=
  ⟨hstrides.trans h, Or.inr ⟨rfl, hrefuses.walk h.walk⟩⟩

end Outcome.Meets

theorem includedStatements_meets (h : Alike refused r r') (context : Context) :
    ∀ fuel read s, s.Sound → Outcome.Meets refused s (includedStatements r context fuel read s)
      (includedStatements r' context fuel read s)
  | 0, read, s, _ => .of_strides (.refl s)
  | fuel + 1, read, s, hs => by
    unfold includedStatements
    split
    · exact .of_strides (.refl s)
    obtain ⟨hlands, hagree⟩ := h.statement context [] s hs (List.forall_mem_nil _)
    cases hq : r'.statement context s with
    | error stop t =>
      rw [hq] at hlands hagree
      obtain heq | ⟨⟨u, hu⟩, hrefuses⟩ := hagree
      · rw [heq]
        exact .of_strides hlands
      · rw [hu]
        exact .gaveUp hlands hrefuses (.refl t)
    | ok found t =>
      rw [hq] at hlands hagree
      have ht := (hlands.1.walk.sound hs).1
      obtain ⟨statement, _ | _⟩ := found
      · have hmeets : Meets refused t (expectEnd t) (expectEnd t) :=
          expectEnd_follows t ht (List.forall_mem_nil _)
        have hend := hmeets.lands.strides
        obtain heq | ⟨⟨u, hu⟩, hrefuses⟩ := hagree
        · rw [heq]
          refine .trans hlands.1 ?_
          dsimp only
          cases hover : expectEnd t <;> rw [hover] at hend <;> exact .of_strides hend
        · rw [hu]
          refine .gaveUp hlands.1 hrefuses ?_
          dsimp only
          cases hover : expectEnd t <;> rw [hover] at hend <;> exact hend
      · have hrest := includedStatements_meets h context fuel (statement :: read) t ht
        obtain heq | ⟨⟨u, hu⟩, hrefuses⟩ := hagree
        · rw [heq]
          exact .trans hlands.1 hrest
        · rw [hu]
          exact .gaveUp hlands.1 hrefuses hrest.strides

theorem includedOutcome_meets (h : Alike refused r r') (hdepth : r.depth = r'.depth) (context : Context)
    {s : ParserState} (hs : s.Sound) :
    Outcome.Meets refused s (includedOutcome r context s) (includedOutcome r' context s) := by
  have hstrides : Strides s s.scanned := .scan (.refl s)
  unfold includedOutcome
  rw [scan_apply]
  cases s.scanner.next.1 with
  | error p => exact .of_strides hstrides
  | ok _ =>
    have hrest := includedStatements_meets h context r.rounds [] s.scanned (hstrides.walk.sound hs).1
    unfold rounds at hrest ⊢
    exact .trans hstrides (hdepth ▸ hrest)

/-- Where an included script begins. -/
theorem ParserState.strides_inside (s : ParserState) (script : Script) :
    Strides (ParserState.ofScript script) (s.inside script) :=
  .note (.refl _) s.functions s.superFound

/-- A script is read in place in the same way, unless the first reading gives up on a script that is
included there. -/
theorem includeScript_hands (h : Alike refused r r') (hdepth : r.depth = r'.depth) (context : Context)
    (path source : String) (s : ParserState) :
    Hands s path source (r'.includeScript context (Script.ofSource path source) s) ∧
      (r.includeScript context (Script.ofSource path source) s =
        r'.includeScript context (Script.ofSource path source) s ∨
      (∃ t, r.includeScript context (Script.ofSource path source) s = .error .exhausted t) ∧
        Refuses refused
          (includedOutcome r' context (s.inside (Script.ofSource path source))).state) := by
  have hin := s.strides_inside (Script.ofSource path source)
  have hsound := (hin.walk.sound (.ofSource path source)).1
  obtain ⟨hstrides, hagree⟩ := includedOutcome_meets h hdepth context hsound
  let last := (includedOutcome r' context (s.inside (Script.ofSource path source))).state
  constructor
  · unfold includeScript
    dsimp only
    split
    · exact ⟨last.functions, last.superFound, rfl⟩
    · exact ⟨⟨last, hin.trans hstrides, rfl⟩, last.functions, last.superFound, rfl⟩
  · obtain heq | ⟨hstop, hrefuses⟩ := hagree
    · left
      unfold includeScript
      exact heq ▸ rfl
    · right
      let first := includedOutcome r context (s.inside (Script.ofSource path source))
      refine ⟨⟨s.outside first.state, ?_⟩, hrefuses⟩
      unfold includeScript
      dsimp only
      split
      · rfl
      · rename_i hgoes
        exact (hgoes hstop).elim

/-- A way to read included scripts is as good as itself. -/
theorem includeAt_inserting (readFile : String → Option String) :
    ∀ depth, Inserting refused (includeAt readFile depth) (includeAt readFile depth)
  | 0 => fun _ _ _ s => ⟨⟨s.functions, s.superFound, rfl⟩, Or.inl rfl⟩
  | depth + 1 => fun context path source s =>
    ⟨(includeScript_hands (level_alike (includeAt_inserting readFile depth) _)
      (level_depth_eq _) context path source s).1, Or.inl rfl⟩

/-- The rules for a script only ever walk through its text. -/
theorem ofHost_alike (host : Host) (script : Script) :
    Alike refused (ofHost host script) (ofHost host script) :=
  level_alike (includeAt_inserting host.readFile host.includeDepth) _

theorem toEnd_follows {α : Type} [Located α] {x y : Parse α} (h : Follows refused known x y) :
    Follows refused known (Parser.toEnd x) (Parser.toEnd y) :=
  .seq h fun _ => .seq expectEnd_follows fun _ => .pure _ (by grind)

end ActionSyntax
