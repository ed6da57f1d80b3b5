import ActionSyntax.Parser
import ActionSyntax.Proofs.Reads.Statements

/-!
How programs and included scripts are read, and that the rules of every level are sound.
-/

namespace ActionSyntax.Setting

set_option autoImplicit false

open Parse Rules

variable {S : Setting} {r : Rules} {n : Nat}

namespace Sound

theorem packagePart?_reads : S.Reads n Option.isSome packagePart? := by
  refine .bool (consume_reads (by decide)) ?_ .pure_none
  refine .seq (expectIf_reads proper_word) fun _ => ?_
  exact .seq previous_reads fun _ => .pure _

variable (h : S.Sound n r)
include h

theorem packageName_reads : S.Reads n never r.packageName := by
  refine .seq consumeIdentifier_reads fun named => ?_
  refine .ite ?_ (.pure [])
  refine .seq previous_reads fun first => ?_
  exact .seq (h.collectWhile_reads packagePart?_reads) fun _ => .pure _

theorem package?_reads : S.Reads n Option.isSome r.package? := by
  refine .introduced "package" fun m => ?_
  refine .seq h.packageName_reads fun id => ?_
  refine .seq (h.block _) fun block => ?_
  exact .seq (finish_reads m) fun _ => .pure _

theorem programStatements_reads :
    ∀ fuel k, k ≤ n → k ≤ fuel → S.Reads k never (r.programStatements fuel)
  | 0, _, _, hk => exhausted_reads hk
  | fuel + 1, k, hn, hk => by
    refine .seq (at?_reads _) fun closed => ?_
    refine .ite (.pure _) ?_
    refine .moved ((h.statement _).mono hn) fun ⟨first, ended⟩ => ?_
    refine .ite ?_ (.pure _)
    exact .seq (programStatements_reads fuel _ (by omega) (by omega)) fun _ => .pure _

theorem program_reads : S.Reads n never r.program := by
  refine .seq mark_reads fun m => ?_
  refine .seq (h.collectWhile_reads h.package?_reads) fun packages => ?_
  refine .seq (h.programStatements_reads _ n (Nat.le_refl n) (h.rounds_le (by omega)))
    fun statements => ?_
  refine .seq expectEnd_reads fun _ => ?_
  refine .ite ?_ ?_
  · exact .seq get_reads fun _ => .pure _
  · exact .seq (finish_reads m) fun _ => .pure _

/-- The rules above sound rules can take one more token. -/
theorem above (depth : Nat) (hdepth : n < depth) :
    S.Sound (n + 1) (Rules.above (fun _ => r) depth) where
  depth := hdepth
  readFile := h.readFile
  typeExpr := h.typeExprRule_reads
  optExpr := h.optExprRule_reads
  optPrimary := h.optPrimaryRule_reads
  node := h.nodeRule_reads false
  block := h.blockRule_reads
  statement := h.statementRule_reads
  included := h.included

end Sound

/-- What has to be known of the rule for included scripts. -/
def Splicing (S : Setting) (included : IncludeRule) : Prop :=
  ∀ context path s, S.Splices s (S.file path) (included context (S.file path) s)

theorem level_sound {included : IncludeRule} (hincluded : S.Splicing included) :
    ∀ n, S.Sound n (level S.readFile included n)
  | 0 => {
      depth := Nat.le_refl 0
      readFile := rfl
      typeExpr := exhausted_reads (Nat.le_refl 0)
      optExpr := fun _ => exhausted_reads (Nat.le_refl 0)
      optPrimary := fun _ _ => exhausted_reads (Nat.le_refl 0)
      node := exhausted_reads (Nat.le_refl 0)
      block := fun _ => exhausted_reads (Nat.le_refl 0)
      statement := fun _ => exhausted_reads (Nat.le_refl 0)
      included := hincluded }
  | n + 1 => (level_sound hincluded n).above (n + 1) (Nat.lt_succ_self n)

/-- An included script is read to some state, and what stopped it has been recorded there. -/
def Accounted (S : Setting) (s : ParserState) (outcome : Outcome) : Prop :=
  Reaches outcome.stop s outcome.state ∧
    ∀ stop, outcome.stop = some stop → S.Recorded stop outcome.state

theorem includedStatements_accounted (h : S.Sound n r) (context : Context) :
    ∀ fuel read s, S.Ready n s → S.Ready fuel s →
      S.Accounted s (includedStatements r context fuel read s)
  | 0, read, s, _, hfuel => by
    refine ⟨.exhausted s, ?_⟩
    rintro stop ⟨⟩
    rcases hfuel with he | hl
    · exact he
    · exact absurd hl (Nat.not_lt_zero _)
  | fuel + 1, read, s, hs, hfuel => by
    unfold includedStatements
    split
    · exact ⟨.refl s, nofun⟩
    have hfirst := h.statement context s hs
    cases hread : r.statement context s with
    | error stop t =>
      rw [hread] at hfirst
      refine ⟨hfirst.1, ?_⟩
      rintro stop ⟨⟩
      exact hfirst.2
    | ok found t =>
      rw [hread] at hfirst
      obtain ⟨statement, _ | _⟩ := found
      · have hend := expectEnd_reads t (hs.after hfirst)
        dsimp only
        cases hover : expectEnd t with
        | error stop u =>
          rw [hover] at hend
          refine ⟨hfirst.reaches.trans hend.1, ?_⟩
          rintro stop ⟨⟩
          exact hend.2
        | ok _ u =>
          rw [hover] at hend
          exact ⟨hfirst.reaches.trans hend.reaches, nofun⟩
      · have hrest := includedStatements_accounted h context fuel (statement :: read) t
          (hs.after hfirst) (hfuel.moved hfirst)
        exact ⟨hfirst.reaches.trans hrest.1, hrest.2⟩

theorem includedOutcome_accounted (h : S.Sound n r) (context : Context) {s : ParserState}
    (hfirst : S.Ends never s (scan Scanner.next s)) (hs : S.Ready n s) :
    S.Accounted s (includedOutcome r context s) := by
  unfold includedOutcome
  cases hscan : scan Scanner.next s with
  | error stop t =>
    rw [hscan] at hfirst
    refine ⟨hfirst.1, ?_⟩
    rintro stop ⟨⟩
    exact hfirst.2
  | ok _ t =>
    rw [hscan] at hfirst
    have ht := hs.after hfirst
    have hrest := includedStatements_accounted h context r.rounds [] t ht
      (ht.mono (h.rounds_le (Nat.le_succ n)))
    exact ⟨hfirst.reaches.trans hrest.1, hrest.2⟩

/-- Where a script begins, all of its tokens may still come. -/
theorem ready_inside (s : ParserState) {script : Script} (hn : script.content.length < n) :
    S.Ready n (s.inside script) := Or.inr hn

/-- Whatever stops an included script, what includes it goes on, unless the depth is used up. -/
theorem includeScript_splices {path source : String} (h : S.Sound n r)
    (hn : (Script.ofSource path source).content.length < n) (context : Context) (s : ParserState) :
    S.Splices s (Script.ofSource path source)
      (r.includeScript context (Script.ofSource path source) s) := by
  have hfirst := (next_ends (S := S) (s.inside (Script.ofSource path source))).never_of
  obtain ⟨hreaches, hrecorded⟩ := includedOutcome_accounted h context hfirst (ready_inside s hn)
  unfold includeScript
  dsimp only
  split
  · rename_i hstop
    exact ⟨rfl, (hstop ▸ hreaches).includedExhausted, hrecorded .exhausted hstop⟩
  · rename_i hstop
    exact ⟨_, _, hreaches, hstop, rfl, rfl⟩

/-- Scripts can be read in place to some depth, if inclusions are excused from going deeper. -/
theorem includeAt_splicing (he : S.excuse) : ∀ depth, S.Splicing (includeAt S.readFile depth)
  | 0 => fun _ _ s => ⟨rfl, .exhausted s, he⟩
  | depth + 1 => fun context _ s =>
    includeScript_splices (level_sound (includeAt_splicing he depth) _)
      (Nat.lt_add_of_pos_right (by decide)) context s

/-- With an excuse for everything, all levels are sound. -/
theorem lenient_sound (readFile : String → Option String) (depth n : Nat) :
    (lenient readFile).Sound n (level readFile (includeAt readFile depth) n) :=
  level_sound (S := lenient readFile) (includeAt_splicing trivial depth) n

end ActionSyntax.Setting
