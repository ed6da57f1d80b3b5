import ActionSyntax.Proofs.Spans

/-!
Jumps without a target. While a tree is built, a problem is reported for every jump that has none, and
for no other, in the order in which the jumps stand in the text.
-/

namespace ActionSyntax

set_option autoImplicit false

open Parse Rules
open Piece (Among)

/-- The problems with jumps, in the order in which they have been reported. -/
def Script.jumpProblems (s : Script) : List Problem := s.problems.toList.filter (·.id.isJump)

theorem Script.jumpProblems_collect (s : Script) (p : Problem) :
    (s.collect p).jumpProblems = s.jumpProblems ++ if p.id.isJump then [p] else [] := by
  simp [jumpProblems, collect, List.filter_append, List.filter_cons]

/-- A call of the super constructor is no jump. -/
theorem ParserState.afterSuper_jumpProblems (s : ParserState) (constructor : Bool) (span : Span) :
    (s.afterSuper constructor span).script.jumpProblems = s.script.jumpProblems ∧
      (s.afterSuper constructor span).token = s.token := by
  rcases s.afterSuper_cases constructor span with ⟨-, ht⟩ | ⟨-, ht⟩
  · rw [ht]
    exact ⟨rfl, rfl⟩
  · rw [ht]
    refine ⟨?_, rfl⟩
    show (s.script.collect _).jumpProblems = _
    rw [Script.jumpProblems_collect]
    exact List.append_nil _

section Scanning

variable {c : Scanner}

/-- A step of the scanner that does not fail reports nothing. -/
theorem Scanner.next_problems (ok : c.next.1 = .ok ()) : c.next.2.script.problems = c.script.problems := by
  obtain ⟨_, _, _, -, -, he⟩ | ⟨_, _, -, he⟩ := c.next_cases
  · rw [he]
    rfl
  · simp [he] at ok

theorem Scanner.readRegularExpression_problems (ok : c.readRegularExpression.1 = .ok ()) :
    c.readRegularExpression.2.script.problems = c.script.problems := by
  obtain ⟨_, _, _, -, -, he⟩ | ⟨_, he⟩ := c.readRegularExpression_cases
  · rw [he]
    rfl
  · simp [he] at ok

end Scanning

/-- A jump is reported with a problem of its kind, at its own range. -/
theorem Statement.jumpProblem?_some {around : Situation} {s : Statement} {p : Problem}
    (h : s.jumpProblem? around = some p) :
    s.isJump = true ∧ p.id.isJump = true ∧ p.span = s.span := by
  unfold jumpProblem? at h
  split at h
  all_goals
    first
    | cases h
    | split at h
      · cases h
      · cases h
        exact ⟨rfl, rfl, rfl⟩

theorem Piece.jumpProblem?_some {q : Piece} {p : Problem} (h : q.jumpProblem? = some p) :
    q.isNotable = true ∧ q.isPlain = false := by
  cases q with
  | statement around s =>
    have hjump := (Statement.jumpProblem?_some h).1
    cases s <;> first | exact ⟨rfl, rfl⟩ | cases hjump
  | _ => cases h

/-- New problems are those of the jumps among the pieces, in the order of the text, and at places from
one offset up to another. -/
structure Reported (ps : List Piece) (start stop : Nat) (new : List Problem) : Prop where
  mem : ∀ p, p ∈ new ↔ ∃ q, Among true ps q ∧ q.jumpProblem? = some p
  sorted : new.Pairwise fun p q => p.span.start < q.span.start
  between : ∀ p ∈ new, start ≤ p.span.start ∧ p.span.start < stop

namespace Reported

variable {ps qs : List Piece} {start middle stop : Nat} {new more : List Problem}

/-- No jump stands there. -/
theorem none (h : ∀ q p, Among true ps q → q.jumpProblem? ≠ some p) : Reported ps start stop [] where
  mem p := iff_of_false List.not_mem_nil fun ⟨q, hq, hp⟩ => h q p hq hp
  sorted := .nil
  between := nofun

theorem append (h : Reported ps start middle new) (h' : Reported qs middle stop more)
    (hstart : start ≤ middle) (hstop : middle ≤ stop) :
    Reported (ps ++ qs) start stop (new ++ more) where
  mem p := by
    simp only [List.mem_append, h.mem, h'.mem, Piece.among_append, or_and_right, exists_or]
  sorted := List.pairwise_append.mpr ⟨h.sorted, h'.sorted, fun p hp q hq =>
    (h.between p hp).2.trans_le (h'.between q hq).1⟩
  between p hp := by
    rcases List.mem_append.mp hp with hp | hp
    · exact (h.between p hp).imp_right fun hlt => hlt.trans_le hstop
    · exact (h'.between p hp).imp_left hstart.trans

/-- More may be read behind them in which no jump stands. -/
theorem widen {wider : Nat} (h : Reported ps start stop new) (hle : stop ≤ wider) :
    Reported ps start wider new where
  mem := h.mem
  sorted := h.sorted
  between p hp := (h.between p hp).imp_right fun hlt => hlt.trans_le hle

theorem eq_nil (h : Reported [] start stop new) : new = [] :=
  List.eq_nil_iff_forall_not_mem.mpr fun p hp =>
    let ⟨_, hq, _⟩ := (h.mem p).mp hp
    Piece.among_nil hq

/-- A jump that has been read, with its problem if it has one. -/
theorem jump {around : Situation} {jump : Statement} (isJump : jump.isJump = true)
    (hstart : jump.span.start = start) (hstop : start < stop) :
    Reported [.statement around jump] start stop (jump.jumpProblem? around).toList where
  mem p := by simp [Piece.among_jump isJump, Piece.jumpProblem?]
  sorted := by cases jump.jumpProblem? around <;> simp
  between p hp := by
    rw [Option.mem_toList] at hp
    rw [(Statement.jumpProblem?_some hp).2.2, hstart]
    exact ⟨Nat.le_refl _, hstop⟩

/-- Only the jumps among the pieces count. -/
theorem congr (h : Reported ps start stop new)
    (hsame : ∀ q p, q.jumpProblem? = some p → (Among true qs q ↔ Among true ps q)) :
    Reported qs start stop new where
  mem p := (h.mem p).trans (exists_congr fun q => and_congr_left fun hp => (hsame q p hp).symm)
  sorted := h.sorted
  between := h.between

end Reported

namespace BuildsIn

variable {lossy : Prop} {c a : Bool} {s t : ParserState} {ps : List Piece}

/-- The current token moves on with what is built. -/
theorem moves (h : BuildsIn lossy c a s ps t) (hs : s.Ordered) :
    t.Ordered ∧ s.token.span.start ≤ t.token.span.start ∧
      (a = true → s.token.span.start < t.token.span.start) := by
  obtain ⟨tokens, hconsumes, hne, -⟩ := h.laid hs
  have hpaced := hconsumes.paced hs
  exact ⟨hpaced.ordered, hpaced.start_le, fun ha => hpaced.start_lt (hne ha)⟩

/-- If no piece is lost and no parameter is dropped, just the jumps among the pieces that have no target
are reported. -/
theorem jumps (h : BuildsIn False c a s ps t) (hs : s.Ordered)
    (hparams : ∀ p ∈ t.script.problems, p.id ≠ .invalidArrowFunctionParam) :
    ∃ new, t.script.jumpProblems = s.script.jumpProblems ++ new ∧
      Reported ps s.token.span.start t.token.span.start new := by
  have nothing : ∀ {u v : ParserState}, v.script.problems = u.script.problems →
      ∃ new, v.script.jumpProblems = u.script.jumpProblems ++ new ∧
        Reported [] u.token.span.start v.token.span.start new := by
    intro u v hsame
    refine ⟨[], ?_, .none fun _ _ h => (Piece.among_nil h).elim⟩
    rw [Script.jumpProblems, hsame, List.append_nil]
    rfl
  induction h with
  | refl | split => exact nothing rfl
  | next _ ok => exact nothing (Scanner.next_problems ok)
  | regular _ ok => exact nothing (Scanner.readRegularExpression_problems ok)
  | @report _ s p aside =>
    refine ⟨[], ?_, .none fun _ _ h => (Piece.among_nil h).elim⟩
    show (s.script.collect p).jumpProblems = _
    rw [Script.jumpProblems_collect, ProblemId.isJump_of_isAside aside]
    rfl
  | weaken _ ih | anywhere _ _ ih => exact ih hs hparams
  | @seq _ a b s t u ps qs h h' ih ih' =>
    obtain ⟨hordered, hle, -⟩ := h.moves hs
    obtain ⟨-, hle', -⟩ := h'.moves hordered
    obtain ⟨new, hnew, hreported⟩ := ih hs fun p hp => hparams p (h'.grows.mem hp)
    obtain ⟨more, hmore, hreported'⟩ := ih' hordered hparams
    refine ⟨new ++ more, ?_, hreported.append hreported' hle hle'⟩
    rw [hmore, hnew, List.append_assoc]
  | rework _ reworks ih =>
    obtain ⟨new, hnew, hreported⟩ := ih hs hparams
    exact ⟨new, hnew, hreported.congr fun q p hp =>
      reworks.among true q (Piece.jumpProblem?_some hp).1⟩
  | lose _ _ why =>
    obtain ⟨p, hp, hid⟩ := (why.resolve_left id).reported
    exact (hparams p hp hid).elim
  | @node _ s t p others _ plain _ _ _ _ ih =>
    obtain ⟨new, hnew, hreported⟩ := ih hs hparams
    refine ⟨new, hnew, hreported.congr fun q problem hp => ?_⟩
    have hself : q ≠ p := by
      rintro rfl
      cases plain.symm.trans (Piece.jumpProblem?_some hp).2
    simp [Piece.entered_of_isPlain plain, hself]
  | @element _ s t _ _ _ _ e _ _ _ _ _ _ _ _ _ _ _ _ _ _ _ ih =>
    obtain ⟨new, hnew, hreported⟩ := ih hs hparams
    refine ⟨new, hnew, hreported.congr fun q p hp => ?_⟩
    have hself : q ≠ .expr e := by
      rintro rfl
      cases hp
    simp [Piece.entered, hself]
  | functionType _ ih =>
    obtain ⟨new, hnew, hreported⟩ := ih hs hparams
    refine ⟨new, hnew, hreported.congr fun q p hp => iff_of_false ?_ ?_⟩
    · exact Piece.not_among_typal (Piece.isTypal_type _) (Piece.jumpProblem?_some hp).1
    · exact Piece.not_among_typal (Piece.isTypal_parameters _ _) (Piece.jumpProblem?_some hp).1
  | @front s t u op operand _ note ih =>
    obtain ⟨new, hnew, hreported⟩ := ih hs fun p hp => hparams p ((Rules.noteUse_grows note).mem hp)
    have hsame : u.script.jumpProblems = t.script.jumpProblems ∧ u.token = t.token := by
      rcases Rules.noteUse_ok note with ⟨p, rfl, -, haside⟩ | ⟨-, rfl⟩
      · refine ⟨?_, rfl⟩
        show (t.script.collect p).jumpProblems = _
        rw [Script.jumpProblems_collect, ProblemId.isJump_of_isAside haside]
        exact List.append_nil _
      · exact ⟨rfl, rfl⟩
    rw [hsame.1, hsame.2]
    refine ⟨new, hnew, hreported.congr fun q p hp => ?_⟩
    have hself : q ≠ .expr (.unary (s.token.span.«to» t.previous.span) op operand) := by
      rintro rfl
      cases hp
    rw [Piece.among_cons]
    simp [Piece.entered, Piece.children, Expr.children, hself]
  | @jump _ s t around jump h isJump ends ih =>
    obtain ⟨hgrows, -⟩ := t.afterJump_keeps around jump
    obtain ⟨new, hnew, hreported⟩ := ih hs fun p hp => hparams p (hgrows.mem hp)
    obtain rfl := hreported.eq_nil
    obtain ⟨hproblems, htoken⟩ : (t.afterJump around jump).script.jumpProblems =
        t.script.jumpProblems ++ (jump.jumpProblem? around).toList ∧
          (t.afterJump around jump).token = t.token := by
      rcases t.afterJump_cases around jump with ⟨hnone, ht⟩ | ⟨p, hsome, ht⟩
      · rw [ht, hnone]
        exact ⟨(List.append_nil _).symm, rfl⟩
      · rw [ht, hsome]
        refine ⟨?_, rfl⟩
        show (t.script.collect p).jumpProblems = _
        rw [Script.jumpProblems_collect, (Statement.jumpProblem?_some hsome).2.1]
        rfl
    have hstart : jump.span.start = s.token.span.start := by
      rw [ends]
      rfl
    refine ⟨_, ?_, .jump isJump hstart (htoken ▸ (h.moves hs).2.2 rfl)⟩
    rw [hproblems, hnew, List.append_nil]
  | @superCall c s t u around arguments h closed ih ih' =>
    have hgrows := (u.afterSuper_keeps c (s.token.span.«to» u.previous.span)).1
    obtain ⟨hordered, -, -⟩ := h.moves hs
    have hbefore : ∀ p ∈ u.script.problems, p.id ≠ .invalidArrowFunctionParam := fun p hp =>
      hparams p (hgrows.mem hp)
    obtain ⟨new, hnew, hreported⟩ := ih hs fun p hp => hbefore p (closed.grows.mem hp)
    obtain ⟨none, hnone, hclosed⟩ := ih' hordered hbefore
    obtain rfl := hclosed.eq_nil
    obtain ⟨hproblems, htoken⟩ := u.afterSuper_jumpProblems c (s.token.span.«to» u.previous.span)
    refine ⟨new, ?_, ?_⟩
    · rw [hproblems, hnone, hnew, List.append_nil]
    · rw [htoken]
      refine (hreported.widen (closed.moves hordered).2.1).congr fun q p hp => ?_
      have hself : q ≠ .statement around (.superCall (s.token.span.«to» u.previous.span) arguments) := by
        rintro rfl
        cases hp
      simp [Piece.entered, Piece.children, Statement.children, hself]
  | @block _ s t around block _ _ ih =>
    obtain ⟨new, hnew, hreported⟩ := ih (hs.beside ⟨rfl, rfl, rfl, rfl, rfl⟩) hparams
    refine ⟨new, hnew, Reported.congr hreported fun q p hp => ?_⟩
    have hself : q ≠ .block around block := by
      rintro rfl
      cases hp
    simp [Piece.entered, Piece.children, hself]
  | @body _ a s t body _ ih =>
    obtain ⟨new, hnew, hreported⟩ := ih (hs.beside ⟨rfl, rfl, rfl, rfl, rfl⟩) hparams
    refine ⟨new, hnew, Reported.congr hreported fun q p hp => ?_⟩
    have hself : q ≠ .body (t.functions.head?.getD {}) body := by
      rintro rfl
      cases hp
    rw [Piece.among_cons]
    simp [Piece.entered, Piece.children, hself]
  | included may => exact may.elim

end BuildsIn

/-- A program that is read to its end without what strict rules give up at is built, and nothing of it is
lost. -/
theorem parseProgram_treeRead {host : Host} {path source : String} {program : Program} {t : ParserState}
    {p : Parser} (hp : p = Parser.ofScript host (Script.ofSource path source))
    (hvalid : p.script.isValid = true)
    (hprogram : Parser.toEnd (ofHost p.host p.script).program p.state = .ok program t)
    (hstrict : p.ReadsStrictly .program) :
    p.parseProgram.2.script = t.script ∧ TreeRead False p.state (.program program) t ∧
      p.state.Ordered ∧ p.script.problems = #[] := by
  have hread : Entry.program.read (ofHost p.host p.script) p.state = .ok (.program program) t := by
    show Parser.toEnd (Tree.program <$> (ofHost p.host p.script).program) p.state = _
    rw [Parser.toEnd_map]
    show EStateM.map Tree.program _ _ = _
    unfold EStateM.map
    rw [hprogram]
  have hcall := Parser.call_eq (p := p) .program
  rw [if_pos hvalid, hread] at hcall
  subst hp
  refine ⟨congrArg (·.2.script) hcall, hstrict.treeRead hread, Parser.ofScript_ordered hvalid, ?_⟩
  unfold Parser.script
  rw [Parser.ofScript_state]
  exact Scanner.next_problems (Parser.ofScript_next hvalid)

/-- When a program has been read to its end, the problems with jumps in the script are those of the
jumps in the tree that have no target, one for each and in the order of the text. -/
theorem parseProgram_jumps {host : Host} {path source : String} {program : Program} {t : ParserState}
    {p : Parser} (hp : p = Parser.ofScript host (Script.ofSource path source))
    (hvalid : p.script.isValid = true)
    (hprogram : Parser.toEnd (ofHost p.host p.script).program p.state = .ok program t)
    (hstrict : p.ReadsStrictly .program)
    (hparams : ∀ problem ∈ t.script.problems, problem.id ≠ .invalidArrowFunctionParam) :
    p.parseProgram.2.script = t.script ∧
      (t.script.jumpProblems.Pairwise fun a b => a.span.start < b.span.start) ∧
      ∀ problem, problem ∈ t.script.jumpProblems ↔ ∃ around s,
        (Piece.program program).Holds true (.statement around s) ∧
          s.jumpProblem? around = some problem := by
  obtain ⟨hscript, htree, hordered, hproblems⟩ := parseProgram_treeRead hp hvalid hprogram hstrict
  have hnone : p.script.jumpProblems = [] := by rw [Script.jumpProblems, hproblems]; rfl
  have hjumps : ∃ new, t.script.jumpProblems = p.script.jumpProblems ++ new ∧
      Reported [.program program] p.state.token.span.start t.token.span.start new := by
    cases htree with
    | node hbuilds => exact hbuilds.jumps hordered hparams
    | empty hbuilds =>
      obtain ⟨new, hnew, hreported⟩ := hbuilds.jumps hordered hparams
      refine ⟨new, hnew, hreported.congr fun q problem hq => ?_⟩
      have hself : q ≠ .program ⟨t.script.fullSpan, [], []⟩ := by
        rintro rfl
        cases hq
      simp [Piece.children, hself]
  obtain ⟨new, hnew, hreported⟩ := hjumps
  rw [hnone, List.nil_append] at hnew
  rw [hnew]
  refine ⟨hscript, hreported.sorted, fun problem => (hreported.mem problem).trans ?_⟩
  constructor
  · rintro ⟨q, hq, hproblem⟩
    obtain ⟨root, hroot, -, hholds⟩ := hq
    obtain rfl := List.mem_singleton.mp hroot
    cases q with
    | statement around s => exact ⟨around, s, hholds, hproblem⟩
    | _ => cases hproblem
  · rintro ⟨around, s, hholds, hproblem⟩
    exact ⟨.statement around s, ⟨_, List.mem_cons_self, rfl, hholds⟩, hproblem⟩

/-- A `break` outside of all loops, and a `continue` whose label is another one than that around it. -/
theorem parseProgram_jumps_two :
    let p := Parser.ofScript (Host.ofFiles []) (Script.ofSource "/m.es"
      "break; while (a) f: continue g")
    ∃ program t, Parser.toEnd (ofHost p.host p.script).program p.state = .ok program t ∧
      ∀ id ∈ [ProblemId.illegalBreakStatement, .undefinedLabel], ∃ around s problem,
        (Piece.program program).Holds true (.statement around s) ∧
          s.jumpProblem? around = some problem ∧ problem.id = id := by
  intro p
  have hstrict : p.ReadsStrictly .program := .of_ok (by decide +kernel)
  have hids : (match Parser.toEnd (ofHost p.host p.script).program p.state with
    | .ok _ t => t.script.problems.toList.map (·.id)
    | .error .. => []) = [.illegalBreakStatement, .undefinedLabel] := by decide +kernel
  cases hprogram : Parser.toEnd (ofHost p.host p.script).program p.state with
  | error =>
    rw [hprogram] at hids
    cases hids
  | ok program t =>
    rw [hprogram] at hids
    have hparams : ∀ problem ∈ t.script.problems, problem.id ≠ .invalidArrowFunctionParam := by
      intro problem hproblem hid
      have hmem := List.mem_map_of_mem (f := (·.id)) (Array.mem_toList_iff.mpr hproblem)
      rw [show t.script.problems.toList.map (·.id) = _ from hids, hid] at hmem
      exact absurd hmem (by decide)
    obtain ⟨-, -, hjumps⟩ := parseProgram_jumps rfl (by decide +kernel) hprogram hstrict hparams
    refine ⟨program, t, rfl, fun id hid => ?_⟩
    have hjump : id.isJump = true := by
      revert id
      decide
    rw [← show t.script.problems.toList.map (·.id) = _ from hids] at hid
    obtain ⟨problem, hproblem, rfl⟩ := List.mem_map.mp hid
    obtain ⟨around, s, hholds, hsome⟩ := (hjumps problem).mp (List.mem_filter.mpr ⟨hproblem, hjump⟩)
    exact ⟨around, s, problem, hholds, hsome, rfl⟩

end ActionSyntax
