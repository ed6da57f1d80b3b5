import ActionSyntax.Proofs.Building.Definitions
import ActionSyntax.Proofs.Building.Loops

/-!
What is built of statements and blocks, jumps and inclusions among them.
-/

namespace ActionSyntax

set_option autoImplicit false

open Parse Setting Setting.Sound Rules

variable {lossy : Prop} {k : Bool} {s t u : ParserState}

section Jumps

theorem Rules.jump_ok {j : Rules.Jump} (more : s.token.kind ≠ .endOfProgram)
    (h : jump s = .ok j t) :
    Builds lossy true s [] t ∧ j.span = s.token.span.«to» t.previous.span := by
  unfold jump at h
  rw [mark_bind] at h
  obtain ⟨u, hu, h⟩ := bind_next lossy more h
  rw [get_bind] at h
  obtain ⟨found, v, hv, h⟩ := bind_either h
  dsimp only at h
  rw [previous_bind] at h
  obtain ⟨ended, w, hw, h⟩ := bind_ok h
  cases h
  have hlabel : Builds lossy false u [] v := by
    rcases hv with ⟨-, hv⟩ | ⟨-, hv⟩
    · rcases consumeIf_ok lossy (proper_kind (by decide)) hv with ⟨-, -, hv⟩ | ⟨-, rfl⟩
      · exact hv.builds.weaken
      · exact .refl _
    · cases hv
      exact .refl _
  exact ⟨hu.builds.skip (hlabel.skip (endStatement_ok hw)), rfl⟩

variable {around : Situation} {c : Context} (agrees : around.Agrees c)
include agrees

/-- A jump is reported just when nothing around it is its target. -/
theorem Rules.checkJump_ok {j : Rules.Jump} {legal : Bool} {id : ProblemId} {jump : Statement}
    (labeled : ∀ label, j.label = some label → jump.jumpProblem? around =
      if .label label ∈ around.within then none
      else some { id := .undefinedLabel, severity := .verifyError, span := j.span,
                  arguments := [("label", .text label)] })
    (plain : j.label = none → jump.jumpProblem? around =
      if legal = true then none else some { id, severity := .syntaxError, span := j.span })
    (h : checkJump c j legal id s = .ok () t) : t = s.afterJump around jump := by
  unfold checkJump at h
  unfold ParserState.afterJump
  cases hlabel : j.label with
  | some label =>
    rw [hlabel] at h
    dsimp only at h
    rw [labeled label hlabel]
    have htarget : c.hasLabel label = true ↔ .label label ∈ around.within := by
      rw [← agrees.labels]
      exact List.contains_iff_mem
    by_cases hmem : .label label ∈ around.within
    · rw [if_pos hmem]
      rw [if_pos (htarget.mpr hmem)] at h
      cases h
      rfl
    · rw [if_neg hmem]
      rw [if_neg (mt htarget.mp hmem)] at h
      cases h
      rfl
  | none =>
    rw [hlabel] at h
    dsimp only at h
    rw [plain hlabel]
    by_cases hlegal : legal = true
    · rw [if_pos hlegal] at h ⊢
      cases h
      rfl
    · rw [if_neg hlegal] at h ⊢
      cases h
      rfl

variable {statement : Statement} {ended : Bool} (more : s.token.kind ≠ .endOfProgram)
include more

theorem Rules.breakStatement_ok (h : breakStatement c s = .ok (statement, ended) t) :
    BuildsIn lossy k true s [.statement around statement] t := by
  obtain ⟨⟨span, label, ended⟩, u, hu, h⟩ := bind_ok h
  obtain ⟨_, v, hv, h⟩ := bind_ok h
  cases h
  obtain ⟨hread, hspan⟩ : Builds lossy true s [] u ∧ _ := jump_ok more hu
  have hlegal : (c.inIteration || c.inSwitch) = true ↔
      .loop ∈ around.within ∨ .switchCase ∈ around.within := by
    rw [Bool.or_eq_true, agrees.loops, agrees.cases]
  have hafter : t = u.afterJump around (.breakOut span label) := by
    refine checkJump_ok agrees ?_ ?_ hv
    · rintro label rfl
      rfl
    · rintro rfl
      simp only [Statement.jumpProblem?, hlegal]
  rw [hafter]
  exact .jump hread rfl hspan

theorem Rules.continueStatement_ok (h : continueStatement c s = .ok (statement, ended) t) :
    BuildsIn lossy k true s [.statement around statement] t := by
  obtain ⟨⟨span, label, ended⟩, u, hu, h⟩ := bind_ok h
  obtain ⟨_, v, hv, h⟩ := bind_ok h
  cases h
  obtain ⟨hread, hspan⟩ : Builds lossy true s [] u ∧ _ := jump_ok more hu
  have hafter : t = u.afterJump around (.continueOn span label) := by
    refine checkJump_ok agrees ?_ ?_ hv
    · rintro label rfl
      rfl
    · rintro rfl
      simp only [Statement.jumpProblem?, agrees.loops]
  rw [hafter]
  exact .jump hread rfl hspan

end Jumps

section Plain

/-- A call of the super constructor is reported, unless it may stand where it does. -/
theorem Rules.noteSuper_ok {c : Context} {span : Span} (h : noteSuper c span s = .ok () t) :
    t = s.afterSuper c.isConstructor span := by
  unfold noteSuper at h
  rw [get_bind] at h
  unfold ParserState.afterSuper
  cases hc : c.isConstructor <;> cases hs : s.superFound <;> rw [hc, hs] at h <;> cases h <;> rfl

/-- A statement out of an expression. -/
theorem Rules.expressionStatement_ok {around : Situation} {e : Expr} {statement : Statement}
    {ended : Bool} (he : ExprRead lossy s e u)
    (h : expressionStatement e u = .ok (statement, ended) t) :
    BuildsIn lossy k true s [.statement around statement] t := by
  unfold expressionStatement at h
  rw [he.mark] at h
  obtain ⟨ended, v, hv, h⟩ := bind_ok h
  cases h
  exact .whole (he.builds.close (endStatement_ok hv)) rfl ⟨rfl, trivial, trivial⟩

/-- How a block has called the super constructor does not show outside of it. -/
theorem Parse.freshSuper_ok {α : Type} {read : Parse α} {value : α}
    (h : freshSuper read s = .ok value t) :
    ∃ u, read { s with superFound := false } = .ok value u ∧
      t = { u with superFound := s.superFound } := by
  unfold freshSuper at h
  split at h
  · rename_i found u hu
    cases h
    exact ⟨u, hu, rfl⟩
  · cases h

theorem Rules.includedText_ok {r : Rules} {path text : String} {span : Span}
    (h : r.includedText path span s = .ok text t) : Checked lossy True s t := by
  unfold includedText at h
  cases hfile : r.readFile path with
  | some found =>
    rw [hfile] at h
    cases h
    exact .refl trivial _
  | none =>
    rw [hfile] at h
    obtain ⟨_, u, hu, h⟩ := bind_ok h
    cases h
    exact report_checked rfl hu (by decide)

theorem Rules.importParts_ok :
    ∀ {fuel : Nat} {parts : List Identifier} {ending : ImportEnd} {s t : ParserState},
      importParts fuel s = .ok (parts, ending) t →
      Builds lossy false s (parts.map .identifier) t
  | 0, _, _, _, _, h => (exhausted_ok h).elim
  | fuel + 1, parts, ending, s, t, h => by
    rcases bind_if lossy (proper_kind (by decide)) h with ⟨u, hu, -, h⟩ | h
    · rcases bind_if lossy (proper_operator _) h with ⟨v, hv, -, h⟩ | h
      · cases h
        exact (hu.builds.skip hv.builds).weaken
      rcases bind_if lossy (proper_operator _) h with ⟨v, hv, -, h⟩ | h
      · cases h
        exact (hu.builds.skip hv.builds).weaken
      obtain ⟨first, v, hv, h⟩ := bind_ok h
      obtain ⟨⟨rest, ending⟩, w, hw, h⟩ := bind_ok h
      cases h
      exact (hu.builds.skip ((wordIdentifier_ok hv).builds.seq (importParts_ok hw))).weaken
    · cases h
      exact .refl _

theorem Rules.importHead_ok {localName : Option Identifier} {first : Identifier}
    (h : importHead s = .ok (localName, first) t) :
    Builds lossy true s (localName.toList.map .identifier ++ [.identifier first]) t := by
  obtain ⟨id, u, hu, h⟩ := bind_ok h
  rw [at?_bind] at h
  split at h
  · cases h
    exact (identifier_ok hu).builds
  obtain ⟨v, hv, -, h⟩ := bind_expect lossy (proper_kind (by decide)) h
  obtain ⟨name, w, hw, h⟩ := bind_ok h
  rw [at?_bind] at h
  split at h
  · obtain ⟨_, x, hx, -⟩ := bind_ok h
    exact (unexpected_ok hx).elim
  · cases h
    exact (identifier_ok hu).builds.seq (hv.builds.skip (identifier_ok hw).builds)

end Plain

/-- A statement is read, or there is none and nothing is done. -/
def StatementRead (lossy : Prop) (k : Bool) (around : Situation) (s : ParserState)
    (found : Option Ended) (t : ParserState) : Prop :=
  match found with
  | some read => BuildsIn lossy k true s [.statement around read.1] t
  | none => t = s

/-- An item is spread in what is taken for decorators here. -/
def Rules.spreadsDecorators (r : Rules) (s : ParserState) : Bool :=
  let brackets : Parse (List Expr) := do
    let first ← r.exprRule {}
    r.moreBrackets r.rounds [first]
  match brackets s with
  | .ok all t => all.all isDecorators && Words.beginsDecorated t.token && all.any holdsSpread
  | .error .. => false

theorem Rules.spreadsDecorators_eq {r : Rules} {first : Expr} {all : List Expr}
    (hu : r.exprRule {} s = .ok first u) (ht : r.moreBrackets r.rounds [first] u = .ok all t) :
    r.spreadsDecorators s =
      (all.all isDecorators && Words.beginsDecorated t.token && all.any holdsSpread) := by
  unfold spreadsDecorators
  show (match EStateM.bind (r.exprRule {}) (fun first => r.moreBrackets r.rounds [first]) s with
    | .ok all t => _
    | .error .. => _) = _
  unfold EStateM.bind
  rw [hu]
  dsimp only
  rw [ht]

namespace Rules.Builder

variable {r : Rules} (R : r.Builder lossy)
include R

section Words

variable {around : Situation} {statement : Statement} {ended : Bool}
  (more : s.token.kind ≠ .endOfProgram)
include more

theorem superStatement_ok {c : Context} (h : r.superStatement c s = .ok (statement, ended) t) :
    BuildsIn lossy c.isConstructor true s [.statement around statement] t := by
  unfold superStatement at h
  rw [mark_bind] at h
  obtain ⟨u, hu, h⟩ := bind_next lossy more h
  rcases bind_if lossy (proper_kind (by decide)) h with ⟨v, hv, -, h⟩ | h
  · obtain ⟨arguments, w, hw, h⟩ := bind_ok h
    obtain ⟨ended, x, hx, h⟩ := bind_ok h
    rw [finish_bind] at h
    obtain ⟨_, y, hy, h⟩ := bind_ok h
    cases h
    obtain ⟨x', harguments, hclosed⟩ := R.argumentList_ok hw
    rw [noteSuper_ok hy]
    exact .superCall (hu.builds.skip (hv.builds.skip harguments))
      (hclosed.close (endStatement_ok hx))
  · rw [finish_bind] at h
    obtain ⟨e, v, hv, h⟩ := bind_ok h
    have hsuper : ExprRead lossy s (.super _) u := ⟨⟨.whole hu.builds
      rfl ⟨rfl, trivial, trivial⟩, rfl⟩, trivial⟩
    exact expressionStatement_ok (R.continued_ok hsuper hv) h

theorem importStatement_ok (h : r.importStatement s = .ok (statement, ended) t) :
    BuildsIn lossy k true s [.statement around statement] t := by
  unfold importStatement at h
  rw [mark_bind] at h
  obtain ⟨u, hu, h⟩ := bind_next lossy more h
  rcases bind_if lossy (proper_kind (by decide)) h with ⟨v, hv, -, h⟩ | h
  · obtain ⟨w, hw, -, h⟩ := bind_expect lossy (proper_contextKeyword _) h
    rw [finish_bind] at h
    obtain ⟨e, x, hx, h⟩ := bind_ok h
    have hread := hu.builds.skip (hv.builds.skip hw.builds)
    have hmeta : ExprRead lossy s (.importMeta _) w := ⟨⟨.whole hread
      rfl ⟨rfl, trivial, trivial⟩, rfl⟩, trivial⟩
    exact expressionStatement_ok (R.continued_ok hmeta hx) h
  obtain ⟨⟨localName, first⟩, v, hv, h⟩ := bind_ok h
  obtain ⟨⟨rest, ending⟩, w, hw, h⟩ := bind_ok h
  obtain ⟨ended, x, hx, h⟩ := bind_ok h
  cases h
  have hfirst : Builds lossy true _ _ _ := importHead_ok hv
  have hname := hfirst.seq ((importParts_ok hw).close (endStatement_ok hx))
  have hread := hu.builds.skip hname
  refine .whole ?_ rfl ⟨rfl, trivial, trivial⟩
  simpa [Piece.children, Statement.children] using hread

theorem returnStatement_ok (h : r.returnStatement s = .ok (statement, ended) t) :
    BuildsIn lossy k true s [.statement around statement] t := by
  unfold returnStatement at h
  rw [mark_bind] at h
  obtain ⟨u, hu, h⟩ := bind_next lossy more h
  obtain ⟨first, v, hv, h⟩ := bind_ok h
  rw [get_bind] at h
  obtain ⟨value, w, hw, h⟩ := bind_either h
  obtain ⟨ended, x, hx, h⟩ := bind_either h
  cases h
  have hvalue : Builds lossy false v (value.toList.map .expr) w := by
    rcases hw with ⟨-, hw⟩ | ⟨-, hw⟩
    · have hread := R.optExpr hw
      cases value with
      | some e => exact (ExprRead.toWhole hread).builds.weaken
      | none =>
        rw [hread]
        exact .refl _
    · cases hw
      exact .refl _
  have hended : Builds lossy false w [] t := by
    rcases hx with ⟨-, hx⟩ | ⟨-, hx⟩
    · exact endStatement_ok hx
    · cases hx
      exact .refl _
  exact .whole (hu.builds.skip ((endStatement_ok hv).skip (hvalue.close hended)))
    rfl ⟨rfl, trivial, trivial⟩

theorem throwStatement_ok (h : r.throwStatement s = .ok (statement, ended) t) :
    BuildsIn lossy k true s [.statement around statement] t := by
  unfold throwStatement at h
  rw [mark_bind] at h
  obtain ⟨u, hu, h⟩ := bind_next lossy more h
  obtain ⟨e, v, hv, h⟩ := bind_ok h
  obtain ⟨ended, w, hw, h⟩ := bind_ok h
  cases h
  exact .whole (hu.builds.skip ((R.expr_ok hv).builds.close (endStatement_ok hw)))
    rfl ⟨rfl, trivial, trivial⟩

end Words

section Blocks

variable {around : Situation} {c : Context} (agrees : around.Agrees c) {statement : Statement}
  {ended : Bool}
include agrees

theorem catchClause?_ok {found : Option CatchClause} (h : r.catchClause? c s = .ok found t) :
    Builds lossy false s (found.toList.map (.catchClause around)) t := by
  unfold catchClause? at h
  rw [atKeyword?_bind] at h
  split at h
  · cases h
    exact .refl _
  rename_i hword
  have more : s.token.kind ≠ .endOfProgram := by
    intro hend
    simp [Token.isKeyword, hend] at hword
  rw [mark_bind] at h
  obtain ⟨u, hu, h⟩ := bind_next lossy more h
  obtain ⟨v, hv, -, h⟩ := bind_expect lossy (proper_kind (by decide)) h
  obtain ⟨pattern, w, hw, h⟩ := bind_ok h
  obtain ⟨x, hx, -, h⟩ := bind_expect lossy (proper_kind (by decide)) h
  obtain ⟨block, y, hy, h⟩ := bind_ok h
  cases h
  have hclause := (R.pattern_ok hw).builds.seq (hx.builds.skip (R.block agrees.nested hy).builds)
  have hread : Builds lossy true s ([.pattern pattern] ++ [.block (around.inside .other) block]) t :=
    hu.builds.skip (hv.builds.skip hclause)
  exact (BuildsIn.whole (p := .catchClause around _) hread rfl ⟨rfl, trivial, trivial⟩).weaken

theorem tryStatement_ok (more : s.token.kind ≠ .endOfProgram)
    (h : r.tryStatement c s = .ok (statement, ended) t) :
    BuildsIn lossy k true s [.statement around statement] t := by
  unfold tryStatement at h
  rw [mark_bind] at h
  obtain ⟨u, hu, h⟩ := bind_next lossy more h
  obtain ⟨block, v, hv, h⟩ := bind_ok h
  obtain ⟨catches, w, hw, h⟩ := bind_ok h
  obtain ⟨found, x, hx, h⟩ := bind_ok h
  obtain ⟨last, y, hy, h⟩ := bind_either h
  dsimp only at h
  rw [finish_bind] at h
  obtain ⟨z, hz, h⟩ := bind_report lossy rfl h (by decide)
  cases h
  have hlast : Builds lossy false w (last.toList.map (.block (around.inside .other))) y := by
    rcases consumeIf_ok lossy (proper_keyword _) hx with ⟨rfl, -, hx⟩ | ⟨rfl, rfl⟩
    · rcases hy with ⟨-, hy⟩ | ⟨hne, -⟩
      · obtain ⟨b, hb, rfl⟩ := map_ok hy
        exact (hx.builds.skip (R.block agrees.nested hb).builds).weaken
      · exact (hne rfl).elim
    · rcases hy with ⟨hne, -⟩ | ⟨-, hy⟩
      · cases hne
      · cases hy
        exact .refl _
  have hcatches := collectWhile_each (fun h => R.catchClause?_ok agrees h) hw
  have hread := hu.builds.skip ((R.block agrees.nested hv).builds.seq (hcatches.seq hlast))
  exact .whole (hread.close hz.builds) (hz.span_to _) ⟨rfl, trivial, trivial⟩

theorem useStatement_ok (more : s.token.kind ≠ .endOfProgram)
    (h : r.useStatement c s = .ok (statement, ended) t) :
    BuildsIn lossy k true s [.statement around statement] t := by
  unfold useStatement at h
  rw [mark_bind] at h
  obtain ⟨u, hu, h⟩ := bind_next lossy more h
  rcases bind_if lossy (proper_contextKeyword _) h with ⟨v, hv, -, h⟩ | h
  · obtain ⟨w, hw, -, h⟩ := bind_expect lossy (proper_kind (by decide)) h
    obtain ⟨bindings, x, hx, h⟩ := bind_ok h
    obtain ⟨y, hy, -, h⟩ := bind_expect lossy (proper_kind (by decide)) h
    obtain ⟨block, z, hz, h⟩ := bind_ok h
    cases h
    have hbindings := (separatedUntil_each (fun h => (R.variableBinding_ok h).builds) hx).close hy.builds
    exact .whole (hu.builds.skip (hv.builds.skip (hw.builds.skip
      (hbindings.seq (R.block agrees.nested hz).builds)))) rfl ⟨rfl, trivial, trivial⟩
  obtain ⟨v, hv, -, h⟩ := bind_expect lossy (proper_contextKeyword _) h
  obtain ⟨e, w, hw, h⟩ := bind_ok h
  obtain ⟨ended, x, hx, h⟩ := bind_ok h
  cases h
  exact .whole (hu.builds.skip (hv.builds.skip ((R.expr_ok hw).builds.close (endStatement_ok hx))))
    rfl ⟨rfl, trivial, trivial⟩

theorem withStatement_ok (more : s.token.kind ≠ .endOfProgram)
    (h : r.withStatement c s = .ok (statement, ended) t) :
    BuildsIn lossy k true s [.statement around statement] t := by
  unfold withStatement at h
  rw [mark_bind] at h
  obtain ⟨u, hu, h⟩ := bind_next lossy more h
  obtain ⟨object, v, hv, h⟩ := bind_ok h
  obtain ⟨⟨body, whole⟩, w, hw, h⟩ := bind_ok h
  cases h
  exact .whole (hu.builds.skip ((R.headExpr_ok hv).seq (R.statement agrees.nested hw)))
    rfl ⟨rfl, trivial, trivial⟩

theorem blockStatements_ok :
    ∀ {fuel : Nat} {statements : List Statement} {s t : ParserState},
      r.blockStatements c fuel s = .ok statements t →
      BuildsIn lossy c.isConstructor false s (statements.map (.statement around)) t
  | 0, _, _, _, h => (exhausted_ok h).elim
  | fuel + 1, statements, s, t, h => by
    unfold blockStatements at h
    rw [at?_bind] at h
    split at h
    · cases h
      exact .refl _
    obtain ⟨⟨first, whole⟩, u, hu, h⟩ := bind_ok h
    have hfirst := R.statement agrees hu
    cases whole with
    | true =>
      obtain ⟨rest, v, hv, h⟩ := bind_ok h
      cases h
      exact (hfirst.seq (blockStatements_ok hv)).weaken
    | false =>
      cases h
      exact hfirst.weaken

theorem blockRule_ok {block : Block} (h : r.blockRule c s = .ok block t) :
    BlockRead lossy c.isConstructor around s block t := by
  obtain ⟨u, hread, rfl⟩ := freshSuper_ok h
  clear h
  rw [mark_bind] at hread
  obtain ⟨v, hv, -, hread⟩ := bind_expect lossy (proper_kind (by decide)) hread
  obtain ⟨statements, w, hw, hread⟩ := bind_ok hread
  obtain ⟨x, hx, -, hread⟩ := bind_expect lossy (proper_kind (by decide)) hread
  cases hread
  exact ⟨.block (hv.builds.skip ((R.blockStatements_ok agrees hw).close hx.builds)) rfl, rfl⟩

end Blocks

section Names

variable {around : Situation} {c : Context} (agrees : around.Agrees c) {statement : Statement}
  {ended : Bool}
include agrees

/-- The inclusion of a file, at the string that names it. -/
theorem includeStatement_ok {source : String} (hu : Builds lossy true s [] u)
    (more : u.token.kind ≠ .endOfProgram)
    (h : r.includeStatement c (Mark.ofSpan s.token.span) source u = .ok (statement, ended) t) :
    BuildsIn lossy k true s [.statement around statement] t := by
  unfold includeStatement at h
  obtain ⟨v, hv, h⟩ := bind_next lossy more h
  obtain ⟨ended, w, hw, h⟩ := bind_ok h
  rw [finish_bind, get_bind] at h
  obtain ⟨text, x, hx, h⟩ := bind_ok h
  obtain ⟨⟨child, statements⟩, y, hy, h⟩ := bind_ok h
  obtain ⟨_, z, hz, h⟩ := bind_ok h
  cases hz
  cases h
  have htext : Checked lossy True w x := includedText_ok hx
  obtain ⟨hlossy, d, a, first, inner, last, hbegins, hinside, rfl⟩ := R.included agrees hy
  have hspan : (Mark.ofSpan s.token.span).«to» w.previous.span =
      s.token.span.«to» x.previous.span := Option.some_inj.mp (htext.span_to s.token.span)
  have hread := hu.skip (hv.builds.skip ((endStatement_ok hw).skip htext.builds))
  rw [hspan]
  exact .included hlossy hread hbegins hinside

theorem labeledStatement_ok {label : String} (hu : Builds lossy true s [] u)
    (h : r.labeledStatement c (Mark.ofSpan s.token.span) label u = .ok (statement, ended) t) :
    BuildsIn lossy k true s [.statement around statement] t := by
  obtain ⟨⟨inner, whole⟩, v, hv, h⟩ := bind_ok h
  cases h
  exact .whole (hu.skip (R.statement (agrees.withLabel label) hv)) rfl ⟨rfl, trivial, trivial⟩

/-- A statement whose first token is a name. -/
theorem identifierStatement_ok (hu : Consumed lossy s u)
    (h : r.identifierStatement c (Mark.ofSpan s.token.span) u = .ok (statement, ended) t) :
    BuildsIn lossy k true s [.statement around statement] t := by
  unfold identifierStatement at h
  rw [previous_bind] at h
  rcases bind_if lossy (proper_kind (by decide)) h with ⟨v, hv, -, h⟩ | h
  · exact R.labeledStatement_ok agrees (hu.builds.skip hv.builds) h
  rw [get_bind] at h
  split at h
  · rename_i hinclude
    simp only [Bool.and_eq_true, beq_iff_eq] at hinclude
    exact R.includeStatement_ok agrees hu.builds (by simp [hinclude.1.2]) h
  split at h
  · exact R.definition_ok agrees (a := {}) hu.builds.weaken h
  dsimp only at h
  generalize (Words.modifier? u.previous).filter _ = found at h
  cases found with
  | some modifier =>
    exact R.modifiedDefinition_ok agrees (a := { modifiers := .insert .empty modifier }) hu.builds.weaken h
  | none =>
    obtain ⟨first, v, hv, h⟩ := bind_ok h
    obtain ⟨e, w, hw, h⟩ := bind_ok h
    exact expressionStatement_ok (R.continued_ok (R.identifierPrimary_ok hu hv) hw) h

end Names

section Brackets

theorem moreBrackets_ok :
    ∀ {fuel : Nat} {read all : List Expr} {s t : ParserState},
      r.moreBrackets fuel read s = .ok all t →
      ∃ new, all = read ++ new ∧ Builds lossy false s (new.map .expr) t ∧ (new = [] → t = s)
  | 0, _, _, _, _, h => (exhausted_ok h).elim
  | fuel + 1, read, all, s, t, h => by
    unfold moreBrackets at h
    rw [get_bind] at h
    split at h
    · obtain ⟨e, u, hu, h⟩ := bind_ok h
      obtain ⟨new, rfl, hnew, -⟩ := moreBrackets_ok h
      exact ⟨e :: new, by simp, ((R.expr_ok hu).builds.seq hnew).weaken, nofun⟩
    · cases h
      exact ⟨[], by simp, .refl _, fun _ => rfl⟩

omit R in
/-- What stands in the brackets is taken for decorators. Spread items are none, and get lost. -/
theorem decorators_ok {all : List Expr} (hu : Builds lossy true s (all.map .expr) u)
    (hall : all.all isDecorators = true)
    (hspread : lossy ∨ ∀ e ∈ all, holdsSpread e = false) :
    Builds lossy true s ((all.flatMap decoratorsOf).map .expr) u := by
  have hbrackets : Reworks (all.map .expr) ((all.flatMap bracketed).map .expr) := by
    clear hu hspread
    induction all with
    | nil => exact .refl _
    | cons e rest ih =>
      rw [List.all_cons, Bool.and_eq_true] at hall
      rw [List.flatMap_cons, List.map_append]
      have hfirst : Reworks [.expr e] ((bracketed e).map .expr) := .bracketed hall.1
      exact hfirst.append (ih hall.2)
  have hread := hu.rework hbrackets
  rcases hspread with hlossy | hnone
  · refine hread.lose (List.map_subset _ fun e he => ?_) (Or.inl hlossy)
    obtain ⟨base, hbase, he⟩ := List.mem_flatMap.mp he
    exact List.mem_flatMap.mpr ⟨base, hbase, decoratorsOf_subset base he⟩
  · have hsame : all.flatMap decoratorsOf = all.flatMap bracketed :=
      List.flatMap_congr fun e he => decoratorsOf_eq (hnone e he)
    rwa [hsame]

variable {around : Situation} {c : Context} (agrees : around.Agrees c) {statement : Statement}
  {ended : Bool}
include agrees

theorem bracketStatement_ok (hspread : lossy ∨ r.spreadsDecorators s = false)
    (h : r.bracketStatement c (Mark.ofSpan s.token.span) s = .ok (statement, ended) t) :
    BuildsIn lossy k true s [.statement around statement] t := by
  obtain ⟨first, u, hu, h⟩ := bind_ok h
  obtain ⟨all, v, hv, h⟩ := bind_ok h
  have hfirst := R.exprRule_ok hu
  obtain ⟨new, rfl, hnew, hsame⟩ := R.moreBrackets_ok hv
  have hread := hfirst.builds.seq hnew
  rw [token_bind] at h
  split at h
  · rename_i hdecorators
    rw [Bool.and_eq_true] at hdecorators
    have hnone : lossy ∨ ∀ e ∈ [first] ++ new, holdsSpread e = false := by
      refine hspread.imp id fun hunspread => ?_
      rw [spreadsDecorators_eq hu hv, hdecorators.1, hdecorators.2] at hunspread
      simpa using hunspread
    have hall : Builds lossy true s (([first] ++ new).map .expr) v := hread
    refine R.modifiedDefinition_ok agrees ?_ h
    exact (decorators_ok hall hdecorators.1 hnone).weaken
  · cases new with
    | nil =>
      rw [hsame rfl] at h
      exact expressionStatement_ok hfirst h
    | cons second rest =>
      dsimp only [List.cons_append, List.nil_append] at h
      rw [finish_bind] at h
      have hlist : ExprRead lossy s (.list _ (first :: second :: rest)) v :=
        ⟨⟨.whole hread rfl ⟨rfl, trivial, trivial⟩, rfl⟩, trivial⟩
      exact expressionStatement_ok hlist h

end Brackets

section Rules

variable {around : Situation} {c : Context} (agrees : around.Agrees c) {statement : Statement}
  {ended : Bool}
include agrees

omit agrees in
theorem optExpressionStatement_ok {found : Option Ended}
    (h : r.optExpressionStatement s = .ok found t) : StatementRead lossy k around s found t := by
  obtain ⟨read, u, hu, hgo⟩ := bind_ok h
  have hread := R.optExprRule_ok hu
  cases read with
  | some e =>
    obtain ⟨⟨statement, ended⟩, v, hv, hdone⟩ := bind_ok hgo
    cases hdone
    exact expressionStatement_ok hread hv
  | none =>
    cases hgo
    exact hread

theorem keywordStatement_ok {found : Option Ended} (more : s.token.kind ≠ .endOfProgram)
    (h : r.keywordStatement c (Mark.ofSpan s.token.span) s.token s = .ok found t) :
    StatementRead lossy c.isConstructor around s found t := by
  have taken : ∀ {x : Parse Ended}, (∀ {statement ended}, x s = .ok (statement, ended) t →
      BuildsIn lossy c.isConstructor true s [.statement around statement] t) → (some <$> x) s = .ok found t →
      StatementRead lossy c.isConstructor around s found t := by
    intro x hx h
    obtain ⟨⟨statement, ended⟩, hread, rfl⟩ := map_ok h
    exact hx hread
  unfold keywordStatement at h
  revert h
  generalize s.token.text = word
  split
  · exact taken (R.superStatement_ok more)
  · exact taken (R.importStatement_ok more)
  · exact taken (R.ifStatement_ok agrees more)
  · exact taken (R.doStatement_ok agrees more)
  · exact taken (R.whileStatement_ok agrees more)
  · exact taken (breakStatement_ok agrees more)
  · exact taken (continueStatement_ok agrees more)
  · exact taken (R.returnStatement_ok more)
  · exact taken (R.throwStatement_ok more)
  · exact taken (R.tryStatement_ok agrees more)
  · exact taken (R.forStatement_ok agrees more)
  · exact taken (R.switchStatement_ok agrees more)
  · exact taken (R.useStatement_ok agrees more)
  · exact taken (R.withStatement_ok agrees more)
  · split
    · exact taken (R.modifiedDefinition_ok agrees (a := {}) (.refl s))
    · exact R.optExpressionStatement_ok

theorem optStatement_ok {found : Option Ended}
    (hspread : lossy ∨ (s.token.kind = .leftBracket → r.spreadsDecorators s = false))
    (h : r.optStatement c s = .ok found t) : StatementRead lossy c.isConstructor around s found t := by
  unfold optStatement at h
  rw [mark_bind, token_bind] at h
  cases hkind : s.token.kind with
  | keyword =>
    rw [hkind] at h
    exact R.keywordStatement_ok agrees (by simp [hkind]) h
  | identifier =>
    rw [hkind] at h
    obtain ⟨u, hu, h⟩ := bind_next lossy (by simp [hkind]) h
    obtain ⟨⟨statement, ended⟩, hread, rfl⟩ := map_ok h
    exact R.identifierStatement_ok agrees hu hread
  | leftBrace =>
    rw [hkind] at h
    obtain ⟨block, u, hu, h⟩ := bind_ok h
    cases h
    have hblock := R.blockRule_ok agrees.nested hu
    exact BuildsIn.whole (p := .statement around (.block block)) hblock.builds (congrArg some hblock.ends)
      ⟨rfl, trivial, trivial⟩
  | semicolon =>
    rw [hkind] at h
    obtain ⟨u, hu, h⟩ := bind_next lossy (by simp [hkind]) h
    cases h
    exact BuildsIn.whole (p := .statement around (.empty s.token.span)) hu.builds
      (by rw [hu.previous]; rfl) ⟨rfl, trivial, trivial⟩
  | leftBracket =>
    rw [hkind] at h
    obtain ⟨⟨statement, ended⟩, hread, rfl⟩ := map_ok h
    exact R.bracketStatement_ok agrees (hspread.imp id fun hunspread => hunspread hkind) hread
  | _ =>
    rw [hkind] at h
    exact R.optExpressionStatement_ok h

theorem statementRule_ok (hspread : lossy ∨ (s.token.kind = .leftBracket → r.spreadsDecorators s = false))
    (h : r.statementRule c s = .ok (statement, ended) t) :
    BuildsIn lossy c.isConstructor true s [.statement around statement] t := by
  obtain ⟨found, u, hu, h⟩ := bind_ok h
  have hfound := R.optStatement_ok agrees hspread hu
  cases found with
  | some found =>
    cases h
    exact hfound
  | none => exact (unexpected_ok h).elim

end Rules

end Rules.Builder

end ActionSyntax
