import ActionSyntax.Proofs.Building.Levels
import ActionSyntax.Proofs.Reporting
import ActionSyntax.Proofs.Respacing.Scanning
import ActionSyntax.Proofs.Respacing.Statements

/-!
Calls of entry points on texts that differ in a gap between two tokens. The rules of every level read alike
where a gap is exchanged, and so do the entry points: blanks and comments within a line may be exchanged for
others, and the answers agree but for places, as do the problems that are found.
-/

namespace ActionSyntax

set_option autoImplicit false

open Parse Rules Utf8
open Relation (TransGen)

section Levels

variable {F : Fork} {readFile : String → Option String} {included : IncludeRule}

namespace Fork

variable {c s t : ParserState}

theorem before_note (h : F.before c s t) (functions : List FunctionUse) (superFound : Bool) :
    F.before { c with functions, superFound } { s with functions, superFound }
      { t with functions, superFound } :=
  F.before_superFound (F.before_functions h functions) superFound

theorem beyond_note (h : F.beyond s t) (functions : List FunctionUse) (superFound : Bool) :
    F.beyond { s with functions, superFound } { t with functions, superFound } :=
  F.beyond_superFound (F.beyond_functions h functions) superFound

theorem astray_note (h : F.astray c) (functions : List FunctionUse) (superFound : Bool) :
    F.astray { c with functions, superFound } :=
  F.astray_superFound (F.astray_functions h functions) superFound

end Fork

theorem includeScript_respaces (r : Rules) (context : Context) (script : Script) :
    Respaces F Eq (r.includeScript context script) (r.includeScript context script) := by
  unfold includeScript
  refine ⟨fun {c s t} hcst => ?_, fun {s t} hst => ?_, fun {c} hc => ?_⟩
  · obtain ⟨hview, hlike⟩ := F.before_view hcst
    have hfunctions : c.functions = s.functions := congrArg View.functions hview
    have hsuper : c.superFound = s.superFound := congrArg View.superFound hview
    have hfunctions' : s.functions = t.functions := hlike.functions
    have hsuper' : s.superFound = t.superFound := hlike.superFound
    rw [hfunctions, hsuper, ← hfunctions', ← hsuper']
    generalize includedOutcome r context _ = outcome
    have hafter := F.before_note hcst outcome.state.functions outcome.state.superFound
    dsimp only
    split
    · exact .astray (.stopped (F.before_short hafter))
    · exact .kept rfl hafter
  · have hlike := F.beyond_view hst
    have hfunctions : s.functions = t.functions := hlike.functions
    have hsuper : s.superFound = t.superFound := hlike.superFound
    rw [← hfunctions, ← hsuper]
    generalize includedOutcome r context _ = outcome
    have hafter := F.beyond_note hst outcome.state.functions outcome.state.superFound
    dsimp only
    split
    · exact .stopped rfl (F.beyond_alike hafter)
    · exact .ok rfl hafter
  · generalize includedOutcome r context _ = outcome
    have hafter := F.astray_note hc outcome.state.functions outcome.state.superFound
    dsimp only
    split
    · exact .stopped (F.astray_short hafter)
    · exact .ok hafter

theorem skimAt_respaces (depth : Nat) (context : Context) (script : Script) :
    Respaces F Eq (skimAt readFile depth context script) (skimAt readFile depth context script) := by
  cases depth with
  | zero => exact .pure rfl
  | succ depth => exact includeScript_respaces _ context script

theorem level_respaces (hincluded : ∀ context script,
    Respaces F Eq (included context script) (included context script)) :
    ∀ n, RulesRespace F (level readFile included n)
  | 0 => {
      typeExpr := exhausted_respaces
      optExpr := fun _ => exhausted_respaces
      optPrimary := fun _ _ => exhausted_respaces
      node := exhausted_respaces
      block := fun _ => exhausted_respaces
      statement := fun _ => exhausted_respaces
      included := hincluded }
  | n + 1 =>
    have h := level_respaces hincluded n
    { typeExpr := h.typeExprRule_respaces
      optExpr := h.optExprRule_respaces
      optPrimary := h.optPrimaryRule_respaces
      node := h.nodeRule_respaces false
      block := h.blockRule_respaces
      statement := h.statementRule_respaces
      included := h.included }

section Trees

@[simp] def Tree.bare : Tree → Tree
  | .program p => .program p.bare
  | .statement s => .statement s.bare
  | .expression e => .expression e.bare
  | .type t => .type t.bare

instance : Bare Tree := ⟨Tree.bare⟩

@[simp] theorem bare_tree : (bare : Tree → Tree) = Tree.bare := rfl

end Trees

namespace Entry

variable {r : Rules}

theorem construct_respaces (h : RulesRespace F r) (entry : Entry) :
    Respaces F Matches (entry.construct r) (entry.construct r) := by
  cases entry with
  | program => exact h.program_respaces.map (fun a => ⟨a, .refl a⟩) fun p q hpq => by simp_all
  | statement =>
    refine .map (R := Matches) (α := Statement) ?_ (fun a => ⟨a, .refl a⟩) fun p q hpq => by simp_all
    exact .matched (h.statementRule_respaces {}) fun found found' hfound =>
      .pure (congrArg Prod.fst hfound)
  | expression allowIn level =>
    exact (h.exprRule_respaces _).map (fun a => ⟨a, .refl a⟩) fun p q hpq => by simp_all
  | type => exact h.typeExprRule_respaces.map (fun a => ⟨a, .refl a⟩) fun p q hpq => by simp_all

theorem read_respaces (h : RulesRespace F r) (entry : Entry) :
    Respaces F Matches (entry.read r) (entry.read r) :=
  .matched (entry.construct_respaces h) fun _ _ htree =>
    .seq expectEnd_respaces fun _ => .pure htree

end Entry

end Levels

namespace Entry

/-- What is read from an entry point on, the first token included. -/
def readFirst (entry : Entry) (r : Rules) : Parse Tree := Parse.scan Scanner.next >>= fun _ => entry.read r

theorem readFirst_apply (entry : Entry) (r : Rules) (s : ParserState) :
    entry.readFirst r s = match s.scanner.next.1 with
      | .ok () => entry.read r s.scanned
      | .error p => .error (.problem p) s.scanned := by
  unfold readFirst
  rw [Respaces.bind_apply, scan_apply]
  cases s.scanner.next.1 <;> rfl

section Skimming

variable {readFile : String → Option String} {depth : Nat} {path source : String} {entry : Entry}

theorem scanned_valid {path source : String}
    (h : (ParserState.ofScript (Script.ofSource path source)).scanner.next.1 = .ok ()) :
    (ParserState.ofScript (Script.ofSource path source)).scanned.script.isValid = true :=
  (Scanner.next_keeps (Prod.ext h rfl)).2.2

/-- A text is skimmed in the same way on any level above its own. -/
theorem readFirst_deepens {n : Nat} (hle : levelFor (Script.ofSource path source) ≤ n) :
    entry.readFirst (level readFile (skimAt readFile depth) (levelFor (Script.ofSource path source)))
        (ParserState.ofScript (Script.ofSource path source)) =
      entry.readFirst (level readFile (skimAt readFile depth) n)
        (ParserState.ofScript (Script.ofSource path source)) := by
  rw [readFirst_apply, readFirst_apply]
  cases hscan : (ParserState.ofScript (Script.ofSource path source)).scanner.next.1 with
  | error p => rfl
  | ok _ =>
    have hsound := ((Walk.scan (.refl _)).sound (.ofSource path source)).1
    have halike : Alike (fun _ => True) (level readFile (skimAt readFile depth)
        (levelFor (Script.ofSource path source))) (level readFile (skimAt readFile depth) n) :=
      level_deepens (skimAt_inserting depth) hle
    refine (entry.read_follows halike _ hsound nofun).agree.resolve_right fun ⟨⟨t, ht⟩, _⟩ => ?_
    exact (entry.skimmed_ends readFile depth (scanned_valid hscan) t ht).elim

/-- A text is read as it is skimmed, unless the reading uses up the depth of inclusions. It does only where
a script is included that does. -/
theorem readFirst_skimAt (entry : Entry) (readFile : String → Option String) (depth : Nat)
    (path source : String) :
    let script := Script.ofSource path source
    let skimmed := entry.readFirst (level readFile (skimAt readFile depth) (levelFor script))
      (ParserState.ofScript script)
    let read := entry.readFirst (level readFile (includeAt readFile depth) (levelFor script))
      (ParserState.ofScript script)
    read = skimmed ∨ (∃ t, read = .error .exhausted t) ∧
      ∃ child, (lastState skimmed).Took child ∧ GivesUp readFile depth child := by
  dsimp only
  rw [readFirst_apply, readFirst_apply]
  cases (ParserState.ofScript (Script.ofSource path source)).scanner.next.1 with
  | error p => exact Or.inl rfl
  | ok _ =>
    have hsound := ((Walk.scan (.refl _)).sound (.ofSource path source)).1
    have halike : Alike (Refusing readFile depth) (level readFile (includeAt readFile depth)
        (levelFor (Script.ofSource path source))) _ :=
      level_alike (includeAt_skimAt depth depth (Nat.le_refl depth)) _
    exact (entry.read_follows halike _ hsound nofun).agree.imp_right fun ⟨hup, hrefuses⟩ =>
      ⟨hup, hrefuses.took⟩

/-- What a text includes does not go too deep where scripts are finitely many and do not include themselves. -/
theorem readFirst_shallow
    (hfinite : {child | entry.ComesTo readFile (Script.ofSource path source) child}.Finite)
    (hacyclic : ∀ child, entry.ComesTo readFile (Script.ofSource path source) child →
      ¬ TransGen (ActionSyntax.Enters readFile) child child)
    (hdepth : hfinite.toFinset.card ≤ depth) {child : Script}
    (htook : (lastState (entry.readFirst (level readFile (skimAt readFile depth)
      (levelFor (Script.ofSource path source)))
        (ParserState.ofScript (Script.ofSource path source)))).Took child) :
    ¬ GivesUp readFile depth child := by
  intro hup
  obtain ⟨path', source', rfl⟩ : ∃ path source, child = Script.ofSource path source := by
    obtain ⟨found, _, rfl⟩ := htook
    exact ⟨_, _, rfl⟩
  rw [readFirst_apply] at htook
  cases hscan : (ParserState.ofScript (Script.ofSource path source)).scanner.next.1 with
  | error p =>
    obtain ⟨found, hfound, -⟩ := htook
    rw [hscan] at hfound
    have hnone : (ParserState.ofScript (Script.ofSource path source)).scanned.script.included = [] :=
      Scanner.next_included _
    rw [show lastState _ = (ParserState.ofScript (Script.ofSource path source)).scanned from rfl, hnone]
      at hfound
    cases hfound
  | ok _ =>
    rw [hscan] at htook
    have hcomes : entry.ComesTo readFile (Script.ofSource path source) (Script.ofSource path' source') :=
      ⟨_, ⟨depth, htook⟩, .refl⟩
    have hclosed : ∀ script ∈ {child | entry.ComesTo readFile (Script.ofSource path source) child},
        ∀ child, ActionSyntax.Enters readFile script child →
          child ∈ {child | entry.ComesTo readFile (Script.ofSource path source) child} :=
      fun _ ⟨first, hfirst, hpath⟩ _ hchild => ⟨first, hfirst, hpath.tail hchild⟩
    have hlt := GivesUp.length_le hfinite hclosed hacyclic depth path' source' [] hcomes nofun
      List.nodup_nil hup
    simp at hlt
    omega

end Skimming

/-- The entry point passes the gap between two tokens that it takes. A reading looks no further than at the
current token, so up to there it does not depend on what stands behind the gap: of the text that ends with
the gap, the end comes next when the token in front of the gap is the last one that has been taken. Scripts
that are included deeper than the host allows are not read for that. -/
def PassesGap (entry : Entry) (host : Host) (path : String) (front gap : List Char) : Prop :=
  let script := Script.ofSource path (String.ofList (front ++ gap))
  let last := lastState (entry.readFirst
    (level host.readFile (skimAt host.readFile host.includeDepth) (levelFor script))
      (ParserState.ofScript script))
  last.token.kind = .endOfProgram ∧ last.previous.span.stop = byteLength front

end Entry

namespace Parser

variable {host : Host} {path source : String} {entry : Entry}

/-- The first token makes no difference to the rules. -/
theorem ofHost_scanned (host : Host) (path source : String) :
    ofHost host (ParserState.ofScript (Script.ofSource path source)).scanned.script =
      ofHost host (Script.ofSource path source) := by
  unfold ofHost levelFor
  rw [show (ParserState.ofScript (Script.ofSource path source)).scanned.script.content = _ from
    Scanner.next_content _]
  rfl

/-- What a call answers with when its reading has come to an end. -/
def answer : EStateM.Result Stop ParserState Tree → Option Tree
  | .ok tree t => if t.script.isValid then some tree else none
  | .error _ _ => none

/-- A call on a text that has not been read before. -/
theorem call_ofSource (host : Host) (path source : String) (entry : Entry) :
    let read := entry.readFirst (ofHost host (Script.ofSource path source))
      (ParserState.ofScript (Script.ofSource path source))
    (ofScript host (Script.ofSource path source)).call entry = (answer read, ⟨host, lastState read⟩) := by
  dsimp only
  let first := (ParserState.ofScript (Script.ofSource path source)).scanned
  have hparser : ofScript host (Script.ofSource path source) = ⟨host, first⟩ :=
    congrArg (Parser.mk host) (ofScript_state host _)
  rw [hparser, call_eq, Entry.readFirst_apply]
  show (if first.script.isValid then _ else _) = _
  cases hscan : (ParserState.ofScript (Script.ofSource path source)).scanner.next.1 with
  | error p =>
    have hinvalid : first.script.isValid = false := by
      rw [Bool.eq_false_iff]
      intro hvalid
      have hfirst : (ofScript host (Script.ofSource path source)).script.isValid = true := by
        rw [hparser]
        exact hvalid
      rw [ofScript_next hfirst] at hscan
      cases hscan
    rw [hinvalid]
    rfl
  | ok _ =>
    rw [Entry.scanned_valid hscan, if_pos rfl]
    have hread : entry.read (ofHost host (Parser.script ⟨host, first⟩)) first =
        entry.read (ofHost host (Script.ofSource path source)) first :=
      congrArg (fun rules => entry.read rules first) (ofHost_scanned host path source)
    rw [hread]
    dsimp only
    cases entry.read (ofHost host (Script.ofSource path source)) first <;> rfl

end Parser

namespace Respacing

section Outcomes

variable {x : Respacing} {α β : Type} {goes : α → β → Prop} {p q : EStateM.Result Stop ParserState α}
  {r : EStateM.Result Stop ParserState β}

/-- A text that has been read to its end in front of the gap, and all tokens with it, has been read behind
the gap in the other two. -/
theorem ends_of_arrived (h : PartAlike x.Before x.Beyond x.Astray x.Arrived goes p q r)
    (harrived : x.Arrived (lastState p)) : EndAlike x.Beyond goes q r := by
  cases h with
  | kept value close => exact absurd harrived close.short
  | past ends => exact ends
  | astray gone =>
    cases gone with
    | ok gone => exact absurd harrived gone.short
    | stopped short => exact absurd harrived short

theorem scripts_alike (h : EndAlike x.Beyond goes q r) :
    (lastState q).script.Alike (lastState r).script := by
  cases h with
  | ok value close => exact close.alike
  | stopped same scripts => exact scripts

theorem answers_match {q r : EStateM.Result Stop ParserState Tree} (h : EndAlike x.Beyond Matches q r) :
    Matches (Parser.answer q) (Parser.answer r) := by
  cases h with
  | stopped same scripts => rfl
  | @ok tree tree' s t value close =>
    have hvalid : s.script.isValid = t.script.isValid := close.alike.valid
    unfold Parser.answer
    dsimp only
    rw [← hvalid]
    cases s.script.isValid
    · rfl
    · exact congrArg some value

end Outcomes

variable (x : Respacing)

/-- The beginning of a text that goes on. -/
theorem ofScript_append (path : String) (text tail : List Char) :
    ParserState.ofScript (Script.ofSource path (String.ofList (text ++ tail))) =
      (ParserState.ofScript (Script.ofSource path (String.ofList text))).before tail := by
  simp [ParserState.ofScript, ParserState.before, Scanner.ofScript, Script.ofSource, Cursor.ofContent,
    Cursor.before]

/-- The three texts are read alike from their beginning on. -/
theorem readings (path : String) {r : Rules} (hr : RulesRespace x.fork r) (entry : Entry) :
    PartAlike x.Before x.Beyond x.Astray x.Arrived Matches
      (entry.readFirst r (ParserState.ofScript (Script.ofSource path (String.ofList x.cut))))
      (entry.readFirst r (ParserState.ofScript (Script.ofSource path (String.ofList x.whole))))
      (entry.readFirst r (ParserState.ofScript (Script.ofSource path (String.ofList x.respaced)))) := by
  let first := ParserState.ofScript (Script.ofSource path (String.ofList x.front))
  have hfirst : x.Reading [] first :=
    ⟨⟨.ofSource _ _, String.toList_ofList, Or.inl rfl⟩, rfl⟩
  have hscan := hfirst.next (show Matches first.script.problems.toList (#[] : Array Problem).toList from rfl)
  have hread := entry.read_respaces hr
  unfold Entry.readFirst cut whole respaced
  rw [ofScript_append, ofScript_append, ofScript_append, Respaces.bind_apply, Respaces.bind_apply,
    Respaces.bind_apply]
  exact Respaces.partAlike_onward (F := x.fork) hscan (fun _ _ _ => hread) fun _ _ hc => hread.astray hc

end Respacing

section Calls

variable {host : Host} {path : String} {entry : Entry}

/-- How a call skims a text. -/
def Entry.skimmed (entry : Entry) (host : Host) (path : String) (text : List Char) :
    EStateM.Result Stop ParserState Tree :=
  let script := Script.ofSource path (String.ofList text)
  entry.readFirst (level host.readFile (skimAt host.readFile host.includeDepth) (levelFor script))
    (ParserState.ofScript script)

/-- Where the gap is passed, the texts are skimmed alike. -/
theorem Respacing.skims_alike (x : Respacing) (hpasses : entry.PassesGap host path x.front x.gap) :
    EndAlike x.Beyond Matches (entry.skimmed host path x.whole) (entry.skimmed host path x.respaced) := by
  let n (text : List Char) := levelFor (Script.ofSource path (String.ofList text))
  let first (text : List Char) := ParserState.ofScript (Script.ofSource path (String.ofList text))
  -- The texts are not equally long, but on one level for all they are read by the same rules.
  obtain ⟨deep, hcut, hwhole, hrespaced⟩ : ∃ deep, n x.cut ≤ deep ∧ n x.whole ≤ deep ∧ n x.respaced ≤ deep :=
    ⟨n x.cut + n x.whole + n x.respaced, by omega, by omega, by omega⟩
  have hlevel : ∀ text, n text ≤ deep → entry.skimmed host path text =
      entry.readFirst (Rules.level host.readFile (skimAt host.readFile host.includeDepth) deep)
        (first text) :=
    fun text hle => Entry.readFirst_deepens hle
  have hrules : RulesRespace x.fork
      (Rules.level host.readFile (skimAt host.readFile host.includeDepth) deep) :=
    level_respaces (skimAt_respaces _) deep
  rw [hlevel _ hwhole, hlevel _ hrespaced]
  refine Respacing.ends_of_arrived (x.readings path hrules entry) ?_
  have harrived : x.Arrived (lastState (entry.skimmed host path x.cut)) := hpasses
  rwa [hlevel _ hcut] at harrived

/-- Where the gap is passed and the inclusions come to an end, the texts are read alike. -/
theorem Respacing.reads_alike (x : Respacing) (hpasses : entry.PassesGap host path x.front x.gap)
    (hfinite : {child | entry.ComesTo host.readFile
      (Script.ofSource path (String.ofList x.whole)) child}.Finite)
    (hacyclic : ∀ child, entry.ComesTo host.readFile
      (Script.ofSource path (String.ofList x.whole)) child → ¬ TransGen (Enters host.readFile) child child)
    (hdepth : hfinite.toFinset.card ≤ host.includeDepth) :
    let read (text : List Char) :=
      let script := Script.ofSource path (String.ofList text)
      entry.readFirst (ofHost host script) (ParserState.ofScript script)
    EndAlike x.Beyond Matches (read x.whole) (read x.respaced) := by
  intro read
  have hskims := x.skims_alike hpasses
  -- Neither text includes a script that goes too deep.
  have hshallow : ∀ child, (lastState (entry.skimmed host path x.whole)).Took child →
      ¬ GivesUp host.readFile host.includeDepth child :=
    fun child => Entry.readFirst_shallow hfinite hacyclic hdepth
  have hincluded := (Respacing.scripts_alike hskims).included
  have hwhole : read x.whole = entry.skimmed host path x.whole :=
    (entry.readFirst_skimAt host.readFile host.includeDepth path _).resolve_right
      fun ⟨_, child, htook, hup⟩ => hshallow child htook hup
  have hrespaced : read x.respaced = entry.skimmed host path x.respaced := by
    refine (entry.readFirst_skimAt host.readFile host.includeDepth path _).resolve_right ?_
    rintro ⟨-, child, ⟨found, hfound, hchild⟩, hup⟩
    exact hshallow child ⟨found, hincluded ▸ hfound, hchild⟩ hup
  rw [hwhole, hrespaced]
  exact hskims

/-- Between two tokens on a line, blanks and comments may be exchanged for others. Whatever the text, the entry
point and the gap that it passes, and whatever stands in its place, as long as it is a gap within the line and
begins with a blank: both calls answer, with trees that differ in places only, or neither does, and they find
the same problems in the same order, but for places, and include the same. Only the lines of tokens, their
lengths and the indentation of lines take part in the grammar, and none of them is changed. -/
theorem call_respaced (x : Respacing) (hpasses : entry.PassesGap host path x.front x.gap)
    (hfinite : {child | entry.ComesTo host.readFile
      (Script.ofSource path (String.ofList x.whole)) child}.Finite)
    (hacyclic : ∀ child, entry.ComesTo host.readFile
      (Script.ofSource path (String.ofList x.whole)) child → ¬ TransGen (Enters host.readFile) child child)
    (hdepth : hfinite.toFinset.card ≤ host.includeDepth) :
    let p := (Parser.ofScript host (Script.ofSource path (String.ofList x.whole))).call entry
    let q := (Parser.ofScript host (Script.ofSource path (String.ofList x.respaced))).call entry
    Matches p.1 q.1 ∧ Matches p.2.script.problems.toList q.2.script.problems.toList ∧
      p.2.script.included = q.2.script.included := by
  have hends := x.reads_alike hpasses hfinite hacyclic hdepth
  have hscripts := Respacing.scripts_alike hends
  dsimp only
  rw [Parser.call_ofSource, Parser.call_ofSource]
  exact ⟨Respacing.answers_match hends, hscripts.problems, hscripts.included⟩

/-- Where a reading that may not go into inclusions comes to its end, it comes to no other script. -/
theorem Entry.not_comesTo {readFile : String → Option String} {path source : String} {child : Script}
    (h : (match entry.read (level readFile (includeAt readFile 0) (levelFor (Script.ofSource path source)))
        (ParserState.ofScript (Script.ofSource path source)).scanned with
      | .ok _ t => t.script.included.isEmpty
      | .error _ _ => false) = true) : ¬ entry.ComesTo readFile (Script.ofSource path source) child := by
  rintro ⟨_, ⟨depth, found, hfound, -⟩, -⟩
  have halike : Alike (Refusing readFile 0) (level readFile (includeAt readFile 0)
      (levelFor (Script.ofSource path source))) _ :=
    level_alike (includeAt_skimAt 0 depth (Nat.zero_le depth)) _
  have hsound := ((Walk.scan (.refl _)).sound (.ofSource path source)).1
  obtain heq | ⟨⟨t, ht⟩, -⟩ := (entry.read_follows halike _ hsound nofun).agree
  · rw [← heq] at hfound
    cases hread : entry.read (level readFile (includeAt readFile 0)
        (levelFor (Script.ofSource path source))) (ParserState.ofScript (Script.ofSource path source)).scanned with
    | error stop t =>
      rw [hread] at h
      cases h
    | ok tree t =>
      rw [hread] at h hfound
      have hnone : t.script.included = [] := List.isEmpty_iff.mp h
      rw [show lastState (.ok tree t) = t from rfl, hnone] at hfound
      cases hfound
  · rw [ht] at h
    cases h

/-- A gap before an operator, and one with a comment in it. -/
theorem call_respaced_operator :
    let host := Host.ofFiles []
    let p := (Parser.ofScript host (Script.ofSource "/m.es" "a  + 1")).call .program
    let q := (Parser.ofScript host (Script.ofSource "/m.es" "a /* b */\t+ 1")).call .program
    Entry.program.PassesGap host "/m.es" ['a'] [' ', ' '] ∧ p.1.isSome = true ∧
      Matches p.1 q.1 ∧ Matches p.2.script.problems.toList q.2.script.problems.toList ∧
      p.2.script.included = q.2.script.included := by
  intro host p q
  have hpasses : Entry.program.PassesGap host "/m.es" ['a'] [' ', ' '] := by
    unfold Entry.PassesGap
    decide +kernel
  have hgap : Gap ['a'] [' ', ' '] [] ['+', ' ', '1'] := .blank (by decide) (.blank (by decide) (.nil _ _))
  have hother : Padding (' ' :: (CommentForm.block.written [' ', 'b', ' '] ++ ['\t'])) :=
    .blank (by decide) (.comment
      (.char (by decide) (by decide) (.char (by decide) (by decide) (.char (by decide) (by decide) .nil)))
      (by decide) (.blank (by decide) .nil))
  obtain ⟨x, hfront, hgap, hother, hback⟩ :=
    hother.respacing ⟨_, _, rfl, by decide⟩ (by decide) hgap (by decide) (by decide)
  have hwhole : String.ofList x.whole = "a  + 1" := by
    unfold Respacing.whole
    rw [hfront, hgap, hback]
    rfl
  have hrespaced : String.ofList x.respaced = "a /* b */\t+ 1" := by
    unfold Respacing.respaced
    rw [hfront, hother, hback]
    rfl
  have hnone : {child | Entry.program.ComesTo host.readFile
      (Script.ofSource "/m.es" (String.ofList x.whole)) child} = ∅ := by
    rw [hwhole]
    exact Set.eq_empty_of_forall_notMem fun child => Entry.not_comesTo (by decide +kernel)
  have hpassed : Entry.program.PassesGap host "/m.es" x.front x.gap := by
    rw [hfront, hgap]
    exact hpasses
  have hfinite : {child | Entry.program.ComesTo host.readFile
      (Script.ofSource "/m.es" (String.ofList x.whole)) child}.Finite := hnone ▸ Set.finite_empty
  have hcalls := call_respaced x hpassed hfinite
    (fun child hchild => absurd (hnone ▸ hchild : child ∈ (∅ : Set Script)) (Set.notMem_empty child))
    (by simp [hnone])
  rw [hwhole, hrespaced] at hcalls
  exact ⟨hpasses, by decide +kernel, hcalls⟩

end Calls

end ActionSyntax
