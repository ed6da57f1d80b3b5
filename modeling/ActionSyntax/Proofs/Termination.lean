import ActionSyntax.Proofs.Places.Runs
import Mathlib.SetTheory.Cardinal.NatCard

/-!
The end of a parse. Every rule of the grammar takes something from the text before it comes to itself
again, and so does every round of a loop; what can go on without end is only that scripts include each
other. A script enters another if some reading of it comes to an inclusion of the other. Where the
scripts that a parse enters are finitely many, and none enters itself by way of others, the parse ends,
and its answer does not depend on how deep inclusions may go.
-/

namespace ActionSyntax

set_option autoImplicit false

open Parse Rules
open Relation (TransGen ReflTransGen)

namespace Rules

/-- The rule for included scripts that reads inclusions to some depth, and takes those below as they
are. It never gives up. -/
def skimAt (readFile : String → Option String) : Nat → IncludeRule
  | 0 => fun _ script => return (script, [])
  | depth + 1 => fun context script =>
    (level readFile (skimAt readFile depth) (levelFor script)).includeScript context script

end Rules

section Skimming

variable {readFile : String → Option String} {refused : ParserState → Prop}

theorem skimAt_splicing {S : Setting} : ∀ depth, S.Splicing (skimAt S.readFile depth)
  | 0 => fun _ path s => ⟨none, s.inside (S.file path), .refl _, nofun, rfl, rfl⟩
  | depth + 1 => fun context _ s =>
    Setting.includeScript_splices (Setting.level_sound (skimAt_splicing depth) _)
      (Nat.lt_add_of_pos_right (by decide)) context s

/-- As long as less than `n` tokens may still come, no rule of level `n` comes to the bottom of the
levels or to the last round of a loop. -/
theorem skimAt_sound (S : Setting) (depth n : Nat) :
    S.Sound n (level S.readFile (skimAt S.readFile depth) n) :=
  Setting.level_sound (skimAt_splicing depth) n

theorem skimAt_ok (depth : Nat) (context : Context) (path source : String) (s : ParserState) :
    ∃ value t, skimAt readFile depth context (Script.ofSource path source) s = .ok value t := by
  cases depth with
  | zero => exact ⟨_, _, rfl⟩
  | succ depth =>
    let S : Setting := ⟨readFile, False⟩
    have h : S.Splices s (Script.ofSource path source)
        (skimAt readFile (depth + 1) context (Script.ofSource path source) s) :=
      Setting.includeScript_splices (Setting.level_sound (skimAt_splicing depth) _)
        (Nat.lt_add_of_pos_right (by decide)) context s
    cases hread : skimAt readFile (depth + 1) context (Script.ofSource path source) s with
    | ok value t => exact ⟨value, t, rfl⟩
    | error stop t =>
      rw [hread] at h
      exact h.2.2.elim

theorem skimAt_inserting : ∀ depth,
    Inserting refused (skimAt readFile depth) (skimAt readFile depth)
  | 0 => fun _ _ _ s =>
    ⟨⟨⟨_, .refl _, rfl⟩, s.functions, s.superFound, rfl⟩, Or.inl rfl⟩
  | depth + 1 => fun context path source s =>
    ⟨(includeScript_hands (level_alike (skimAt_inserting depth) _) (level_depth_eq _) context path
      source s).1, Or.inl rfl⟩

/-- From some state on, inclusions of the script go deeper than allowed. -/
def GivesUp (readFile : String → Option String) (depth : Nat) (script : Script) : Prop :=
  ∃ context s t, includeAt readFile depth context script s = .error .exhausted t

/-- A script is included there, and read from its beginning. -/
def ParserState.Took (s : ParserState) (child : Script) : Prop :=
  ∃ found ∈ s.script.included, child = Script.ofSource found.path (String.ofList found.content)

/-- A script is included there that gives up. -/
def Refusing (readFile : String → Option String) (depth : Nat) (s : ParserState) : Prop :=
  ∃ child, s.Took child ∧ GivesUp readFile depth child

/-- Behind the inclusion of a script that gives up, such a script is included. -/
theorem GivesUp.refusing {depth deeper : Nat} {context : Context} {path source : String}
    {s : ParserState} (h : GivesUp readFile depth (Script.ofSource path source))
    (hands : Hands s path source
      (skimAt readFile deeper context (Script.ofSource path source) s)) :
    Refusing readFile depth (afterInclusion
      (skimAt readFile deeper context (Script.ofSource path source) s)) := by
  obtain ⟨⟨child, statements⟩, t, ht⟩ := skimAt_ok deeper context path source s
  rw [ht] at hands ⊢
  obtain ⟨⟨u, hstrides, rfl⟩, -⟩ := hands
  refine ⟨_, ⟨u.script, List.mem_append_right _ List.mem_cons_self, ?_⟩, h⟩
  rw [hstrides.walk.path_eq, hstrides.walk.content_eq]
  exact congrArg (Script.ofSource path) String.ofList_toList.symm

/-- Scripts are read in place as they are skimmed to that depth or further, unless they give up. -/
theorem includeAt_skimAt : ∀ depth deeper, depth ≤ deeper →
    Inserting (Refusing readFile depth) (includeAt readFile depth) (skimAt readFile deeper)
  | 0, deeper, _ => fun context path source s => by
    have hup : GivesUp readFile 0 (Script.ofSource path source) := ⟨context, s, s, rfl⟩
    have hself : Inserting (Refusing readFile 0) (skimAt readFile deeper) (skimAt readFile deeper) :=
      skimAt_inserting deeper
    have hands := (hself context path source s).hands
    exact ⟨hands, Or.inr ⟨⟨s, rfl⟩, hup.refusing hands⟩⟩
  | depth + 1, deeper + 1, hle => fun context path source s => by
    obtain ⟨hhands, hagree⟩ := includeScript_hands
      (level_alike (includeAt_skimAt depth deeper (Nat.le_of_succ_le_succ hle))
        (levelFor (Script.ofSource path source))) (level_depth_eq _) context path source s
    refine ⟨hhands, hagree.imp_right fun ⟨⟨t, ht⟩, _⟩ => ?_⟩
    have hup : GivesUp readFile (depth + 1) (Script.ofSource path source) := ⟨context, s, t, ht⟩
    exact ⟨⟨t, ht⟩, hup.refusing hhands⟩

end Skimming

theorem Refuses.took {readFile : String → Option String} {depth : Nat} {s : ParserState}
    (h : Refuses (Refusing readFile depth) s) : ∃ child, s.Took child ∧ GivesUp readFile depth child := by
  obtain ⟨t, hwalk, child, ⟨found, hfound, heq⟩, hup⟩ := h
  exact ⟨child, ⟨found, hwalk.included_prefix.subset hfound, heq⟩, hup⟩

/-- Some reading of the first script, in whatever place, includes the second one. -/
def Enters (readFile : String → Option String) (script child : Script) : Prop :=
  ∃ depth context, ∃ s : ParserState, (includedOutcome (level readFile (skimAt readFile depth) (levelFor script))
    context (s.inside script)).state.Took child

section Enters

variable {readFile : String → Option String}

/-- What gives up enters something that gives up one step earlier. -/
theorem GivesUp.enters {depth : Nat} {path source : String}
    (h : GivesUp readFile (depth + 1) (Script.ofSource path source)) :
    ∃ child, Enters readFile (Script.ofSource path source) child ∧ GivesUp readFile depth child := by
  obtain ⟨context, s, t, ht⟩ := h
  have hinserting : Inserting (Refusing readFile depth) (includeAt readFile depth)
      (skimAt readFile depth) := includeAt_skimAt depth depth (Nat.le_refl depth)
  have halike : Alike (Refusing readFile depth) (level readFile (includeAt readFile depth)
      (levelFor (Script.ofSource path source))) _ := level_alike hinserting _
  rcases (includeScript_hands halike (level_depth_eq _) context path source s).2 with heq | ⟨-, hrefuses⟩
  · obtain ⟨value, u, hu⟩ : ∃ value u, skimAt readFile (depth + 1) context
        (Script.ofSource path source) s = .ok value u := skimAt_ok (depth + 1) context path source s
    exact nomatch ht.symm.trans (heq.trans hu)
  · obtain ⟨child, htook, hup⟩ := hrefuses.took
    exact ⟨child, ⟨depth, context, s, htook⟩, hup⟩

theorem Enters.child_eq {script child : Script} (h : Enters readFile script child) :
    ∃ path source, child = Script.ofSource path source := by
  obtain ⟨_, _, _, found, _, rfl⟩ := h
  exact ⟨_, _, rfl⟩

/-- Scripts follow each other, each of which enters the next one, at least to the given depth. -/
def EntersDeep (readFile : String → Option String) : Nat → Script → Prop
  | 0, _ => True
  | n + 1, script => ∃ child, Enters readFile script child ∧ EntersDeep readFile n child

/-- What gives up is the first of so many scripts. -/
theorem GivesUp.entersDeep : ∀ {depth : Nat} {path source : String},
    GivesUp readFile depth (Script.ofSource path source) →
      EntersDeep readFile depth (Script.ofSource path source)
  | 0, _, _, _ => trivial
  | _ + 1, _, _, h => by
    obtain ⟨child, hchild, hbelow⟩ := h.enters
    obtain ⟨_, _, rfl⟩ := hchild.child_eq
    exact ⟨_, hchild, hbelow.entersDeep⟩

variable {scripts : Set Script} (hfinite : scripts.Finite)
  (hclosed : ∀ script ∈ scripts, ∀ child, Enters readFile script child → child ∈ scripts)
  (hacyclic : ∀ script ∈ scripts, ¬ TransGen (Enters readFile) script script)
include hclosed hacyclic

/-- The scripts on the way to one that gives up are different from each other. -/
theorem GivesUp.length_le : ∀ depth path source (seen : List Script),
    Script.ofSource path source ∈ scripts →
    (∀ script ∈ seen, script ∈ scripts ∧
      TransGen (Enters readFile) script (Script.ofSource path source)) →
    seen.Nodup → GivesUp readFile depth (Script.ofSource path source) →
    seen.length + depth < hfinite.toFinset.card
  | depth, path, source, seen, hmem, hseen, hnodup, hup => by
    have hnew : Script.ofSource path source ∉ seen := fun h => hacyclic _ hmem (hseen _ h).2
    have hnodup' := List.nodup_cons.mpr ⟨hnew, hnodup⟩
    cases depth with
    | zero =>
      have hsubset : Script.ofSource path source :: seen ⊆ hfinite.toFinset.toList := by
        intro script h
        rw [Finset.mem_toList, Set.Finite.mem_toFinset]
        rcases List.mem_cons.mp h with rfl | h
        · exact hmem
        · exact (hseen _ h).1
      simpa using hnodup'.length_le_of_subset hsubset
    | succ depth =>
      obtain ⟨child, hchild, hbelow⟩ := hup.enters
      obtain ⟨path', source', rfl⟩ := hchild.child_eq
      have ih := GivesUp.length_le depth path' source' (Script.ofSource path source :: seen)
        (hclosed _ hmem _ hchild) ?_ hnodup' hbelow
      · simp only [List.length_cons] at ih
        omega
      · intro script h
        rcases List.mem_cons.mp h with rfl | h
        · exact ⟨hmem, .single hchild⟩
        · exact ⟨(hseen _ h).1, (hseen _ h).2.tail hchild⟩

end Enters

namespace Entry

theorem read_follows {refused : ParserState → Prop} {r r' : Rules}
    (h : Alike refused r r') (entry : Entry) :
    Follows refused [] (entry.read r) (entry.read r') := by
  refine toEnd_follows ?_
  cases entry with
  | program => exact h.program_follows.map fun _ => List.nil_subset _
  | statement =>
    refine Follows.map (α := Statement) ?_ fun _ => List.nil_subset _
    exact .seq (h.statementRule_follows {}) fun ⟨found, _⟩ => .pure found (List.nil_subset _)
  | expression allowIn level => exact (h.exprRule_follows _).map fun _ => List.nil_subset _
  | type => exact h.typeExprRule_follows.map fun _ => List.nil_subset _

/-- Some reading from an entry point on includes the second script. -/
def Enters (readFile : String → Option String) (entry : Entry) (script child : Script) : Prop :=
  ∃ depth, (lastState (entry.read (level readFile (skimAt readFile depth) (levelFor script))
    (ParserState.ofScript script).scanned)).Took child

/-- The second script is included by what is read from an entry point on, by way of others. -/
def ComesTo (readFile : String → Option String) (entry : Entry) (script child : Script) : Prop :=
  ∃ first, entry.Enters readFile script first ∧
    ReflTransGen (ActionSyntax.Enters readFile) first child

end Entry

namespace Parser

variable {p : Parser} {α β : Type}

end Parser

namespace Entry

variable {readFile : String → Option String} {path source : String} {entry : Entry}

/-- Where a parser begins to read, no more tokens may come than its text has characters, unless the
script is done for. So the text can be skimmed to any depth. -/
theorem skimmed_ends (entry : Entry) (readFile : String → Option String) (depth : Nat) {script : Script}
    (hvalid : (ParserState.ofScript script).scanned.script.isValid = true) (t : ParserState) :
    entry.read (level readFile (skimAt readFile depth) (levelFor script))
      (ParserState.ofScript script).scanned ≠ .error .exhausted t := by
  let S : Setting := ⟨readFile, False⟩
  have hleft : (ParserState.ofScript script).scanned.left ≤ script.content.length :=
    (Step.advance (ParserState.ofScript script)).left_le hvalid
  have hready : S.Ready (levelFor script) (ParserState.ofScript script).scanned :=
    Or.inr (Nat.lt_of_le_of_lt hleft (Nat.lt_add_of_pos_right (by decide)))
  have hends := entry.read_reads (skimAt_sound S depth (levelFor script)) _ hready
  intro hread
  rw [hread] at hends
  exact hends.2

section Acyclic

variable (hfinite : {child | entry.ComesTo readFile (Script.ofSource path source) child}.Finite)
  (hacyclic : ∀ child, entry.ComesTo readFile (Script.ofSource path source) child →
    ¬ TransGen (ActionSyntax.Enters readFile) child child)
include hacyclic

/-- If inclusions may go as deep as there are scripts, the text is read as if they went deeper. -/
theorem read_skimAt {depth deeper : Nat} (hdepth : hfinite.toFinset.card ≤ depth)
    (hle : depth ≤ deeper) :
    entry.read (level readFile (includeAt readFile depth) (levelFor (Script.ofSource path source)))
        (ParserState.ofScript (Script.ofSource path source)).scanned =
      entry.read (level readFile (skimAt readFile deeper) (levelFor (Script.ofSource path source)))
        (ParserState.ofScript (Script.ofSource path source)).scanned := by
  have hsound := ((Walk.scan (.refl _)).sound (.ofSource path source)).1
  have halike : Alike (Refusing readFile depth) (level readFile (includeAt readFile depth)
      (levelFor (Script.ofSource path source))) _ :=
    level_alike (includeAt_skimAt depth deeper hle) _
  rcases (entry.read_follows halike _ hsound nofun).agree with heq | ⟨-, hrefuses⟩
  · exact heq
  obtain ⟨child, htook, hup⟩ := hrefuses.took
  obtain ⟨path', source', rfl⟩ : ∃ path source, child = Script.ofSource path source := by
    obtain ⟨found, _, rfl⟩ := htook
    exact ⟨_, _, rfl⟩
  have hcomes : entry.ComesTo readFile (Script.ofSource path source)
      (Script.ofSource path' source') := ⟨_, ⟨deeper, htook⟩, .refl⟩
  have hclosed : ∀ script ∈ {child | entry.ComesTo readFile (Script.ofSource path source) child},
      ∀ child, ActionSyntax.Enters readFile script child →
        child ∈ {child | entry.ComesTo readFile (Script.ofSource path source) child} :=
    fun _ ⟨first, hfirst, hpath⟩ _ hchild => ⟨first, hfirst, hpath.tail hchild⟩
  have hlt := GivesUp.length_le hfinite hclosed hacyclic depth path' source' [] hcomes nofun
    List.nodup_nil hup
  simp at hlt
  omega

/-- Inclusions that may go deep enough never go deeper. -/
theorem read_ends {depth : Nat} (hdepth : hfinite.toFinset.card ≤ depth)
    (hvalid : (ParserState.ofScript (Script.ofSource path source)).scanned.script.isValid = true)
    (t : ParserState) :
    entry.read (level readFile (includeAt readFile depth) (levelFor (Script.ofSource path source)))
      (ParserState.ofScript (Script.ofSource path source)).scanned ≠ .error .exhausted t := by
  rw [read_skimAt hfinite hacyclic hdepth (Nat.le_refl depth)]
  exact entry.skimmed_ends readFile depth hvalid t

end Acyclic

end Entry

/-- Where the scripts that an entry point comes to are finitely many, and none includes itself by way
of others, a call of the entry point ends, and with the same answer and the same state for every host
of the files that lets inclusions go as deep as there are scripts. All along, a rule of level `n` uses
only rules below and makes at most `n + 2` rounds of a loop, and as long as less than `n` tokens may
still come, that is enough: every rule and every round takes a token, or a piece of one, or is the
last. -/
theorem call_ends {readFile : String → Option String} {path source : String} {entry : Entry}
    (hfinite : {child | entry.ComesTo readFile (Script.ofSource path source) child}.Finite)
    (hacyclic : ∀ child, entry.ComesTo readFile (Script.ofSource path source) child →
      ¬ TransGen (Enters readFile) child child) :
    (∃ answer state, ∀ host : Host, host.readFile = readFile →
      hfinite.toFinset.card ≤ host.includeDepth →
      let p := Parser.ofScript host (Script.ofSource path source)
      p.call entry = (answer, ⟨host, state⟩) ∧
      entry.read (ofHost host p.script) p.state =
        entry.read (level readFile (skimAt readFile host.includeDepth) (levelFor p.script)) p.state ∧
      (p.script.isValid = true → ∀ t, entry.read (ofHost host p.script) p.state ≠ .error .exhausted t)) ∧
    ∀ depth n, Setting.Sound ⟨readFile, False⟩ n (level readFile (skimAt readFile depth) n) := by
  refine ⟨?_, skimAt_sound ⟨readFile, False⟩⟩
  let first := (ParserState.ofScript (Script.ofSource path source)).scanned
  have hlevel : levelFor first.script = levelFor (Script.ofSource path source) := by
    unfold levelFor
    rw [show first.script.content = _ from Scanner.next_content _]
    rfl
  -- However deep inclusions may go beyond that, the text is read as it is skimmed.
  have hread : ∀ {n deeper}, hfinite.toFinset.card ≤ n → n ≤ deeper →
      entry.read (ofHost ⟨readFile, n⟩ first.script) first =
        entry.read (level readFile (skimAt readFile deeper) (levelFor first.script)) first := by
    intro n deeper hn hle
    unfold ofHost
    rw [hlevel]
    exact Entry.read_skimAt hfinite hacyclic hn hle
  let widest : Host := ⟨readFile, hfinite.toFinset.card⟩
  let called := (Parser.mk widest first).call entry
  refine ⟨called.1, called.2.state, ?_⟩
  intro host hhost hdepth p
  obtain ⟨files, depth⟩ := host
  obtain rfl : files = readFile := hhost
  have hp : p = ⟨⟨files, depth⟩, first⟩ :=
    congrArg (Parser.mk ⟨files, depth⟩) (Parser.ofScript_state ⟨files, depth⟩ _)
  rw [hp]
  refine ⟨?_, hread hdepth (Nat.le_refl depth), fun hvalid t => ?_⟩
  · have hsame : entry.read (ofHost ⟨files, depth⟩ first.script) first =
        entry.read (ofHost widest first.script) first :=
      (hread hdepth (Nat.le_refl depth)).trans (hread (Nat.le_refl _) hdepth).symm
    exact Parser.call_congr hsame
  · show entry.read (ofHost ⟨files, depth⟩ first.script) first ≠ _
    unfold ofHost
    rw [hlevel]
    exact Entry.read_ends hfinite hacyclic hdepth hvalid t

namespace Parser

variable {entry : Entry}

/-- Where the scripts that a call comes to are finitely many and none includes itself by way of others,
it finishes for every host that lets inclusions go as deep as there are scripts. -/
theorem finishes_of_acyclic {host : Host} {path source : String}
    (hfinite : {child | entry.ComesTo host.readFile (Script.ofSource path source) child}.Finite)
    (hacyclic : ∀ child, entry.ComesTo host.readFile (Script.ofSource path source) child →
      ¬ Relation.TransGen (Enters host.readFile) child child)
    (hdepth : hfinite.toFinset.card ≤ host.includeDepth) :
    (ofScript host (Script.ofSource path source)).Finishes entry := by
  intro hvalid t hread
  unfold script at hvalid hread
  rw [ofScript_state] at hvalid hread
  have hlevel : levelFor (ParserState.ofScript (Script.ofSource path source)).scanned.script =
      levelFor (Script.ofSource path source) := by
    unfold levelFor
    rw [show (ParserState.ofScript (Script.ofSource path source)).scanned.script.content = _ from
      Scanner.next_content _]
    rfl
  unfold ofHost at hread
  rw [hlevel] at hread
  exact Entry.read_ends hfinite hacyclic hdepth hvalid t hread

end Parser

/-- An empty text includes nothing. -/
theorem not_enters_empty {readFile : String → Option String} {path : String} {child : Script} :
    ¬ Enters readFile (Script.ofSource path "") child := by
  rintro ⟨depth, context, s, found, hfound, -⟩
  have hnone : (includedOutcome (level readFile (skimAt readFile depth)
      (levelFor (Script.ofSource path ""))) context
        (s.inside (Script.ofSource path ""))).state.script.included = [] := rfl
  rw [hnone] at hfound
  cases hfound

/-- The reading does not stop. -/
def Parse.completes {α : Type} : EStateM.Result Stop ParserState α → Bool
  | .ok _ _ => true
  | .error _ _ => false

/-- A program that includes an empty file. -/
theorem call_ends_empty :
    let files := (Host.ofFiles [("/a.es", "")]).readFile
    let script := Script.ofSource "/m.es" "include \"a\""
    (∀ child, Entry.program.ComesTo files script child → child = Script.ofSource "/a.es" "") ∧
      ∃ answer state, ∀ host : Host, host.readFile = files → 1 ≤ host.includeDepth →
        (Parser.ofScript host script).call .program = (answer, ⟨host, state⟩) := by
  intro files script
  let first := (ParserState.ofScript script).scanned
  let read (included : IncludeRule) := Entry.program.read (level files included (levelFor script)) first
  have hincluded : ∀ depth, ((lastState (read (skimAt files depth))).script.included.map
      fun found => (found.path, found.content)) = [("/a.es", [])] := by
    rintro (_ | depth)
    · decide +kernel
    -- A reading that does not give up at the first inclusion is the same however deep it may go.
    · have hwhole : completes (read (includeAt files 1)) = true := by decide +kernel
      have halike : Alike (Refusing files 1) (level files (includeAt files 1) (levelFor script)) _ :=
        level_alike (includeAt_skimAt 1 (depth + 1) (by omega)) _
      have hsound : first.Sound := ((Walk.scan (.refl _)).sound (.ofSource _ _)).1
      have hread : read (includeAt files 1) = read (skimAt files (depth + 1)) := by
        refine (Entry.read_follows halike .program first hsound nofun).agree.resolve_right ?_
        rintro ⟨⟨t, ht⟩, -⟩
        change read (includeAt files 1) = _ at ht
        rw [ht] at hwhole
        cases hwhole
      rw [← hread]
      decide +kernel
  have honly : ∀ child, Entry.program.ComesTo files script child →
      child = Script.ofSource "/a.es" "" := by
    rintro child ⟨entered, ⟨depth, found, hfound, rfl⟩, hpath⟩
    have hmem := List.mem_map_of_mem (f := fun found => (found.path, found.content)) hfound
    rw [hincluded depth] at hmem
    obtain ⟨hp, hc⟩ := Prod.ext_iff.mp (List.mem_singleton.mp hmem)
    dsimp only at hp hc
    rw [hp, hc] at hpath
    rcases ReflTransGen.cases_head hpath with heq | ⟨_, henters, _⟩
    · exact heq.symm
    · exact (not_enters_empty henters).elim
  have hfinite : {child | Entry.program.ComesTo files script child}.Finite :=
    (Set.finite_singleton (Script.ofSource "/a.es" "")).subset honly
  have hacyclic : ∀ child, Entry.program.ComesTo files script child →
      ¬ TransGen (Enters files) child child := by
    intro child hchild hcycle
    rw [honly child hchild] at hcycle
    obtain ⟨_, henters, _⟩ := TransGen.head'_iff.mp hcycle
    exact not_enters_empty henters
  have hcard : hfinite.toFinset.card ≤ 1 := by
    rw [Finset.card_le_one]
    intro a ha b hb
    rw [Set.Finite.mem_toFinset] at ha hb
    exact (honly a ha).trans (honly b hb).symm
  obtain ⟨⟨answer, state, hcall⟩, -⟩ := call_ends hfinite hacyclic
  exact ⟨honly, answer, state, fun host hhost hdepth => (hcall host hhost (hcard.trans hdepth)).1⟩

end ActionSyntax
