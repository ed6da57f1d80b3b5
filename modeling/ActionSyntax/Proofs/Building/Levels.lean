import ActionSyntax.Proofs.Building.Statements
import ActionSyntax.Proofs.Termination

/-!
What is built of programs and included scripts, and the rules of every level, which build what they
read. Strict rules do the same, but give up where something is read that is no piece of the tree.
-/

namespace ActionSyntax

set_option autoImplicit false

open Parse Setting Setting.Sound Rules

variable {lossy : Prop} {s t u : ParserState}

section Programs

theorem Parse.packagePart?_ok {found : Option String} (h : packagePart? s = .ok found t) :
    Builds lossy false s [] t := by
  rcases bind_if lossy (proper_kind (by decide)) h with ⟨u, hu, -, h⟩ | h
  · obtain ⟨v, hv, -, h⟩ := bind_expect lossy proper_word h
    cases h
    exact (hu.builds.skip hv.builds).weaken
  · cases h
    exact .refl _

/-- If at least one item is read, a token is consumed. -/
theorem Parse.collectWhile_some {α : Type} {g : α → Piece} {step : Parse (Option α)}
    (hstep : ∀ {s found t}, step s = .ok found t →
      Builds lossy found.isSome s (found.toList.map g) t) :
    ∀ {fuel : Nat} {items : List α} {s t : ParserState}, collectWhile step fuel s = .ok items t →
      Builds lossy (!items.isEmpty) s (items.map g) t
  | 0, _, _, _, h => (exhausted_ok h).elim
  | fuel + 1, items, s, t, h => by
    unfold collectWhile at h
    obtain ⟨found, u, hfound, h⟩ := bind_ok h
    have hbuilds := hstep hfound
    cases found with
    | none =>
      cases h
      exact hbuilds
    | some first =>
      obtain ⟨rest, v, hrest, h⟩ := bind_ok h
      cases h
      exact hbuilds.seq (collectWhile_some hstep hrest)

/-- What has been read stands in the surroundings of a function body, if it is a statement. -/
def Tree.piece : Tree → Piece
  | .program p => .program p
  | .statement s => .statement .fresh s
  | .expression e => .expr e
  | .type t => .type t

/-- Something is read from an entry point on. Only an empty program is no node that ends where its last
token ends: it covers the whole text. -/
inductive TreeRead (lossy : Prop) (s : ParserState) : Tree → ParserState → Prop
  | node {tree : Tree} {t : ParserState} (h : Builds lossy true s [tree.piece] t) :
      TreeRead lossy s tree t
  | empty {t : ParserState} (h : Builds lossy false s [] t) :
      TreeRead lossy s (.program ⟨t.script.fullSpan, [], []⟩) t

namespace Rules.Builder

variable {r : Rules} (R : r.Builder lossy)
include R

omit R in
theorem packageName_ok {name : List String} (h : r.packageName s = .ok name t) :
    Builds lossy false s [] t := by
  rcases bind_if lossy (proper_kind (by decide)) h with ⟨u, hu, -, h⟩ | h
  · rw [previous_bind] at h
    obtain ⟨rest, v, hv, h⟩ := bind_ok h
    cases h
    have hnone : ∀ names : List String, names.flatMap (fun _ => ([] : List Piece)) = [] :=
      fun names => by simp
    have hrest : Builds lossy false u (rest.flatMap fun _ => []) t :=
      collectWhile_ok (fun h => (hnone _).symm ▸ packagePart?_ok h) hv
    rw [hnone] at hrest
    exact (hu.builds.skip hrest).weaken
  · cases h
    exact .refl _

theorem package?_ok {found : Option Package} (h : r.package? s = .ok found t) :
    Builds lossy found.isSome s (found.toList.map .package) t := by
  unfold package? at h
  rw [atKeyword?_bind] at h
  split at h
  · cases h
    exact .refl _
  rename_i hword
  have more : s.token.kind ≠ .endOfProgram := by
    intro hend
    simp [Token.isKeyword, hend] at hword
  rw [mark_bind] at h
  obtain ⟨u, hu, h⟩ := bind_next lossy more h
  obtain ⟨id, v, hv, h⟩ := bind_ok h
  obtain ⟨block, w, hw, h⟩ := bind_ok h
  cases h
  have hblock := R.block (Situation.Agrees.ofContainer .package) hw
  exact .whole (p := .package _) (hu.builds.skip ((packageName_ok hv).skip hblock.builds))
    rfl ⟨rfl, trivial, trivial⟩

theorem programStatements_ok :
    ∀ {fuel : Nat} {statements : List Statement} {s t : ParserState},
      r.programStatements fuel s = .ok statements t →
      Builds lossy (!statements.isEmpty) s (statements.map (.statement ⟨.topLevel, []⟩)) t
  | 0, _, _, _, h => (exhausted_ok h).elim
  | fuel + 1, statements, s, t, h => by
    unfold programStatements at h
    rw [at?_bind] at h
    split at h
    · cases h
      exact .refl _
    obtain ⟨⟨first, ended⟩, u, hu, h⟩ := bind_ok h
    have hfirst := R.statement (Situation.Agrees.ofContainer .topLevel) hu
    cases ended with
    | true =>
      obtain ⟨rest, v, hv, h⟩ := bind_ok h
      cases h
      exact hfirst.seq (programStatements_ok hv)
    | false =>
      cases h
      exact hfirst

theorem program_ok {program : Program} (h : r.program s = .ok program t) :
    TreeRead lossy s (.program program) t := by
  unfold Rules.program at h
  rw [mark_bind] at h
  obtain ⟨packages, u, hu, h⟩ := bind_ok h
  obtain ⟨statements, v, hv, h⟩ := bind_ok h
  obtain ⟨_, w, hw, hgo⟩ := bind_ok h
  obtain ⟨rfl, -⟩ := expectEnd_ok hw
  have hread := (collectWhile_some R.package?_ok hu).seq (R.programStatements_ok hv)
  split at hgo
  · rename_i hempty
    simp only [Bool.and_eq_true, List.isEmpty_iff] at hempty
    obtain ⟨rfl, rfl⟩ := hempty
    cases hgo
    exact .empty hread
  · rename_i hsome
    cases hgo
    have htoken : (!packages.isEmpty || !statements.isEmpty) = true := by
      rw [← Bool.not_and, Bool.eq_false_iff.mpr hsome]
      rfl
    rw [htoken] at hread
    exact .node (.whole hread rfl ⟨rfl, trivial, trivial⟩)

end Rules.Builder

end Programs

section Levels

/-- The statements of an included script that have been read, in whatever way reading has stopped. -/
theorem Rules.Builder.includedStatements_ok {r : Rules} (R : r.Builder lossy) {around : Situation}
    {c : Context} (agrees : around.Agrees c) :
    ∀ (fuel : Nat) (read : List Statement) (s : ParserState),
      ∃ (new : List Statement) (inner : ParserState), (includedStatements r c fuel read s).statements = new.reverse ++ read ∧
        BuildsIn lossy c.isConstructor false s (new.map (.statement around)) inner
  | 0, read, s => ⟨[], s, rfl, .refl s⟩
  | fuel + 1, read, s => by
    unfold includedStatements
    split
    · exact ⟨[], s, rfl, .refl s⟩
    cases hread : r.statement c s with
    | error stop t => exact ⟨[], s, rfl, .refl s⟩
    | ok found t =>
      obtain ⟨statement, _ | _⟩ := found
      · have hfirst := R.statement agrees hread
        refine ⟨[statement], t, ?_, hfirst.weaken⟩
        dsimp only
        cases expectEnd t <;> rfl
      · have hfirst := R.statement agrees hread
        obtain ⟨new, inner, hnew, hbuilds⟩ := includedStatements_ok R agrees fuel (statement :: read) t
        refine ⟨statement :: new, inner, ?_, (hfirst.seq hbuilds).weaken⟩
        dsimp only
        rw [hnew, List.reverse_cons, List.append_assoc]
        rfl

/-- A script is read in place, as long as that hands over the script of the path and the text. -/
theorem Rules.Builder.includeScript_ok {r : Rules} (R : r.Builder lossy) (may : lossy)
    {around : Situation} {c : Context} (agrees : around.Agrees c) {path source : String}
    {child : Script} {statements : List Statement}
    (hands : Hands s path source (r.includeScript c (.ofSource path source) s))
    (h : r.includeScript c (.ofSource path source) s = .ok (child, statements) t) :
    Included lossy around s child statements t := by
  rw [h] at hands
  obtain ⟨⟨whole, hstrides, hwhole⟩, -⟩ := hands
  have hchild : Script.ofSource child.path (String.ofList child.content) =
      Script.ofSource path source := by
    rw [hwhole, hstrides.walk.path_eq, hstrides.walk.content_eq]
    exact congrArg (Script.ofSource path) String.ofList_toList
  let first := s.inside (.ofSource path source)
  let outcome := includedOutcome r c first
  obtain ⟨hstatements, houtside⟩ :
      statements = outcome.statements.reverse ∧ t = s.outside outcome.state := by
    unfold includeScript at h
    dsimp only at h
    split at h
    · cases h
    · cases h
      exact ⟨rfl, rfl⟩
  refine ⟨may, c.isConstructor, false, ?_⟩
  cases hok : first.scanner.next.1 with
  | error p =>
    have hnone : outcome.statements = [] := by
      show (includedOutcome r c first).statements = []
      unfold includedOutcome
      rw [scan_apply, hok]
    rw [hstatements, hnone]
    exact ⟨s, s, outcome.state, fun hne => absurd rfl hne, .refl s, houtside⟩
  | ok _ =>
    have hread : outcome = includedStatements r c r.rounds [] first.scanned := by
      show includedOutcome r c first = _
      unfold includedOutcome
      rw [scan_apply, hok]
      rfl
    obtain ⟨new, inner, hnew, hbuilds⟩ :=
      R.includedStatements_ok agrees r.rounds [] first.scanned
    rw [hstatements, hread, hnew, List.append_nil, List.reverse_reverse]
    refine ⟨first.scanned, inner, outcome.state, fun _ => ?_, hbuilds, houtside⟩
    rw [hchild]
    exact ⟨rfl, hok⟩

/-- Rules above rules that build what they read do so as well, if their statements do. -/
theorem Rules.Builder.above {r : Rules} (R : r.Builder lossy) (depth : Nat)
    {read : Context → Parse Ended}
    (hread : ∀ {around c s statement ended t}, Situation.Agrees around c →
      read c s = .ok (statement, ended) t →
      BuildsIn lossy c.isConstructor true s [.statement around statement] t) :
    Builder lossy { Rules.above (fun _ => r) depth with statement := read } where
  typeExpr := R.typeExprRule_ok
  optExpr := R.optExprRule_ok
  optPrimary := R.optPrimaryRule_ok
  node := R.nodeRule_ok
  block agrees h := R.blockRule_ok agrees h
  statement := hread
  included := R.included

/-- Rules for included scripts that build what they read. -/
def IncludeRule.Builds (lossy : Prop) (included : IncludeRule) : Prop :=
  ∀ around c path source s child statements t, Situation.Agrees around c →
    included c (.ofSource path source) s = .ok (child, statements) t →
    Included lossy around s child statements t

/-- Spent rules read nothing. -/
theorem Rules.spent_builder (readFile : String → Option String) {included : IncludeRule}
    (hincluded : included.Builds lossy) : Builder lossy { spent readFile with included } where
  typeExpr h := (exhausted_ok h).elim
  optExpr h := (exhausted_ok h).elim
  optPrimary h := (exhausted_ok h).elim
  node h := (exhausted_ok h).elim
  block _ h := (exhausted_ok h).elim
  statement _ h := (exhausted_ok h).elim
  included := hincluded _ _ _ _ _ _ _ _

theorem Rules.level_builder {readFile : String → Option String} {included : IncludeRule}
    (hincluded : included.Builds True) : ∀ n, (level readFile included n).Builder True
  | 0 => spent_builder readFile hincluded
  | n + 1 =>
    have R := level_builder hincluded n
    R.above (n + 1) fun agrees h => R.statementRule_ok agrees (Or.inl trivial) h

theorem Rules.includeAt_builds (readFile : String → Option String) :
    ∀ depth, (includeAt readFile depth).Builds True
  | 0 => fun _ _ _ _ _ _ _ _ _ h => (exhausted_ok h).elim
  | depth + 1 => fun around c path source s child statements t agrees h => by
    have R : (level readFile (includeAt readFile depth) (levelFor (.ofSource path source))).Builder
        True := level_builder (includeAt_builds readFile depth) _
    have hinserts : Inserts (fun _ => False) s path source _ _ :=
      includeAt_inserting readFile (depth + 1) c path source s
    exact R.includeScript_ok trivial agrees hinserts.hands h

/-- The rules for a script build what they read. -/
theorem Rules.ofHost_builder (host : Host) (script : Script) : (ofHost host script).Builder True :=
  level_builder (includeAt_builds host.readFile host.includeDepth) _

end Levels

section Strict

namespace Rules

/-- Reads a statement, but gives up at decorators that hold a spread item. -/
def strictStatement (r : Rules) (context : Context) : Parse Ended := fun s =>
  if s.token.kind == .leftBracket && r.spreadsDecorators s then .error .exhausted s
  else r.statementRule context s

/-- The rules of a level, but for inclusions and for decorators that hold a spread item: there they
give up. -/
def strictLevel (readFile : String → Option String) : Nat → Rules
  | 0 => spent readFile
  | n + 1 =>
    let below := strictLevel readFile n
    { above (fun _ => below) (n + 1) with statement := below.strictStatement }

theorem Builder.strictStatement_ok {r : Rules} (R : r.Builder lossy) {around : Situation}
    {c : Context} {statement : Statement} {ended : Bool} (agrees : around.Agrees c)
    (h : r.strictStatement c s = .ok (statement, ended) t) :
    BuildsIn lossy c.isConstructor true s [.statement around statement] t := by
  unfold strictStatement at h
  split at h
  · cases h
  · rename_i hstrict
    refine R.statementRule_ok agrees (Or.inr fun hkind => ?_) h
    simpa [hkind] using hstrict

/-- Nothing that strict rules read is lost to the tree. -/
theorem strictLevel_builder (readFile : String → Option String) :
    ∀ n, (strictLevel readFile n).Builder False
  | 0 => spent_builder readFile fun _ _ _ _ _ _ _ _ _ h => (exhausted_ok h).elim
  | n + 1 =>
    have R := strictLevel_builder readFile n
    R.above (n + 1) R.strictStatement_ok

section Alike

variable {r r' : Rules} {known : List Place}

theorem strictStatement_follows (h : Alike (fun _ => True) r r') (context : Context) :
    Follows (fun _ => True) known (r.strictStatement context) (r'.statementRule context) := by
  intro s hs hknown
  have hmeets := h.statementRule_follows context s hs hknown
  unfold strictStatement
  split
  · exact ⟨hmeets.lands, Or.inr ⟨⟨s, rfl⟩, _, .refl _, trivial⟩⟩
  · exact hmeets

/-- Strict rules do as the rules of the level do, unless they give up. -/
theorem strictLevel_alike {readFile : String → Option String} {included : IncludeRule}
    (hincluded : ∀ context path source s,
      Hands s path source (included context (Script.ofSource path source) s)) :
    ∀ n, Alike (fun _ => True) (strictLevel readFile n) (level readFile included n)
  | 0 => {
      depth := Or.inl rfl
      readFile := rfl
      typeExpr := fun _ => exhausted_follows
      optExpr := fun _ _ => exhausted_follows
      optPrimary := fun _ _ _ => exhausted_follows
      node := fun _ => exhausted_follows
      block := fun _ _ => exhausted_follows
      statement := fun _ _ => exhausted_follows
      included := fun context path source s =>
        ⟨hincluded context path source s, Or.inr ⟨⟨s, rfl⟩, trivial⟩⟩ }
  | n + 1 =>
    have h := strictLevel_alike hincluded n
    { h.above (Or.inl rfl) with
      statement := fun context _ => strictStatement_follows h context }

end Alike

end Rules

namespace Entry

/-- What strict rules read from an entry point on, and the end of the text behind it. -/
def readStrictly (entry : Entry) (readFile : String → Option String) (script : Script) : Parse Tree :=
  let r := strictLevel readFile (levelFor script)
  Parser.toEnd <|
    match entry with
    | .statement => .statement <$> do
      let (found, _) ← r.strictStatement {}
      return found
    | entry => entry.construct r

variable {entry : Entry} {host : Host} {script : Script} {tree : Tree}

/-- What rules read from an entry point on, if they build what they read. -/
theorem construct_ok {r : Rules} (R : r.Builder lossy) (entry : Entry) (hentry : entry ≠ .statement)
    (h : entry.construct r s = .ok tree t) : TreeRead lossy s tree t := by
  cases entry with
  | program =>
    obtain ⟨program, hread, rfl⟩ := map_ok h
    exact R.program_ok hread
  | statement => exact (hentry rfl).elim
  | expression allowIn level =>
    obtain ⟨e, hread, rfl⟩ := map_ok h
    exact .node (R.exprRule_ok hread).builds
  | type =>
    obtain ⟨type, hread, rfl⟩ := map_ok h
    exact .node (R.typeExprRule_ok hread).builds

/-- A statement alone stands where a function body begins. -/
theorem statement_ok {read : Context → Parse Ended}
    (hread : ∀ {around c s statement ended t}, Situation.Agrees around c →
      read c s = .ok (statement, ended) t →
      BuildsIn lossy c.isConstructor true s [.statement around statement] t)
    (h : (Tree.statement <$> do
      let (found, _) ← read {}
      return found : Parse Tree) s = .ok tree t) : TreeRead lossy s tree t := by
  obtain ⟨statement, hmap, rfl⟩ := map_ok h
  obtain ⟨⟨found, ended⟩, u, hu, hdone⟩ := bind_ok hmap
  cases hdone
  exact .node (hread (Situation.Agrees.functionBody false) hu)

theorem toEnd_ok {construct : Parse Tree} (h : Parser.toEnd construct s = .ok tree t) :
    construct s = .ok tree t := by
  obtain ⟨value, u, hu, h⟩ := bind_ok h
  obtain ⟨_, v, hv, hdone⟩ := bind_ok h
  cases hdone
  obtain ⟨rfl, -⟩ := expectEnd_ok hv
  exact hu

theorem read_ok (h : entry.read (ofHost host script) s = .ok tree t) : TreeRead True s tree t := by
  have R := ofHost_builder host script
  have hread := toEnd_ok h
  by_cases hentry : entry = .statement
  · subst hentry
    exact statement_ok (fun agrees h => R.statementRule_ok agrees (Or.inl trivial) h) hread
  · exact construct_ok R entry hentry hread

theorem readStrictly_ok (h : entry.readStrictly host.readFile script s = .ok tree t) :
    TreeRead False s tree t := by
  have R := strictLevel_builder host.readFile (levelFor script)
  have hread := toEnd_ok h
  cases entry with
  | statement => exact statement_ok R.strictStatement_ok hread
  | program => exact construct_ok R .program nofun hread
  | expression allowIn level => exact construct_ok R (.expression allowIn level) nofun hread
  | type => exact construct_ok R .type nofun hread

/-- Unless they give up, strict rules read what the rules for the script read. -/
theorem readStrictly_eq (hs : s.Sound)
    (hstrict : ∀ t, entry.readStrictly host.readFile script s ≠ .error .exhausted t) :
    entry.readStrictly host.readFile script s = entry.read (ofHost host script) s := by
  have hinserting : Inserting (fun _ => True) (includeAt host.readFile host.includeDepth)
      (includeAt host.readFile host.includeDepth) := includeAt_inserting _ _
  have halike : Alike (fun _ => True) (strictLevel host.readFile (levelFor script))
      (ofHost host script) :=
    strictLevel_alike (fun context path source s => (hinserting context path source s).hands) _
  have hfollows : Follows (fun _ => True) [] (entry.readStrictly host.readFile script)
      (entry.read (ofHost host script)) := by
    cases entry with
    | statement =>
      refine toEnd_follows (Follows.map (α := Statement) ?_ fun _ => List.nil_subset _)
      exact .seq (strictStatement_follows halike {}) fun ⟨found, _⟩ => .pure found (List.nil_subset _)
    | program => exact read_follows halike .program
    | expression allowIn level => exact read_follows halike (.expression allowIn level)
    | type => exact read_follows halike .type
  exact (hfollows s hs nofun).agree.resolve_right fun ⟨⟨t, ht⟩, _⟩ => hstrict t ht

end Entry

namespace Parser

/-- From the entry point on, no inclusion is read and no item that is spread among decorators. -/
def ReadsStrictly (p : Parser) (entry : Entry) : Prop :=
  ∀ t, entry.readStrictly p.host.readFile p.script p.state ≠ .error .exhausted t

theorem ReadsStrictly.of_ok {p : Parser} {entry : Entry}
    (h : (match entry.readStrictly p.host.readFile p.script p.state with
      | .ok .. => true
      | .error .. => false) = true) : p.ReadsStrictly entry := by
  intro t ht
  rw [ht] at h
  cases h

/-- A call that answers has read its tree, and the script is valid. -/
theorem call_some {p q : Parser} {entry : Entry} {tree : Tree} (h : p.call entry = (some tree, q)) :
    p.script.isValid = true ∧ entry.read (ofHost p.host p.script) p.state = .ok tree q.state ∧
      q.script.isValid = true := by
  rw [call_eq] at h
  split at h
  · rename_i hvalid
    cases hread : entry.read (ofHost p.host p.script) p.state with
    | ok found t =>
      rw [hread] at h
      obtain ⟨hanswer, rfl⟩ := Prod.ext_iff.mp h
      dsimp only at hanswer
      split at hanswer
      · rename_i hvalid'
        cases hanswer
        exact ⟨hvalid, rfl, hvalid'⟩
      · cases hanswer
    | error stop t =>
      rw [hread] at h
      cases h
  · cases h

theorem ofScript_sound (host : Host) (path source : String) :
    (ofScript host (Script.ofSource path source)).state.Sound := by
  rw [ofScript_state]
  exact ((Walk.scan (.refl _)).sound (.ofSource path source)).1

/-- Where the script of a new parser is valid, its first token has been read. -/
theorem ofScript_next {host : Host} {path source : String}
    (hvalid : (ofScript host (Script.ofSource path source)).script.isValid = true) :
    (ParserState.ofScript (Script.ofSource path source)).scanner.next.1 = .ok () := by
  unfold Parser.script at hvalid
  rw [ofScript_state] at hvalid
  obtain ⟨_, _, _, -, -, he⟩ | ⟨failure, token, -, he⟩ :=
    (ParserState.ofScript (Script.ofSource path source)).scanner.next_cases
  · rw [he]
  · have hfailed : (ParserState.ofScript (Script.ofSource path source)).scanned.script.isValid = false := by
      show (ParserState.ofScript (Script.ofSource path source)).scanner.next.2.script.isValid = false
      rw [he]
      exact Script.collect_invalid _ rfl
    cases hvalid.symm.trans hfailed

theorem ofScript_ordered {host : Host} {path source : String}
    (hvalid : (ofScript host (Script.ofSource path source)).script.isValid = true) :
    (ofScript host (Script.ofSource path source)).state.Ordered := by
  rw [ofScript_state]
  exact (ParserState.Ordered.initial _).scanned (ofScript_next hvalid)

/-- What is read strictly is built, and nothing of it is lost. -/
theorem ReadsStrictly.treeRead {host : Host} {path source : String} {entry : Entry} {tree : Tree}
    {t : ParserState} (hstrict : (ofScript host (Script.ofSource path source)).ReadsStrictly entry)
    (h : entry.read (ofHost host (ofScript host (Script.ofSource path source)).script)
      (ofScript host (Script.ofSource path source)).state = .ok tree t) :
    TreeRead False (ofScript host (Script.ofSource path source)).state tree t :=
  Entry.readStrictly_ok ((Entry.readStrictly_eq (ofScript_sound host path source) hstrict).trans h)

end Parser

end Strict

end ActionSyntax
