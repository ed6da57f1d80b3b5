import ActionSyntax.Proofs.Building.Levels

/-!
Where the nodes of a tree lie in the text.
-/

namespace ActionSyntax

set_option autoImplicit false

namespace Piece

theorem Laid.laid_in {tokens : List Token} {p : Piece} (h : p.Laid tokens) {outer : Span}
    (hcovers : ∀ c ∈ tokens, outer.Covers c.span) : p.LaidIn tokens outer := by
  refine ⟨h, fun span hspan => ?_⟩
  obtain ⟨a, ha, b, hb, -, rfl, -⟩ := h.ends hspan
  have hfirst := hcovers a ha
  have hlast := hcovers b hb
  exact ⟨hfirst.start, hlast.stop, hfirst.firstLine, hlast.lastLine⟩

end Piece

/-- Some range covers all tokens that have been consumed. -/
theorem Paced.outer {s t : ParserState} {tokens : List Token} (h : Paced s tokens t) :
    ∃ outer : Span, ∀ c ∈ tokens, outer.Covers c.span := by
  by_cases hnil : tokens = []
  · exact ⟨default, by simp [hnil]⟩
  · obtain ⟨a, -, b, -, -, -, -, hcovers⟩ := h.ends hnil
    exact ⟨_, hcovers⟩

/-- What is finished behind the tokens goes from the first of them to the last, and covers all that
lies along them. -/
theorem Paced.whole {s t : ParserState} {tokens : List Token} {p : Piece} (h : Paced s tokens t)
    (hne : tokens ≠ []) (hends : p.span? = some (s.token.span.«to» t.previous.span))
    (hcovers : s.token.isKeyword "function" = true → p.CoversParameters) :
    (∀ span ∈ p.span?, p.Ends tokens span) ∧
      ∀ c : Piece, c.Laid tokens → ∀ outer ∈ p.span?, ∀ inner ∈ c.span?, outer.Covers inner := by
  obtain ⟨a, ha, b, hb, hle, hspan, hkind, hall⟩ := h.ends hne
  rw [hends, hspan]
  constructor
  · rintro span hs
    obtain rfl := Option.mem_some_iff.mp hs
    refine ⟨a, ha, b, hb, hle, rfl, fun hword => hcovers ?_⟩
    have hkeyword : a.kind = .keyword := by
      simp only [Token.isKeyword, Bool.and_eq_true, beq_iff_eq] at hword
      exact hword.1
    rwa [← hkind hkeyword]
  · rintro c hc outer ho inner hi
    obtain rfl := Option.mem_some_iff.mp ho
    exact (hc.laid_in hall).within inner hi

theorem ParserState.beside_collect (s : ParserState) (p : Problem) : s.Beside (s.collect p) :=
  ⟨rfl, rfl, rfl, rfl, rfl⟩

theorem Rules.beside_noteUse {op : Operator} {span : Span} {s t : ParserState}
    (h : Rules.noteUse op span s = .ok () t) : s.Beside t := by
  rcases Rules.noteUse_ok h with ⟨p, rfl, -⟩ | ⟨-, rfl⟩
  · exact s.beside_collect p
  · exact ⟨rfl, rfl, rfl, rfl, rfl⟩

theorem ParserState.beside_afterJump (s : ParserState) (around : Situation) (jump : Statement) :
    s.Beside (s.afterJump around jump) := by
  rcases s.afterJump_cases around jump with ⟨-, ht⟩ | ⟨p, -, ht⟩
  · rw [ht]
    exact .refl s
  · rw [ht]
    exact s.beside_collect p

theorem ParserState.beside_afterSuper (s : ParserState) (constructor : Bool) (span : Span) :
    s.Beside (s.afterSuper constructor span) := by
  rcases s.afterSuper_cases constructor span with ⟨-, ht⟩ | ⟨-, ht⟩
  · rw [ht]
    exact ⟨rfl, rfl, rfl, rfl, rfl⟩
  · rw [ht]
    exact s.beside_collect _

/-- Function types that begin with their keyword cover what their parameters cover. -/
theorem Piece.coversParameters {tokens : List Token} {span : Span} {params : List Identifier}
    {optional : Option (List Identifier)} {rest : Option Identifier} {result : Option TypeExpr}
    (h : ∀ id ∈ params ++ optional.getD [] ++ rest.toList, (Piece.identifier id).Laid tokens) :
    (Piece.type (.function span params optional rest result)).CoversParameters := by
  intro id hid type htype
  have hin := (h id hid).children_in rfl (fun _ h => h) rfl
  have hchild : Piece.type type ∈ (Piece.identifier id).children := by
    simpa [Piece.children, Identifier.children] using htype
  exact (hin _ hchild).within _ rfl

namespace BuildsIn

variable {lossy : Prop} {c a : Bool} {s t : ParserState} {ps : List Piece}

/-- All that is built lies along the tokens that are consumed meanwhile. -/
theorem laid (h : BuildsIn lossy c a s ps t) (hs : s.Ordered) :
    ∃ tokens, Consumes s tokens t ∧ (a = true → tokens ≠ []) ∧ ∀ p ∈ ps, p.Laid tokens := by
  induction h with
  | refl s => exact ⟨[], .refl s, nofun, by simp⟩
  | @next _ s more ok => exact ⟨[s.token], .next (.refl s) more ok, by simp, by simp⟩
  | @regular _ s slash ok => exact ⟨[], .regular (.refl s) slash ok, by simp, by simp⟩
  | @split _ s kind operator greater =>
    exact ⟨[Parse.firstGreater s.token], .split (.refl s) greater, by simp, by simp⟩
  | report s other => exact ⟨[], .beside (.refl s) ⟨rfl, rfl, rfl, rfl, rfl⟩, by simp, by simp⟩
  | weaken _ ih =>
    obtain ⟨tokens, hconsumes, -, hlaid⟩ := ih hs
    exact ⟨tokens, hconsumes, by simp, hlaid⟩
  | anywhere _ _ ih => exact ih hs
  | @seq _ a b s t u ps qs _ _ ih ih' =>
    obtain ⟨tokens, hconsumes, hne, hlaid⟩ := ih hs
    obtain ⟨more, hmore, hne', hlaid'⟩ := ih' (hconsumes.paced hs).ordered
    refine ⟨tokens ++ more, hconsumes.trans hmore, ?_, ?_⟩
    · cases a with
      | true => simp [hne]
      | false => simpa using fun hb _ => hne' hb
    · intro p hp
      rcases List.mem_append.mp hp with hp | hp
      · exact (hlaid p hp).mono (List.subset_append_left _ _)
      · exact (hlaid' p hp).mono (List.subset_append_right _ _)
  | rework _ reworks ih =>
    obtain ⟨tokens, hconsumes, hne, hlaid⟩ := ih hs
    obtain ⟨outer, houter⟩ := (hconsumes.paced hs).outer
    have hin := reworks.laid tokens outer fun p hp => (hlaid p hp).laid_in houter
    exact ⟨tokens, hconsumes, hne, fun q hq => (hin q hq).laid⟩
  | lose _ sub _ ih =>
    obtain ⟨tokens, hconsumes, hne, hlaid⟩ := ih hs
    exact ⟨tokens, hconsumes, hne, fun q hq => hlaid q (sub hq)⟩
  | @node _ s t p others _ plain _ ends _ covers ih =>
    obtain ⟨tokens, hconsumes, hne, hlaid⟩ := ih hs
    obtain ⟨hends, hwithin⟩ := (hconsumes.paced hs).whole (hne rfl) ends covers
    have hown : p.isInclusion = false := by
      cases p with
      | statement _ s => cases s <;> first | rfl | cases plain
      | _ => rfl
    have hchildren : ∀ c ∈ p.children, c.Laid tokens := fun c hc =>
      hlaid c (List.mem_append_left _ hc)
    refine ⟨tokens, hconsumes, hne, fun q hq => ?_⟩
    rcases List.mem_cons.mp hq with rfl | hq
    · exact .piece hown hends hchildren fun c hc _ => hwithin c (hchildren c hc)
    · exact hlaid q (List.mem_append_right _ hq)
  | @element _ s t _ _ _ _ e _ _ _ _ _ _ _ ends _ _ _ _ _ _ _ ih =>
    obtain ⟨tokens, hconsumes, hne, hlaid⟩ := ih hs
    obtain ⟨hends, hwithin⟩ := (hconsumes.paced hs).whole (hne rfl) (p := .expr e)
      (congrArg some ends) fun _ => trivial
    refine ⟨tokens, hconsumes, hne, fun q hq => ?_⟩
    obtain rfl := List.mem_singleton.mp hq
    exact .piece rfl hends hlaid fun c hc _ => hwithin c (hlaid c hc)
  | @functionType s t params optional rest result _ ih =>
    obtain ⟨tokens, hconsumes, hne, hlaid⟩ := ih hs
    have hids : ∀ id ∈ params ++ optional.getD [] ++ rest.toList,
        (Piece.identifier id).Laid tokens := fun id hid =>
      hlaid _ (List.mem_append_left _ (List.mem_map_of_mem hid))
    have hchildren : ∀ c ∈ (Piece.type (.function (s.token.span.«to» t.previous.span) params optional
        rest result)).children, c.Laid tokens := by
      intro c hc
      have hmem : (∃ id ∈ params ++ optional.getD [] ++ rest.toList, c = .parameter id) ∨
          c ∈ result.toList.map .type := by
        simp only [Piece.children, TypeExpr.children, List.mem_append, List.mem_map] at hc ⊢
        grind
      rcases hmem with ⟨id, hid, rfl⟩ | hmem
      · obtain ⟨outer, houter⟩ := (hconsumes.paced hs).outer
        refine ((Reworks.identifier id).laid tokens outer ?_ _ List.mem_cons_self).laid
        simpa using (hids id hid).laid_in houter
      · exact hlaid c (List.mem_append_right _ hmem)
    obtain ⟨hends, hwithin⟩ := (hconsumes.paced hs).whole (hne rfl)
      (p := .type (.function (s.token.span.«to» t.previous.span) params optional rest result)) rfl
      fun _ => Piece.coversParameters hids
    refine ⟨tokens, hconsumes, hne, fun q hq => ?_⟩
    obtain rfl := List.mem_singleton.mp hq
    exact .piece rfl hends hchildren fun c hc _ => hwithin c (hchildren c hc)
  | @front s t u op operand _ note ih =>
    obtain ⟨tokens, hconsumes, hne, hlaid⟩ := ih hs
    obtain ⟨hends, hwithin⟩ := (hconsumes.paced hs).whole (hne rfl)
      (p := .expr (.unary (s.token.span.«to» t.previous.span) op operand)) rfl fun _ => trivial
    refine ⟨tokens, hconsumes.beside (Rules.beside_noteUse note), hne, fun q hq => ?_⟩
    obtain rfl := List.mem_singleton.mp hq
    exact .piece rfl hends hlaid fun c hc _ => hwithin c (hlaid c hc)
  | @jump _ s t around jump _ isJump ends ih =>
    obtain ⟨tokens, hconsumes, hne, hlaid⟩ := ih hs
    obtain ⟨hends, -⟩ := (hconsumes.paced hs).whole (hne rfl) (p := .statement around jump)
      (congrArg some ends) fun _ => trivial
    have hchildren : (Piece.statement around jump).children = [] := jump.isJump_children isJump around
    have hown : (Piece.statement around jump).isInclusion = false := by
      cases jump <;> first | rfl | cases isJump
    refine ⟨tokens, hconsumes.beside (t.beside_afterJump around jump), hne, fun q hq => ?_⟩
    obtain rfl := List.mem_singleton.mp hq
    exact .piece hown hends (by simp [hchildren]) (by simp [hchildren])
  | @superCall c s t u around arguments _ _ ih ih' =>
    obtain ⟨tokens, hconsumes, hne, hlaid⟩ := ih hs
    obtain ⟨more, hmore, -, -⟩ := ih' (hconsumes.paced hs).ordered
    have hall := hconsumes.trans hmore
    obtain ⟨hends, hwithin⟩ := (hall.paced hs).whole (List.append_ne_nil_of_left_ne_nil (hne rfl) _)
      (p := .statement around (.superCall (s.token.span.«to» u.previous.span) arguments)) rfl
      fun _ => trivial
    refine ⟨tokens ++ more, hall.beside (u.beside_afterSuper c _), by simp [hne], fun q hq => ?_⟩
    obtain rfl := List.mem_singleton.mp hq
    have hchildren : ∀ x ∈ arguments.map Piece.expr, x.Laid (tokens ++ more) := fun x hx =>
      (hlaid x hx).mono (List.subset_append_left _ _)
    exact .piece rfl hends hchildren fun x hx _ => hwithin x (hchildren x hx)
  | @block _ s t around block _ ends ih =>
    have hfresh : s.Beside { s with superFound := false } := ⟨rfl, rfl, rfl, rfl, rfl⟩
    obtain ⟨tokens, hconsumes, hne, hlaid⟩ := ih (hs.beside hfresh)
    have hall := ((Consumes.refl s).beside hfresh).trans hconsumes
    obtain ⟨hends, hwithin⟩ := (hall.paced hs).whole (hne rfl) (p := .block around block)
      (congrArg some ends) fun _ => trivial
    refine ⟨tokens, hall.beside ⟨rfl, rfl, rfl, rfl, rfl⟩, hne, fun q hq => ?_⟩
    obtain rfl := List.mem_singleton.mp hq
    exact .piece rfl hends hlaid fun x hx _ => hwithin x (hlaid x hx)
  | @body _ a s t body _ ih =>
    have henter : s.Beside s.enter := ⟨rfl, rfl, rfl, rfl, rfl⟩
    obtain ⟨tokens, hconsumes, hne, hlaid⟩ := ih (hs.beside henter)
    refine ⟨tokens, ?_, hne, fun q hq => ?_⟩
    · exact ((Consumes.refl s).beside henter |>.trans hconsumes).beside ⟨rfl, rfl, rfl, rfl, rfl⟩
    · obtain rfl := List.mem_singleton.mp hq
      cases body with
      | none => exact .piece rfl (by simp [Piece.span?]) hlaid (by simp [Piece.span?])
      | some body =>
        have hbody := hlaid body.piece (by simp)
        have hspan : (Piece.body (t.functions.head?.getD {}) (some body)).span? =
            body.piece.span? := by cases body <;> rfl
        refine .piece rfl ?_ hlaid ?_
        · intro span hs
          obtain ⟨a, ha, b, hb, hle, heq, -⟩ := hbody.ends (hspan ▸ hs)
          exact ⟨a, ha, b, hb, hle, heq, fun _ => trivial⟩
        · intro c hc _ outer houter inner hinner
          obtain rfl : c = body.piece := by simpa [Piece.children] using hc
          rw [hspan] at houter
          obtain rfl : outer = inner := Option.mem_unique houter hinner
          exact .refl _
  | @included _ _ a s t first inner last around source child statements _ _ begins _ ih ihinside =>
    obtain ⟨tokens, hconsumes, hne, -⟩ := ih hs
    obtain ⟨hends, -⟩ := (hconsumes.paced hs).whole (hne rfl) (p := .statement around
      (.includeSource (s.token.span.«to» t.previous.span) source child statements)) rfl fun _ => trivial
    refine ⟨tokens, hconsumes.beside ⟨rfl, rfl, rfl, rfl, rfl⟩, hne, fun q hq => ?_⟩
    obtain rfl := List.mem_singleton.mp hq
    by_cases hnil : statements = []
    · subst hnil
      exact .included (hends _ rfl) (.refl _) (by simp)
    · obtain ⟨rfl, hok⟩ := begins hnil
      have hfirst := ParserState.Ordered.initial
        (.ofSource child.path (String.ofList child.content))
      obtain ⟨inside, hinside, -, hlaid⟩ := ihinside
        ((hfirst.scanned hok).beside ⟨rfl, rfl, rfl, rfl, rfl⟩)
      have hbeside : (ParserState.ofScript
          (.ofSource child.path (String.ofList child.content))).scanned.Beside
          (t.inside (.ofSource child.path (String.ofList child.content))).scanned :=
        ⟨rfl, rfl, rfl, rfl, rfl⟩
      exact .included (hends _ rfl) (((Consumes.refl _).beside hbeside).trans hinside) fun s hs =>
        hlaid _ (List.mem_map_of_mem hs)

end BuildsIn

/-- What a call reads lies along the tokens that it consumes: every node goes from the start of one of
them to the end of one at or behind it, and covers what stands in it, but for the type of a parameter
before an arrow and for bounds. An empty program covers the whole text. -/
theorem call_laid {host : Host} {path source : String} {entry : Entry} {tree : Tree} {q : Parser}
    (h : (Parser.ofScript host (Script.ofSource path source)).call entry = (some tree, q)) :
    ∃ tokens, Consumes (Parser.ofScript host (Script.ofSource path source)).state tokens q.state ∧
      (tree.piece.Laid tokens ∨ tree = .program ⟨q.script.fullSpan, [], []⟩) := by
  obtain ⟨hvalid, hread, -⟩ := Parser.call_some h
  have hordered := Parser.ofScript_ordered hvalid
  cases Entry.read_ok hread with
  | node hbuilds =>
    obtain ⟨tokens, hconsumes, -, hlaid⟩ := hbuilds.laid hordered
    exact ⟨tokens, hconsumes, Or.inl (hlaid _ List.mem_cons_self)⟩
  | empty hbuilds =>
    obtain ⟨tokens, hconsumes, -⟩ := hbuilds.laid hordered
    exact ⟨tokens, hconsumes, Or.inr rfl⟩

/-- The tree is a program with a statement. -/
def Tree.hasStatement : Tree → Bool
  | .program ⟨_, _, _ :: _⟩ => true
  | _ => false

/-- A program with a type and a call. -/
theorem call_laid_typed :
    let p := Parser.ofScript (Host.ofFiles []) (Script.ofSource "/m.es" "var a: [A, B] = f(x).y")
    ∃ tree q tokens, p.call .program = (some tree, q) ∧ Consumes p.state tokens q.state ∧
      tree.piece.Laid tokens := by
  intro p
  have hstatement : (p.call .program).1.any Tree.hasStatement = true := by decide +kernel
  cases hcall : p.call .program with
  | mk answer q =>
    rw [hcall] at hstatement
    obtain ⟨tree, rfl, hsome⟩ := (Option.any_eq_true _ _).mp hstatement
    obtain ⟨tokens, hconsumes, hlaid | rfl⟩ := call_laid hcall
    · exact ⟨tree, q, tokens, rfl, hconsumes, hlaid⟩
    · cases hsome

end ActionSyntax
