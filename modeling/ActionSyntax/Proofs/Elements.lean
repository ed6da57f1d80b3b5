import Mathlib
import ActionSyntax.Proofs.Spans

/-!
How elements are bracketed. The opening tag of an element begins with its name, its closing tag ends it,
and what stands in its attributes and children stands between the tags. So a closing tag closes the
innermost element that is open, and an empty one a list of nodes. It need not give the name of what it
closes: any name will do.
-/

namespace ActionSyntax

set_option autoImplicit false

namespace Piece

/-- Elements, and inclusions, in which there may be others. -/
def isBracketing (p : Piece) : Bool := p.isElement || p.isInclusion

/-- An element stands somewhere in the tokens, from its opening tag to its closing one. The elements in
its attributes stand in the opening tag, behind the name, and those in its children between the tags.
Included elements stand in the tokens of the included script. -/
inductive Bracketed : List Token → Piece → Prop
  | element {tokens opening marks inside ending : List Token} {less greater closing last : Token}
      {e : Expr} {attributes : List NodeAttribute} {children : List Expr} (before after : List Token)
      (made : e.Element opening attributes children ending)
      (tags : TagMarks less greater closing last) (span : e.span = less.span.«to» last.span)
      (stands : tokens = before ++ (less :: opening ++ marks ++ greater :: inside ++
        closing :: ending ++ [last]) ++ after)
      (attributed : ∀ q, Among true (attributes.map .attribute) q → q.isBracketing = true →
        Bracketed marks q)
      (filled : ∀ q, Among true (children.map .expr) q → q.isBracketing = true →
        Bracketed inside q) : Bracketed tokens (.expr e)
  | included {tokens inside : List Token} {around : Situation} {span : Span} {source : String}
      {child : Script} {statements : List Statement} {t : ParserState}
      (consumes : Consumes
        (ParserState.ofScript (.ofSource child.path (String.ofList child.content))).scanned inside t)
      (filled : ∀ q, Among true (statements.map (.statement around)) q → q.isBracketing = true →
        Bracketed inside q) :
      Bracketed tokens (.statement around (.includeSource span source child statements))

/-- All elements among the pieces stand in the tokens. -/
def AllBracketed (tokens : List Token) (ps : List Piece) : Prop :=
  ∀ q, Among true ps q → q.isBracketing = true → q.Bracketed tokens

theorem isNotable_of_isBracketing {p : Piece} (h : p.isBracketing = true) : p.isNotable = true := by
  cases p with
  | statement => rfl
  | expr e => cases e <;> first | rfl | simpa [isBracketing, isInclusion, isNotable] using h
  | _ => cases h

theorem not_isBracketing_of_isPlain {p : Piece} (h : p.isPlain = true) : p.isBracketing = false := by
  cases p with
  | statement around s => cases s <;> first | rfl | cases h
  | expr e =>
    cases e with
    | node span id attributes children => cases children <;> first | rfl | cases h
    | _ => first | rfl | cases h
  | _ => rfl

/-- More tokens may stand around those that an element stands in. -/
theorem Bracketed.amid {tokens : List Token} {p : Piece} (h : p.Bracketed tokens)
    (before after : List Token) : p.Bracketed (before ++ tokens ++ after) := by
  cases h with
  | element first last made tags span stands attributed filled =>
    refine .element (before ++ first) (last ++ after) made tags span ?_ attributed filled
    rw [stands]
    simp only [List.append_assoc]
  | included consumes filled => exact .included consumes filled

namespace AllBracketed

variable {tokens more : List Token} {ps qs : List Piece}

theorem nil (tokens : List Token) : AllBracketed tokens [] := fun _ h => (among_nil h).elim

theorem append (h : AllBracketed tokens ps) (h' : AllBracketed more qs) :
    AllBracketed (tokens ++ more) (ps ++ qs) := by
  intro q hq hbrackets
  rcases among_append.mp hq with hq | hq
  · exact (h q hq hbrackets).amid [] more
  · simpa using (h' q hq hbrackets).amid tokens []

/-- Only what brackets counts. -/
theorem congr (h : AllBracketed tokens ps)
    (hsame : ∀ q, q.isBracketing = true → Among true qs q → Among true ps q) :
    AllBracketed tokens qs := fun q hq hbrackets => h q (hsame q hbrackets hq) hbrackets

theorem typal (h : ∀ p ∈ ps, p.isTypal = true) : AllBracketed tokens ps := fun _ hq hbrackets =>
  (not_among_typal h (isNotable_of_isBracketing hbrackets) hq).elim

/-- A piece that brackets nothing itself. -/
theorem piece {p : Piece} (h : AllBracketed tokens p.children) (hp : p.isBracketing = false) :
    AllBracketed tokens [p] := by
  intro q hq hbrackets
  rcases among_cons.mp hq with ⟨-, rfl | hchild⟩ | hnil
  · cases hp.symm.trans hbrackets
  · exact h q hchild hbrackets
  · exact (among_nil hnil).elim

/-- An element out of what has been read one behind the other. -/
theorem element {e : Expr} {opening marks inside ending : List Token} {less greater closing last : Token}
    {attributes : List NodeAttribute} {children : List Expr}
    (made : e.Element opening attributes children ending) (tags : TagMarks less greater closing last)
    (span : e.span = less.span.«to» last.span)
    (attributed : AllBracketed marks (attributes.map .attribute))
    (filled : AllBracketed inside (children.map .expr)) :
    AllBracketed (less :: opening ++ marks ++ greater :: inside ++ closing :: ending ++ [last])
      [.expr e] := by
  intro q hq hbrackets
  rcases among_cons.mp hq with ⟨-, rfl | hchild⟩ | hnil
  · exact .element [] [] made tags span (by simp) attributed filled
  · rcases made.among (isNotable_of_isBracketing hbrackets) hchild with hin | hin
    · have hmarks := (attributed q hin hbrackets).amid (less :: opening)
        (greater :: inside ++ closing :: ending ++ [last])
      simpa using hmarks
    · have hinside := (filled q hin hbrackets).amid (less :: opening ++ marks ++ [greater])
        (closing :: ending ++ [last])
      simpa using hinside
  · exact (among_nil hnil).elim

end AllBracketed

end Piece

namespace BuildsIn

open Piece

variable {lossy : Prop} {c a : Bool} {s t : ParserState} {ps : List Piece}

/-- All elements that are built stand in the tokens that are consumed meanwhile. -/
theorem bracketed (h : BuildsIn lossy c a s ps t) :
    ∃ tokens, Consumes s tokens t ∧ AllBracketed tokens ps := by
  induction h with
  | refl s => exact ⟨[], .refl s, .nil _⟩
  | next more ok => exact ⟨_, .next (.refl _) more ok, .nil _⟩
  | regular slash ok => exact ⟨_, .regular (.refl _) slash ok, .nil _⟩
  | split greater => exact ⟨_, .split (.refl _) greater, .nil _⟩
  | report s => exact ⟨[], .beside (.refl s) ⟨rfl, rfl, rfl, rfl, rfl⟩, .nil _⟩
  | weaken _ ih | anywhere _ _ ih => exact ih
  | seq _ _ ih ih' =>
    obtain ⟨tokens, hconsumes, hall⟩ := ih
    obtain ⟨more, hmore, hall'⟩ := ih'
    exact ⟨tokens ++ more, hconsumes.trans hmore, hall.append hall'⟩
  | rework _ reworks ih =>
    obtain ⟨tokens, hconsumes, hall⟩ := ih
    exact ⟨tokens, hconsumes, hall.congr fun q hq =>
      (reworks.among true q (isNotable_of_isBracketing hq)).mp⟩
  | lose _ sub _ ih =>
    obtain ⟨tokens, hconsumes, hall⟩ := ih
    exact ⟨tokens, hconsumes, hall.congr fun q _ hin => hin.mono sub⟩
  | @node _ s t p others _ plain _ _ _ _ ih =>
    obtain ⟨tokens, hconsumes, hall⟩ := ih
    refine ⟨tokens, hconsumes, hall.congr fun q hq hin => ?_⟩
    have hself : q ≠ p := by
      rintro rfl
      cases (not_isBracketing_of_isPlain plain).symm.trans hq
    simpa [entered_of_isPlain plain, hself] using hin
  | element _ ends made marks name _ opened _ closed _ ihmarks ihinside =>
    obtain ⟨attributes, hattributes, hattributed⟩ := ihmarks
    obtain ⟨inside, hinside, hfilled⟩ := ihinside
    have hconsumes := (((name.trans hattributes).trans opened).trans hinside).trans closed
    refine ⟨_, ?_, .element made marks ends hattributed hfilled⟩
    simpa using hconsumes
  | functionType _ ih =>
    obtain ⟨tokens, hconsumes, -⟩ := ih
    exact ⟨tokens, hconsumes, .typal (isTypal_type _)⟩
  | front _ note ih =>
    obtain ⟨tokens, hconsumes, hall⟩ := ih
    exact ⟨tokens, hconsumes.beside (Rules.beside_noteUse note), hall.piece rfl⟩
  | @jump _ s t around jump _ isJump _ ih =>
    obtain ⟨tokens, hconsumes, -⟩ := ih
    refine ⟨tokens, hconsumes.beside (t.beside_afterJump around jump), .piece ?_ ?_⟩
    · rw [show (Piece.statement around jump).children = [] from jump.isJump_children isJump around]
      exact .nil _
    · cases jump <;> first | rfl | cases isJump
  | @superCall c s t u _ _ _ _ ih ih' =>
    obtain ⟨tokens, hconsumes, hall⟩ := ih
    obtain ⟨more, hmore, -⟩ := ih'
    refine ⟨tokens ++ more, (hconsumes.trans hmore).beside (u.beside_afterSuper c _), .piece ?_ rfl⟩
    simpa [children, Statement.children] using hall.append (.nil more)
  | @block _ s t _ _ _ _ ih =>
    obtain ⟨tokens, hconsumes, hall⟩ := ih
    have hfresh : s.Beside { s with superFound := false } := ⟨rfl, rfl, rfl, rfl, rfl⟩
    have hbehind := ((Consumes.refl s).beside hfresh).trans hconsumes
    exact ⟨tokens, hbehind.beside ⟨rfl, rfl, rfl, rfl, rfl⟩, hall.piece rfl⟩
  | @body _ _ s _ _ _ ih =>
    obtain ⟨tokens, hconsumes, hall⟩ := ih
    have henter : s.Beside s.enter := ⟨rfl, rfl, rfl, rfl, rfl⟩
    have hbehind := ((Consumes.refl s).beside henter).trans hconsumes
    exact ⟨tokens, hbehind.beside ⟨rfl, rfl, rfl, rfl, rfl⟩, hall.piece rfl⟩
  | @included _ _ _ s t first inner last around source child statements _ _ begins _ ih ihinside =>
    obtain ⟨tokens, hconsumes, -⟩ := ih
    refine ⟨tokens, hconsumes.beside ⟨rfl, rfl, rfl, rfl, rfl⟩, fun q hq hbrackets => ?_⟩
    obtain rfl : q = .statement around
        (.includeSource (s.token.span.«to» t.previous.span) source child statements) := by
      simpa [entered, children, Statement.children] using hq
    by_cases hnil : statements = []
    · subst hnil
      exact .included (.refl _) (by simp)
    · obtain ⟨rfl, -⟩ := begins hnil
      obtain ⟨inside, hinside, hall⟩ := ihinside
      have hbeside : (ParserState.ofScript
          (.ofSource child.path (String.ofList child.content))).scanned.Beside
          (t.inside (.ofSource child.path (String.ofList child.content))).scanned :=
        ⟨rfl, rfl, rfl, rfl, rfl⟩
      exact .included (((Consumes.refl _).beside hbeside).trans hinside) hall

end BuildsIn

/-- In all that a call reads, elements are bracketed: whichever stand in the tree, also in the bodies of
functions, in attributes and in inclusions, stand in the tokens from their opening tags, which give their
names, to their closing ones, which give any names, or none if they are lists of nodes. -/
theorem call_bracketed {host : Host} {path source : String} {entry : Entry} {tree : Tree} {q : Parser}
    (h : (Parser.ofScript host (Script.ofSource path source)).call entry = (some tree, q)) :
    ∃ tokens, Consumes (Parser.ofScript host (Script.ofSource path source)).state tokens q.state ∧
      ∀ p, tree.piece.Holds true p → p.isBracketing = true → p.Bracketed tokens := by
  obtain ⟨-, hread, -⟩ := Parser.call_some h
  cases Entry.read_ok hread with
  | node hbuilds =>
    obtain ⟨tokens, hconsumes, hall⟩ := hbuilds.bracketed
    have hentered : tree.piece.entered true = true := by cases tree <;> rfl
    exact ⟨tokens, hconsumes, fun p hp =>
      hall p ⟨_, List.mem_cons_self, hentered, hp⟩⟩
  | empty hbuilds =>
    obtain ⟨tokens, hconsumes, -⟩ := hbuilds.bracketed
    refine ⟨tokens, hconsumes, fun p hp hbrackets => ?_⟩
    obtain rfl : p = _ := by simpa [Piece.holds_iff, Tree.piece, Piece.children] using hp
    cases hbrackets

/-- An element found in the only attribute of another, and one between its tags. -/
theorem Tree.nested_of_found {answer : Option Tree} (h : (match answer with
    | some (.expression (.node _ _ [⟨_, _, some inner⟩] (some [d]))) =>
      (Piece.expr inner).isElement && (Piece.expr d).isElement
    | _ => false) = true) :
    ∃ outer id place x inner d,
      answer = some (.expression (.node outer id [⟨place, x, some inner⟩] (some [d]))) ∧
      (Piece.expr inner).isElement = true ∧ (Piece.expr d).isElement = true := by
  split at h
  · obtain ⟨hinner, hd⟩ := Bool.and_eq_true_iff.mp h
    exact ⟨_, _, _, _, _, _, rfl, hinner, hd⟩
  · cases h

/-- A node in an attribute and one between the tags of another. -/
theorem call_bracketed_nested :
    let p := Parser.ofScript (Host.ofFiles [])
      (Script.ofSource "test.es" "<a:b x=\x7b<c></c>\x7d><d></e></a:b>")
    ∃ outer id place x inner d q tokens,
      p.call (.expression true .list) = (some (.expression
        (.node outer id [⟨place, x, some inner⟩] (some [d]))), q) ∧
      Consumes p.state tokens q.state ∧ (Piece.expr inner).isElement = true ∧
      (Piece.expr d).isElement = true ∧
      ∀ e ∈ [.node outer id [⟨place, x, some inner⟩] (some [d]), inner, d],
        (Piece.expr e).Bracketed tokens := by
  intro p
  obtain ⟨outer, id, place, x, inner, d, hanswer, hinner, hd⟩ :=
    @Tree.nested_of_found (p.call (.expression true .list)).1 (by decide +kernel)
  cases hcall : p.call (.expression true .list) with
  | mk answer q =>
    rw [hcall] at hanswer
    obtain rfl : answer = _ := hanswer
    obtain ⟨tokens, hconsumes, hall⟩ := call_bracketed hcall
    refine ⟨outer, id, place, x, inner, d, q, tokens, rfl, hconsumes, hinner, hd, ?_⟩
    have hattribute : Piece.attribute ⟨place, x, some inner⟩ ∈
        (Piece.expr (.node outer id [⟨place, x, some inner⟩] (some [d]))).children := by
      simp [Piece.children, Expr.children]
    have hchild : Piece.expr d ∈
        (Piece.expr (.node outer id [⟨place, x, some inner⟩] (some [d]))).children := by
      simp [Piece.children, Expr.children]
    have hvalue : Piece.expr inner ∈ (Piece.attribute ⟨place, x, some inner⟩).children := by
      simp [Piece.children]
    simp only [List.forall_mem_cons, List.not_mem_nil, false_imp_iff, implies_true, and_true]
    refine ⟨hall _ (.self _) rfl, hall _ ?_ ?_, hall _ ?_ ?_⟩
    · exact .inside hattribute rfl (.inside hvalue rfl (.self _))
    · simp [Piece.isBracketing, hinner]
    · exact .inside hchild rfl (.self _)
    · simp [Piece.isBracketing, hd]

/-- The state behind some more tokens. -/
def ParserState.ahead (s : ParserState) : Nat → ParserState
  | 0 => s
  | n + 1 => (s.ahead n).advance

theorem Consumes.ahead {s : ParserState} {n : Nat}
    (h : ∀ i < n, (s.ahead i).token.kind ≠ .endOfProgram ∧ (s.ahead i).scanner.next.1 = .ok ()) :
    Consumes s ((List.range n).map fun i => (s.ahead i).token) (s.ahead n) := by
  induction n with
  | zero => exact .refl s
  | succ n ih =>
    obtain ⟨more, ok⟩ := h n (Nat.lt_succ_self n)
    rw [List.range_succ, List.map_append]
    exact (ih fun i hi => h i (hi.trans (Nat.lt_succ_self n))).next more ok

/-- A closing tag that gives another name than the opening one. -/
theorem call_bracketed_otherwise :
    let p := Parser.ofScript (Host.ofFiles []) (Script.ofSource "test.es" "<a></b>")
    ∃ e q less name greater closing other last,
      p.call (.expression true .list) = (some (.expression e), q) ∧
      Consumes p.state [less, name, greater, closing, other, last] q.state ∧
      e.Element [name] [] [] [other] ∧ TagMarks less greater closing last ∧
      name.text = "a" ∧ other.text = "b" ∧
      ¬ ∃ names, TagName [name] names ∧ TagName [other] names := by
  intro p
  have hanswer : (p.call (.expression true .list)).1 = some (.expression (.node ⟨1, 1, 0, 7⟩
      (.identifier ⟨⟨1, 1, 1, 2⟩, "a", none⟩) [] (some []))) := by
    subst p
    cbv
  have hstate : (p.call (.expression true .list)).2.state = p.state.ahead 6 := by
    subst p
    cbv
  have htokens : ∀ s : ParserState, (List.range 6).map (fun i => (s.ahead i).token) =
      [(s.ahead 0).token, (s.ahead 1).token, (s.ahead 2).token, (s.ahead 3).token,
        (s.ahead 4).token, (s.ahead 5).token] := fun _ => rfl
  have hconsumes : Consumes p.state _ (p.state.ahead 6) := .ahead (by decide +kernel)
  rw [htokens, ← hstate] at hconsumes
  have hmarks : TagMarks (p.state.ahead 0).token (p.state.ahead 2).token (p.state.ahead 3).token
      (p.state.ahead 5).token :=
    ⟨by decide +kernel, by decide +kernel, by decide +kernel, by decide +kernel⟩
  have hname : (p.state.ahead 1).token.kind = .identifier ∧ (p.state.ahead 1).token.text = "a" := by
    decide +kernel
  have hother : (p.state.ahead 4).token.kind = .identifier ∧ (p.state.ahead 4).token.text = "b" := by
    decide +kernel
  generalize p.state.ahead 1 = name, p.state.ahead 4 = other at *
  have hopens : TagName [name.token] ["a"] := hname.2 ▸ .name hname.1
  generalize p.call (.expression true .list) = answer at *
  obtain ⟨tree, q⟩ := answer
  obtain rfl : tree = _ := hanswer
  refine ⟨_, q, _, _, _, _, _, _, rfl, hconsumes, .node rfl hopens (.name hother.1), hmarks, hname.2,
    hother.2, ?_⟩
  rintro ⟨names, hfirst, hsecond⟩
  have hnames := hfirst.single.symm.trans hsecond.single
  rw [hname.2, hother.2] at hnames
  exact absurd hnames (by decide)

end ActionSyntax
