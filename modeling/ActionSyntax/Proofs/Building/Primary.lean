import ActionSyntax.Proofs.Building.Functions
import ActionSyntax.Grammar.Primary

/-!
What is built of node literals and of what expressions begin with.
-/

namespace ActionSyntax

set_option autoImplicit false

open Parse Setting Rules

section Names

variable {lossy : Prop} {s t u : ParserState}

/-- An identifier that stands for an expression. -/
theorem Whole.exprRead {id : Identifier} (h : Whole lossy s (.identifier id) t) :
    ExprRead lossy s (.identifier id) t := ⟨⟨.whole h.builds h.ends
      ⟨rfl, trivial, trivial⟩, h.ends⟩, trivial⟩

/-- Tokens are consumed that spell a name. -/
structure Spelled (lossy : Prop) (s : ParserState) (names : List String) (t : ParserState) : Prop where
  builds : Builds lossy true s [] t
  spells : ∃ tokens, Consumes s tokens t ∧ TagName tokens names

/-- Another part of the name. -/
theorem Spelled.part {v w : ParserState} {names : List String} (h : Spelled lossy s names u)
    (hcolon : Consumed lossy u v) (colon : u.token.kind = .colon) (hname : Consumed lossy v w)
    (kind : v.token.kind = .identifier) : Spelled lossy s (names ++ [v.token.text]) w := by
  obtain ⟨tokens, hconsumes, hspells⟩ := h.spells
  refine ⟨h.builds.skip (hcolon.builds.skip hname.builds), _, ?_, hspells.part colon kind⟩
  exact hconsumes.trans (hcolon.consumes.trans hname.consumes)

/-- The expression that names a node is read, as the tokens spell it. -/
structure NameRead (lossy : Prop) (s : ParserState) (e : Expr) (t : ParserState) : Prop extends
    ExprRead lossy s e t where
  spelled : ∃ names, e.tagName? = some names ∧ Spelled lossy s names t

theorem Parse.identifier_nameRead {id : Identifier} (h : identifier s = .ok id t) :
    NameRead lossy s (.identifier id) t := by
  have hwhole : Whole lossy s (.identifier id) t := identifier_ok h
  obtain ⟨hread, hkind, hname, htype⟩ := identifier_named lossy h
  obtain ⟨span, name, type⟩ := id
  subst hname htype
  exact ⟨hwhole.exprRead, _, rfl, hread.builds, _, hread.consumes, .name hkind⟩

theorem Rules.tagName_ok {r : Rules} {fuel : Nat} {base e : Expr} (hbase : NameRead lossy s base u)
    (h : r.tagName fuel base u = .ok e t) : NameRead lossy s e t := by
  induction fuel generalizing base u with
  | zero => exact (exhausted_ok h).elim
  | succ fuel ih =>
    rcases bind_if lossy (proper_kind (by decide)) h with ⟨v, hv, hcolon, h⟩ | h
    · obtain ⟨id, w, hw, h⟩ := bind_ok h
      rw [hbase.mark] at h
      have hread := hbase.builds.seq (hv.builds.skip (identifier_ok hw).builds)
      have hlonger : ExprRead lossy s (.member _ base id false) w := ⟨⟨.whole hread
        rfl ⟨rfl, trivial, trivial⟩, rfl⟩, trivial⟩
      obtain ⟨hpart, hkind, hname, htype⟩ := identifier_named lossy hw
      obtain ⟨names, hnames, hspelled⟩ := hbase.spelled
      refine ih ⟨hlonger, names ++ [v.token.text], ?_, ?_⟩ h
      · obtain ⟨span, name, type⟩ := id
        subst hname htype
        simp [Expr.tagName?, hnames]
      · exact hspelled.part hv (eq_of_beq hcolon) hpart hkind
    · cases h
      exact hbase

/-- The name goes on for as long as there are colons. -/
theorem Spelled.parts {fuel : Nat} {found names : List String} (h : Spelled lossy s names u)
    (hfound : collectWhile (do if ← consume .colon then some <$> expectName else return none) fuel u =
      .ok found t) : ∃ names, Spelled lossy s names t := by
  induction fuel generalizing names u found with
  | zero => exact (exhausted_ok hfound).elim
  | succ fuel ih =>
    obtain ⟨part, v, hv, hfound⟩ := bind_ok hfound
    rcases bind_if lossy (proper_kind (by decide)) hv with ⟨w, hw, hcolon, hv⟩ | hv
    · obtain ⟨name, hname, rfl⟩ := map_ok hv
      obtain ⟨more, x, hx, hfound⟩ := bind_ok hfound
      cases hfound
      obtain ⟨hread, hkind⟩ := expectName_ok hname
      exact ih (h.part hw (eq_of_beq hcolon) hread hkind) hx
    · cases hv
      cases hfound
      exact ⟨names, h⟩

/-- The name in a closing tag is any name. -/
theorem Rules.closingName_ok {r : Rules} (h : r.closingName s = .ok () t) :
    ∃ names, Spelled lossy s names t := by
  obtain ⟨name, u, hu, h⟩ := bind_ok h
  obtain ⟨parts, v, hv, h⟩ := bind_ok h
  cases h
  obtain ⟨hfirst, hkind⟩ := expectName_ok hu
  have hname : Spelled lossy s [s.token.text] u :=
    ⟨hfirst.builds, _, hfirst.consumes, .name hkind⟩
  exact hname.parts hv

/-- A regular expression is read again from the slash that begins it. -/
theorem Rules.regularExpression_ok {e : Expr} (slash : beginsRegularExpression s.token = true)
    (h : regularExpression (Mark.ofSpan s.token.span) s = .ok e t) : ExprRead lossy s e t := by
  obtain ⟨_, u, hu, h⟩ := bind_ok h
  rw [scanRegular_apply] at hu
  rcases s.scanner.readRegularExpression_cases with ⟨body, flags, stop, -, -, he⟩ | ⟨failure, he⟩
  · have hok : s.scanner.readRegularExpression.1 = .ok () := by rw [he]
    have hkind : s.advanceRegular.token.kind = .regularExpression := by
      unfold ParserState.advanceRegular ParserState.token
      rw [he]
    rw [hok] at hu
    cases hu
    obtain ⟨v, hv, h⟩ := bind_next lossy (by simp [hkind]) h
    cases h
    exact ⟨⟨.whole ((BuildsIn.regular slash hok).skip hv.builds)
      rfl ⟨rfl, trivial, trivial⟩, rfl⟩, trivial⟩
  · rw [he] at hu
    cases hu

end Names

namespace Rules.Builder

variable {lossy : Prop} {r : Rules} (R : r.Builder lossy) {s t u : ParserState}
include R

section Nodes

theorem bracedExpr_ok {e : Expr} (h : r.bracedExpr s = .ok e t) :
    Builds lossy true s [.expr e] t := by
  obtain ⟨found, u, hu, h⟩ := bind_ok h
  obtain ⟨v, hv, -, h⟩ := bind_expect lossy (proper_kind (by decide)) h
  cases h
  exact (R.expr_ok hu).builds.close hv.builds

/-- A child of a node, in front of the closing tag. -/
theorem nodeChild?_some {e : Expr} (h : r.nodeChild? s = .ok (some e) t) :
    Builds lossy false s [.expr e] t := by
  rcases bind_if lossy (proper_kind (by decide)) h with ⟨u, hu, -, h⟩ | h
  · cases h
  rw [at?_bind] at h
  split at h
  · rename_i hbrace
    rw [mark_bind] at h
    obtain ⟨u, hu, h⟩ := bind_next lossy (by simp [eq_of_beq hbrace]) h
    obtain ⟨e, v, hv, h⟩ := bind_ok h
    cases h
    exact (BuildsIn.whole (p := .expr (.spread _ e)) (hu.builds.skip (R.bracedExpr_ok hv))
      rfl ⟨rfl, trivial, trivial⟩).weaken
  · obtain ⟨e, u, hu, h⟩ := bind_ok h
    cases h
    exact (R.node hu).builds.weaken

omit R in
/-- Where there are no more children, a closing tag has begun. -/
theorem nodeChild?_none (h : r.nodeChild? s = .ok none t) :
    Consumed lossy s t ∧ s.token.kind = .closingTag := by
  rcases bind_if lossy (proper_kind (by decide)) h with ⟨u, hu, hclosing, h⟩ | h
  · cases h
    exact ⟨hu, eq_of_beq hclosing⟩
  rw [at?_bind] at h
  split at h
  · rw [mark_bind] at h
    obtain ⟨_, u, -, h⟩ := bind_ok h
    obtain ⟨e, v, -, h⟩ := bind_ok h
    cases h
  · obtain ⟨e, u, -, h⟩ := bind_ok h
    cases h

theorem nodeChildren_ok {children : List Expr} (h : r.nodeChildren s = .ok children t) :
    ∃ u, Builds lossy false s (children.map .expr) u ∧ Consumed lossy u t ∧
      u.token.kind = .closingTag := by
  rw [List.map_eq_flatMap]
  exact collectWhile_until (fun h => R.nodeChild?_some h) (fun h => nodeChild?_none h) h

theorem attributeValue_ok {e : Expr} (h : r.attributeValue s = .ok e t) :
    Builds lossy true s [.expr e] t := by
  rcases bind_if lossy (proper_kind (by decide)) h with ⟨u, hu, -, h⟩ | h
  · exact hu.builds.skip (R.bracedExpr_ok h)
  · exact (R.primary_ok h).builds

theorem optAttributeValue_ok {value : Option Expr} (h : r.optAttributeValue s = .ok value t) :
    Builds lossy false s (value.toList.map .expr) t := by
  rcases bind_if lossy (proper_kind (by decide)) h with ⟨u, hu, -, h⟩ | h
  · obtain ⟨e, v, hv, h⟩ := bind_ok h
    cases h
    exact (hu.builds.skip (R.attributeValue_ok hv)).weaken
  · cases h
    exact .refl _

theorem nodeAttribute?_ok {found : Option NodeAttribute} (h : r.nodeAttribute? s = .ok found t) :
    Builds lossy false s (found.toList.map .attribute) t := by
  unfold nodeAttribute? at h
  rw [atOperator?_bind] at h
  split at h
  · cases h
    exact .refl _
  rw [atOperator?_bind] at h
  split at h
  · cases h
    exact .refl _
  rw [mark_bind] at h
  obtain ⟨id, u, hu, h⟩ := bind_ok h
  obtain ⟨value, v, hv, h⟩ := bind_ok h
  cases h
  exact (BuildsIn.whole (p := .attribute _)
    ((identifier_ok hu).builds.seq (R.optAttributeValue_ok hv)) rfl ⟨rfl, trivial, trivial⟩).weaken

/-- The children of an element and its closing tag are read, from the end of the opening tag on. -/
structure Enclosed (lossy : Prop) (s inside : ParserState) (children : List Expr)
    (behind : ParserState) (ending : List Token) (t : ParserState) : Prop where
  marks : ∀ {less : Token}, less.isOperator .less = true →
    TagMarks less s.token behind.token t.previous
  opened : Consumed lossy s inside
  filled : Builds lossy false inside (children.map .expr) behind
  closed : Consumes behind (behind.token :: ending ++ [t.previous]) t
  closes : Builds lossy true behind [] t

omit R in
theorem Enclosed.builds {inside behind : ParserState} {children : List Expr} {ending : List Token}
    (h : Enclosed lossy s inside children behind ending t) :
    Builds lossy true s (children.map .expr) t :=
  h.opened.builds.skip (h.filled.close h.closes)

omit R in
/-- The closing tag ends with `>`. -/
theorem Enclosed.ended {inside behind first last : ParserState} {children : List Expr}
    {ending : List Token} (greater : s.token.isOperator .greater = true)
    (opened : Consumed lossy s inside) (filled : Builds lossy false inside (children.map .expr) behind)
    (closing : behind.token.kind = .closingTag) (begun : Consumed lossy behind first)
    (name : Builds lossy false first [] last) (spells : Consumes first ending last)
    (greater' : last.token.isOperator .greater = true) (ended : Consumed lossy last t) :
    Enclosed lossy s inside children behind ending t where
  marks less := ⟨less, greater, closing, ended.previous ▸ greater'⟩
  opened := opened
  filled := filled
  closed := by
    rw [ended.previous]
    exact (begun.consumes.trans spells).trans ended.consumes
  closes := begun.builds.skip (name.skip ended.builds)

omit R in
/-- An element is read, up to its closing tag. -/
theorem Enclosed.exprRead {v inside behind : ParserState} {e : Expr} {opening ending : List Token}
    {attributes : List NodeAttribute} {children : List Expr}
    (h : Enclosed lossy v inside children behind ending t)
    (made : e.Element opening attributes children ending)
    (ends : e.span = s.token.span.«to» t.previous.span)
    (less : s.token.isOperator .less = true) (name : Consumes s (s.token :: opening) u)
    (attributed : Builds lossy false u (attributes.map .attribute) v)
    (builds : Builds lossy true s (Piece.expr e).children t) : ExprRead lossy s e t where
  builds := .element builds ends made (h.marks less) name attributed h.opened.consumes h.filled h.closed
  ends := congrArg some ends
  tight := by cases made <;> trivial

/-- A node closes itself, or its children and its closing tag are read. -/
theorem nodeBody_ok {children : Option (List Expr)} (h : r.nodeBody s = .ok children t) :
    Builds lossy true s ((children.getD []).map .expr) t ∧
      ∀ found ∈ children, ∃ inside behind ending names,
        Enclosed lossy s inside found behind ending t ∧ TagName ending names := by
  rcases bind_if lossy (proper_operator _) h with ⟨u, hu, -, h⟩ | h
  · obtain ⟨v, hv, -, h⟩ := bind_expect lossy (proper_operator _) h
    cases h
    exact ⟨hu.builds.skip hv.builds, nofun⟩
  obtain ⟨u, hu, hgreater, h⟩ := bind_expect lossy (proper_operator _) h
  obtain ⟨found, v, hv, h⟩ := bind_ok h
  obtain ⟨_, w, hw, h⟩ := bind_ok h
  obtain ⟨x, hx, hgreater', h⟩ := bind_expect lossy (proper_operator _) h
  cases h
  obtain ⟨behind, hfilled, hclose, hclosing⟩ := R.nodeChildren_ok hv
  obtain ⟨names, hnames⟩ := closingName_ok hw
  obtain ⟨ending, hending, hspells⟩ := hnames.spells
  have henclosed : Enclosed lossy s u found behind ending t :=
    .ended hgreater hu hfilled hclosing hclose hnames.builds.weaken hending hgreater' hx
  refine ⟨henclosed.builds, ?_⟩
  rintro _ ⟨⟩
  exact ⟨u, behind, ending, names, henclosed, hspells⟩

theorem nodeRule_ok {outermost : Bool} {e : Expr} (h : r.nodeRule outermost s = .ok e t) :
    ExprRead lossy s e t := by
  unfold nodeRule at h
  rw [mark_bind] at h
  obtain ⟨u, hu, hless, h⟩ := bind_expect lossy (proper_operator _) h
  rcases bind_allowed lossy (proper_operator _) h with ⟨v, ⟨-, hgreater⟩, hv, h⟩ | h
  · obtain ⟨children, w, hw, h⟩ := bind_ok h
    obtain ⟨x, hx, hgreater', h⟩ := bind_expect lossy (proper_operator _) h
    cases h
    obtain ⟨behind, hfilled, hclose, hclosing⟩ := R.nodeChildren_ok hw
    have henclosed : Enclosed lossy u v children behind [] t :=
      .ended hgreater hv hfilled hclosing hclose (.refl _) (.refl _) hgreater' hx
    exact henclosed.exprRead .list rfl hless hu.consumes (.refl _) (hu.builds.skip henclosed.builds)
  obtain ⟨first, w, hw, h⟩ := bind_ok h
  obtain ⟨id, x, hx, h⟩ := bind_ok h
  obtain ⟨attributes, y, hy, h⟩ := bind_ok h
  obtain ⟨children, z, hz, h⟩ := bind_ok h
  cases h
  have hid : NameRead lossy u id x := tagName_ok (identifier_nameRead hw) hx
  have hattributes : Builds lossy false x (attributes.map .attribute) y :=
    collectWhile_each (fun h => R.nodeAttribute?_ok h) hy
  obtain ⟨hbody, henclosed⟩ := R.nodeBody_ok hz
  have hread := hu.builds.skip (hid.builds.seq (hattributes.seq hbody))
  cases children with
  | none => exact ⟨⟨.whole hread rfl ⟨rfl, trivial, trivial⟩, rfl⟩, trivial⟩
  | some children =>
    obtain ⟨inside, behind, ending, others, henclosed, hcloses⟩ := henclosed children rfl
    obtain ⟨names, hnamed, hspelled⟩ := hid.spelled
    obtain ⟨opening, hopening, hopens⟩ := hspelled.spells
    exact henclosed.exprRead (.node hnamed hopens hcloses) rfl hless (hu.consumes.trans hopening)
      hattributes hread

end Nodes

section Continuations

/-- The arguments, and then the closing parenthesis. -/
theorem argumentList_ok {items : List Expr} (h : r.arguments s = .ok items t) :
    ∃ u, Builds lossy false s (items.map .expr) u ∧ Builds lossy true u [] t := by
  obtain ⟨found, u, hu, h⟩ := bind_ok h
  obtain ⟨v, hv, -, h⟩ := bind_expect lossy (proper_kind (by decide)) h
  cases h
  exact ⟨u, separatedUntil_each (fun h => (R.assignmentExpr_ok h).builds) hu, hv.builds⟩

theorem arguments_ok {items : List Expr} (h : r.arguments s = .ok items t) :
    Builds lossy true s (items.map .expr) t := by
  obtain ⟨u, hitems, hclosed⟩ := R.argumentList_ok h
  exact hitems.close hclosed

variable {base e : Expr} {optional : Bool} (hu : Builds lossy true s [.expr base] u)
include hu

theorem dotContinuation_ok (h : r.dotContinuation (Mark.ofSpan s.token.span) base u = .ok e t) :
    ExprRead lossy s e t := by
  rcases bind_if lossy (proper_operator _) h with ⟨v, hv, -, h⟩ | h
  · obtain ⟨arguments, w, hw, h⟩ := bind_ok h
    cases h
    exact ⟨⟨.whole (hu.seq (hv.builds.skip (R.typeArguments_ok hw)))
      rfl ⟨rfl, trivial, trivial⟩, rfl⟩, trivial⟩
  · obtain ⟨id, v, hv, h⟩ := bind_ok h
    cases h
    exact ⟨⟨.whole (hu.seq (wordIdentifier_ok hv).builds)
      rfl ⟨rfl, trivial, trivial⟩, rfl⟩, trivial⟩

theorem indexContinuation_ok
    (h : r.indexContinuation (Mark.ofSpan s.token.span) base optional u = .ok e t) :
    ExprRead lossy s e t := by
  obtain ⟨key, v, hv, h⟩ := bind_ok h
  obtain ⟨w, hw, -, h⟩ := bind_expect lossy (proper_kind (by decide)) h
  cases h
  exact ⟨⟨.whole (hu.seq ((R.expr_ok hv).builds.close hw.builds))
    rfl ⟨rfl, trivial, trivial⟩, rfl⟩, trivial⟩

theorem callContinuation_ok
    (h : r.callContinuation (Mark.ofSpan s.token.span) base optional u = .ok e t) :
    ExprRead lossy s e t := by
  obtain ⟨arguments, v, hv, h⟩ := bind_ok h
  cases h
  exact ⟨⟨.whole (hu.seq (R.arguments_ok hv)) rfl ⟨rfl, trivial, trivial⟩, rfl⟩, trivial⟩

end Continuations

section Parentheses

/-- An expression that begins with a name. -/
theorem identifierPrimary_ok {allowTyped : Bool} {e : Expr} (hu : Consumed lossy s u)
    (h : r.identifierPrimary allowTyped u = .ok e t) : ExprRead lossy s e t := by
  unfold identifierPrimary at h
  rw [previous_bind, hu.previous] at h
  rcases bind_allowed lossy (proper_kind (by decide)) h with ⟨v, -, hv, h⟩ | h
  · obtain ⟨type, w, hw, h⟩ := bind_ok h
    cases h
    have hread := hu.builds.skip (hv.builds.skip (R.typeExpr hw).builds)
    exact Whole.exprRead ⟨.whole hread rfl ⟨rfl, trivial, trivial⟩, rfl⟩
  rw [at?_bind] at h
  split at h
  · rename_i hembed
    simp only [Bool.and_eq_true, beq_iff_eq] at hembed
    obtain ⟨v, hv, h⟩ := bind_next lossy (by simp [hembed.2]) h
    rw [previous_bind] at h
    obtain ⟨type, w, hw, h⟩ := bind_ok h
    cases h
    exact ⟨⟨.whole (hu.builds.skip (hv.builds.skip (R.optAnnotation_ok hw)))
      rfl ⟨rfl, trivial, trivial⟩, rfl⟩, trivial⟩
  rw [finish_bind] at h
  have hname : Whole lossy s (.identifier
      { span := (Mark.ofSpan s.token.span).«to» u.previous.span, name := s.token.text }) u :=
    ⟨.whole hu.builds rfl ⟨rfl, trivial, trivial⟩, rfl⟩
  rcases bind_if lossy (proper_kind (by decide)) h with ⟨v, hv, -, h⟩ | h
  · obtain ⟨params, w, hw, h⟩ := bind_ok h
    have hread : Builds lossy true s ([Expr.identifier _].map .expr) v :=
      hname.exprRead.builds.close hv.builds
    obtain ⟨-, hparams⟩ := arrowParams_ok (by simp [Expr.Tight]) hread hw
    exact R.arrowFunction_ok (by simpa using hparams) h
  · cases h
    exact hname.exprRead

/-- Expressions between parentheses that have been read. The last one ends where the parentheses are
closed, unless a rest parameter follows. -/
structure Listed (lossy : Prop) (s : ParserState) (items : List Expr) (atRest : Bool)
    (t : ParserState) : Prop where
  builds : Builds lossy (!items.isEmpty) s (items.map .expr) t
  tight : ∀ e ∈ items, e.Tight
  begins : ∀ e ∈ items.head?, Mark.ofSpan e.span = Mark.ofSpan s.token.span
  ends : atRest = false → ∃ e ∈ items.getLast?, ∃ first : Span, e.span = first.«to» t.previous.span

theorem parensItems_ok :
    ∀ {fuel : Nat} {items all : List Expr} {atRest : Bool} {s t : ParserState},
      r.parensItems fuel items s = .ok (all, atRest) t →
      ∃ new, all = items ++ new ∧ Listed lossy s new atRest t
  | 0, _, _, _, _, _, h => (exhausted_ok h).elim
  | fuel + 1, items, all, atRest, s, t, h => by
    rcases bind_if lossy (proper_kind (by decide)) h with ⟨u, hu, -, h⟩ | h
    · cases h
      exact ⟨[], by simp, hu.builds.weaken, by simp, by simp, nofun⟩
    obtain ⟨e, u, hu, h⟩ := bind_ok h
    have he := R.assignmentExpr_ok hu
    have hmark : ∀ e' ∈ (some e : Option Expr), Mark.ofSpan e'.span = Mark.ofSpan s.token.span := by
      rintro e' ⟨⟩
      exact he.mark
    rcases bind_if lossy (proper_kind (by decide)) h with ⟨v, hv, -, h⟩ | h
    · obtain ⟨new, rfl, hnew⟩ := parensItems_ok h
      refine ⟨e :: new, by simp, ?_, ?_, hmark, ?_⟩
      · exact (he.builds.seq (hv.builds.skip hnew.builds))
      · simpa using ⟨he.tight, hnew.tight⟩
      · intro hrest
        obtain ⟨last, hlast, first, hspan⟩ := hnew.ends hrest
        refine ⟨last, ?_, first, hspan⟩
        rw [List.getLast?_cons, hlast]
        rfl
    · cases h
      exact ⟨[e], rfl, he.builds, by simpa using he.tight, hmark,
        fun _ => ⟨e, rfl, s.token.span, Option.some_inj.mp he.ends⟩⟩

theorem restArrowFunction_ok {items : List Expr} {e : Expr} (tight : ∀ e ∈ items, e.Tight)
    (hu : Builds lossy true s (items.map .expr) u)
    (h : r.restArrowFunction (Mark.ofSpan s.token.span) items u = .ok e t) :
    ExprRead lossy s e t := by
  obtain ⟨params, v, hv, h⟩ := bind_ok h
  obtain ⟨hrest, hparams⟩ := arrowParams_ok tight hu hv
  obtain ⟨rest, w, hw, h⟩ := bind_ok h
  obtain ⟨x, hx, -, h⟩ := bind_expect lossy (proper_kind (by decide)) h
  obtain ⟨result, y, hy, h⟩ := bind_ok h
  obtain ⟨z, hz, -, h⟩ := bind_expect lossy (proper_kind (by decide)) h
  refine R.arrowFunction_ok ?_ h
  rw [Params.withRest_all hrest, List.map_append]
  have hresult := hx.builds.skip ((R.optAnnotation_ok hy).close hz.builds)
  simpa using hparams.seq ((R.restParam_ok hw).seq hresult)

omit R in
/-- What stands in parentheses is one expression, or a list of them. -/
theorem parensContent_ok {items : List Expr} {e : Expr} {w : ParserState}
    (hitems : Listed lossy s items false u) (h : parensContent items w = .ok e t) :
    t = w ∧ Builds lossy true s [.expr e] u := by
  match items, hitems with
  | [], _ => exact (unexpected_ok h).elim
  | [single], hitems =>
    cases h
    exact ⟨rfl, hitems.builds⟩
  | first :: second :: rest, hitems =>
    cases h
    refine ⟨rfl, .whole hitems.builds ?_ ⟨rfl, trivial, trivial⟩⟩
    obtain ⟨last, hlast, start, hspan⟩ := hitems.ends rfl
    have hlast : (second :: rest).getLast?.getD first = last := by
      rw [List.getLast?_cons_cons] at hlast
      rw [Option.mem_def.mp hlast]
      rfl
    have hmark : Mark.ofSpan first.span = Mark.ofSpan s.token.span := hitems.begins first rfl
    rw [hlast, hspan]
    exact congrArg (fun m : Mark => some (m.«to» u.previous.span)) hmark

theorem parensOrArrow_ok {e : Expr} (hu : Consumed lossy s u)
    (h : r.parensOrArrow (Mark.ofSpan s.token.span) u = .ok e t) : ExprRead lossy s e t := by
  rcases bind_if lossy (proper_kind (by decide)) h with ⟨v, hv, -, h⟩ | h
  · obtain ⟨w, hw, -, h⟩ := bind_expect lossy (proper_kind (by decide)) h
    exact R.arrowFunction_ok (p := {}) (hu.builds.skip (hv.builds.skip hw.builds)) h
  obtain ⟨⟨items, atRest⟩, v, hv, h⟩ := bind_ok h
  obtain ⟨new, rfl, hnew⟩ := R.parensItems_ok hv
  have hread := hu.builds.skip hnew.builds
  cases atRest with
  | true => exact R.restArrowFunction_ok hnew.tight hread h
  | false =>
    obtain ⟨w, hw, -, h⟩ := bind_expect lossy (proper_kind (by decide)) h
    rcases bind_if lossy (proper_kind (by decide)) h with ⟨x, hx, -, h⟩ | h
    · obtain ⟨params, y, hy, h⟩ := bind_ok h
      obtain ⟨-, hparams⟩ := arrowParams_ok hnew.tight ((hread.close hw.builds).close hx.builds) hy
      obtain ⟨result, z, hz, h⟩ := bind_ok h
      obtain ⟨z', hz', -, h⟩ := bind_expect lossy (proper_kind (by decide)) h
      exact R.arrowFunction_ok (hparams.seq ((R.typeExpr hz).builds.close hz'.builds)) h
    rcases bind_if lossy (proper_kind (by decide)) h with ⟨x, hx, -, h⟩ | h
    · obtain ⟨params, y, hy, h⟩ := bind_ok h
      obtain ⟨-, hparams⟩ := arrowParams_ok hnew.tight ((hread.close hw.builds).close hx.builds) hy
      exact R.arrowFunction_ok (by simpa using hparams) h
    · obtain ⟨content, x, hx, hgo⟩ := bind_ok h
      obtain ⟨rfl, hcontent⟩ := parensContent_ok hnew hx
      cases hgo
      exact ⟨⟨.whole (hu.builds.skip (hcontent.close hw.builds))
        rfl ⟨rfl, trivial, trivial⟩, rfl⟩, trivial⟩

theorem parensPrimary_ok {level : Precedence} {e : Expr} (hu : Consumed lossy s u)
    (h : r.parensPrimary (Mark.ofSpan s.token.span) level u = .ok e t) : ExprRead lossy s e t := by
  unfold parensPrimary at h
  split at h
  · obtain ⟨inner, v, hv, h⟩ := bind_ok h
    obtain ⟨w, hw, -, h⟩ := bind_expect lossy (proper_kind (by decide)) h
    cases h
    exact ⟨⟨.whole (hu.builds.skip ((R.expr_ok hv).builds.close hw.builds))
      rfl ⟨rfl, trivial, trivial⟩, rfl⟩, trivial⟩
  · exact R.parensOrArrow_ok hu h

end Parentheses

section Initializers

theorem objectKey_ok {key : Expr} (h : r.objectKey s = .ok key t) :
    Builds lossy true s [.expr key] t := by
  rcases bind_if lossy (proper_kind (by decide)) h with ⟨u, hu, -, h⟩ | h
  · obtain ⟨key, v, hv, h⟩ := bind_ok h
    obtain ⟨w, hw, -, h⟩ := bind_expect lossy (proper_kind (by decide)) h
    cases h
    exact hu.builds.skip ((R.assignmentExpr_ok hv).builds.close hw.builds)
  rcases bind_if lossy (proper_kind (by decide)) h with ⟨u, hu, -, h⟩ | h
  · rw [previous_bind, hu.previous] at h
    cases h
    exact .whole hu.builds (by rw [hu.previous]; rfl) ⟨rfl, trivial, trivial⟩
  obtain ⟨u, hu, -, h⟩ := bind_expect lossy (proper_kind (by decide)) h
  rw [previous_bind, hu.previous] at h
  cases h
  exact .whole hu.builds (by rw [hu.previous]; rfl) ⟨rfl, trivial, trivial⟩

theorem objectField_ok {key : Expr} {value : Option Expr} (h : r.objectField s = .ok (key, value) t) :
    Builds lossy true s (.expr key :: value.toList.map .expr) t := by
  rcases bind_if lossy (proper_kind (by decide)) h with ⟨u, hu, -, h⟩ | h
  · rw [previous_bind, hu.previous] at h
    have hkey : Builds lossy true s [.expr (.string s.token.span s.token.text)] u :=
      .whole hu.builds (by rw [hu.previous]; rfl) ⟨rfl, trivial, trivial⟩
    rcases bind_if lossy (proper_kind (by decide)) h with ⟨v, hv, -, h⟩ | h
    · obtain ⟨value, w, hw, h⟩ := bind_ok h
      cases h
      exact hkey.seq (hv.builds.skip (R.assignmentExpr_ok hw).builds)
    · cases h
      exact hkey
  obtain ⟨key, u, hu, h⟩ := bind_ok h
  obtain ⟨v, hv, -, h⟩ := bind_expect lossy (proper_kind (by decide)) h
  obtain ⟨value, w, hw, h⟩ := bind_ok h
  cases h
  exact (R.objectKey_ok hu).seq (hv.builds.skip (R.assignmentExpr_ok hw).builds)

theorem objectItem_ok {item : ObjectItem} (h : r.objectItem s = .ok item t) :
    Whole lossy s (.objectItem item) t := by
  unfold objectItem at h
  rw [mark_bind] at h
  rcases bind_if lossy (proper_kind (by decide)) h with ⟨u, hu, -, h⟩ | h
  · obtain ⟨e, v, hv, h⟩ := bind_ok h
    cases h
    exact ⟨.whole (hu.builds.skip (R.assignmentExpr_ok hv).builds) rfl ⟨rfl, trivial, trivial⟩, rfl⟩
  · obtain ⟨⟨key, value⟩, u, hu, h⟩ := bind_ok h
    cases h
    exact ⟨.whole (R.objectField_ok hu) rfl ⟨rfl, trivial, trivial⟩, rfl⟩

theorem objectInitializer_ok {e : Expr} (hu : Consumed lossy s u)
    (h : r.objectInitializer (Mark.ofSpan s.token.span) u = .ok e t) : ExprRead lossy s e t := by
  obtain ⟨fields, v, hv, h⟩ := bind_ok h
  obtain ⟨w, hw, -, h⟩ := bind_expect lossy (proper_kind (by decide)) h
  obtain ⟨type, x, hx, h⟩ := bind_ok h
  cases h
  have hfields := (separatedUntil_each (fun h => (R.objectItem_ok h).builds) hv).close hw.builds
  exact ⟨⟨.whole (hu.builds.skip (hfields.seq (R.optAnnotation_ok hx)))
    rfl ⟨rfl, trivial, trivial⟩, rfl⟩, trivial⟩

theorem arrayItem_ok {e : Expr} (h : r.arrayItem s = .ok e t) : Builds lossy true s [.expr e] t := by
  unfold arrayItem at h
  rw [mark_bind] at h
  rcases bind_if lossy (proper_kind (by decide)) h with ⟨u, hu, -, h⟩ | h
  · obtain ⟨e, v, hv, h⟩ := bind_ok h
    cases h
    exact .whole (hu.builds.skip (R.assignmentExpr_ok hv).builds) rfl ⟨rfl, trivial, trivial⟩
  · exact (R.assignmentExpr_ok h).builds

theorem arrayItems_ok :
    ∀ {fuel : Nat} {items : List (Option Expr)} {s t : ParserState},
      r.arrayItems fuel s = .ok items t → Builds lossy false s (items.reduceOption.map .expr) t
  | 0, _, _, _, h => (exhausted_ok h).elim
  | fuel + 1, items, s, t, h => by
    rcases bind_if lossy (proper_kind (by decide)) h with ⟨u, hu, -, h⟩ | h
    · obtain ⟨rest, v, hv, h⟩ := bind_ok h
      cases h
      exact (hu.builds.skip (arrayItems_ok hv)).weaken
    rw [at?_bind] at h
    split at h
    · cases h
      exact .refl _
    obtain ⟨item, u, hu, h⟩ := bind_ok h
    have hitem := R.arrayItem_ok hu
    rcases bind_if lossy (proper_kind (by decide)) h with ⟨v, hv, -, h⟩ | h
    · obtain ⟨rest, w, hw, h⟩ := bind_ok h
      cases h
      exact (hitem.seq (hv.builds.skip (arrayItems_ok hw))).weaken
    · cases h
      exact hitem.weaken

theorem arrayInitializer_ok {e : Expr} (hu : Consumed lossy s u)
    (h : r.arrayInitializer (Mark.ofSpan s.token.span) u = .ok e t) : ExprRead lossy s e t := by
  obtain ⟨items, v, hv, h⟩ := bind_ok h
  obtain ⟨w, hw, -, h⟩ := bind_expect lossy (proper_kind (by decide)) h
  obtain ⟨type, x, hx, h⟩ := bind_ok h
  cases h
  have hitems := (R.arrayItems_ok hv).close hw.builds
  exact ⟨⟨.whole (hu.builds.skip (hitems.seq (R.optAnnotation_ok hx)))
    rfl ⟨rfl, trivial, trivial⟩, rfl⟩, trivial⟩

end Initializers

section Operands

theorem newBase_ok {fuel : Nat} {base e : Expr} (hbase : ExprRead lossy s base u)
    (h : r.newBase fuel base u = .ok e t) : ExprRead lossy s e t := by
  induction fuel generalizing base u with
  | zero => exact (exhausted_ok h).elim
  | succ fuel ih =>
    unfold newBase at h
    rw [hbase.mark] at h
    rcases bind_if lossy (proper_kind (by decide)) h with ⟨v, hv, -, h⟩ | h
    · obtain ⟨longer, w, hw, h⟩ := bind_ok h
      exact ih (R.dotContinuation_ok (hbase.builds.close hv.builds) hw) h
    rw [get_bind] at h
    split at h
    · rename_i hbracket
      simp only [Bool.and_eq_true, beq_iff_eq] at hbracket
      obtain ⟨v, hv, h⟩ := bind_next lossy (by simp [hbracket.1]) h
      obtain ⟨longer, w, hw, h⟩ := bind_ok h
      exact ih (R.indexContinuation_ok (hbase.builds.close hv.builds) hw) h
    · cases h
      exact hbase

theorem newExpr_ok {e : Expr} (hu : Consumed lossy s u)
    (h : r.newExpr (Mark.ofSpan s.token.span) u = .ok e t) : ExprRead lossy s e t := by
  obtain ⟨first, v, hv, h⟩ := bind_ok h
  obtain ⟨base, w, hw, h⟩ := bind_ok h
  obtain ⟨found, x, hx, h⟩ := bind_ok h
  obtain ⟨arguments, y, hy, h⟩ := bind_either h
  cases h
  have hbase := R.newBase_ok (R.primary_ok hv) hw
  have harguments : Builds lossy false w (arguments.map .expr) t := by
    rcases consumeIf_ok lossy (proper_kind (by decide)) hx with ⟨rfl, -, hx⟩ | ⟨rfl, rfl⟩
    · rcases hy with ⟨-, hy⟩ | ⟨hne, -⟩
      · exact (hx.builds.skip (R.arguments_ok hy)).weaken
      · exact (hne rfl).elim
    · rcases hy with ⟨hne, -⟩ | ⟨-, hy⟩
      · cases hne
      · cases hy
        exact .refl _
  exact ⟨⟨.whole (hu.builds.skip (hbase.builds.seq harguments))
    rfl ⟨rfl, trivial, trivial⟩, rfl⟩, trivial⟩

theorem simplePrimary?_ok {found : Option Expr}
    (h : r.simplePrimary? (Mark.ofSpan s.token.span) s = .ok found t) : OptRead lossy s found t := by
  rcases bind_if lossy (proper_keyword _) h with ⟨u, hu, -, h⟩ | h
  · obtain ⟨v, hv, -, h⟩ := bind_expect lossy (proper_kind (by decide)) h
    obtain ⟨type, w, hw, h⟩ := bind_ok h
    obtain ⟨x, hx, -, h⟩ := bind_expect lossy (proper_kind (by decide)) h
    cases h
    have hread := hu.builds.skip (hv.builds.skip ((R.typeExpr hw).builds.close hx.builds))
    exact ⟨⟨.whole hread rfl ⟨rfl, trivial, trivial⟩, rfl⟩, trivial⟩
  rcases bind_if lossy (proper_keyword _) h with ⟨u, hu, -, h⟩ | h
  · cases h
    exact ⟨⟨.whole hu.builds rfl ⟨rfl, trivial, trivial⟩, rfl⟩, trivial⟩
  rcases bind_if lossy (proper_keyword _) h with ⟨u, hu, -, h⟩ | h
  · obtain ⟨v, hv, -, h⟩ := bind_expect lossy (proper_kind (by decide)) h
    obtain ⟨w, hw, -, h⟩ := bind_expect lossy (proper_contextKeyword _) h
    cases h
    exact ⟨⟨.whole (hu.builds.skip (hv.builds.skip hw.builds))
      rfl ⟨rfl, trivial, trivial⟩, rfl⟩, trivial⟩
  rcases bind_if lossy (proper_keyword _) h with ⟨u, hu, -, h⟩ | h
  · cases h
    exact ⟨⟨.whole hu.builds rfl ⟨rfl, trivial, trivial⟩, rfl⟩, trivial⟩
  rcases bind_if lossy (proper_kind (by decide)) h with ⟨u, hu, -, h⟩ | h
  · cases h
    exact ⟨⟨.whole hu.builds rfl ⟨rfl, trivial, trivial⟩, rfl⟩, trivial⟩
  rcases bind_if lossy (proper_kind (by decide)) h with ⟨u, hu, -, h⟩ | h
  · cases h
    exact ⟨⟨.whole hu.builds rfl ⟨rfl, trivial, trivial⟩, rfl⟩, trivial⟩
  rcases bind_if lossy (proper_keyword _) h with ⟨u, hu, -, h⟩ | h
  · cases h
    exact ⟨⟨.whole hu.builds rfl ⟨rfl, trivial, trivial⟩, rfl⟩, trivial⟩
  rcases bind_if lossy (proper_keyword _) h with ⟨u, hu, -, h⟩ | h
  · cases h
    exact ⟨⟨.whole hu.builds rfl ⟨rfl, trivial, trivial⟩, rfl⟩, trivial⟩
  rw [token_bind] at h
  split at h
  · rename_i slash
    obtain ⟨e, u, hu, h⟩ := bind_ok h
    cases h
    exact regularExpression_ok slash hu
  rcases bind_if lossy (proper_keyword _) h with ⟨u, hu, -, h⟩ | h
  · cases h
    exact ⟨⟨.whole hu.builds rfl ⟨rfl, trivial, trivial⟩, rfl⟩, trivial⟩
  · cases h
    rfl

theorem optPrimaryRule_ok {allowTyped : Bool} {level : Precedence} {found : Option Expr}
    (h : r.optPrimaryRule allowTyped level s = .ok found t) : OptRead lossy s found t := by
  unfold optPrimaryRule at h
  rw [mark_bind] at h
  rcases bind_if lossy (proper_kind (by decide)) h with ⟨u, hu, -, h⟩ | h
  · obtain ⟨e, v, hv, h⟩ := bind_ok h
    cases h
    exact R.identifierPrimary_ok hu hv
  obtain ⟨simple, u, hu, hgo⟩ := bind_ok h
  have hsimple := R.simplePrimary?_ok hu
  cases simple with
  | some e =>
    cases hgo
    exact hsimple
  | none =>
    obtain rfl : u = s := hsimple
    rcases bind_if lossy (proper_kind (by decide)) hgo with ⟨v, hv, -, h⟩ | hgo
    · obtain ⟨e, w, hw, h⟩ := bind_ok h
      cases h
      exact R.parensPrimary_ok hv hw
    rcases bind_if lossy (proper_kind (by decide)) hgo with ⟨v, hv, -, h⟩ | hgo
    · obtain ⟨e, w, hw, h⟩ := bind_ok h
      cases h
      exact R.objectInitializer_ok hv hw
    rcases bind_if lossy (proper_kind (by decide)) hgo with ⟨v, hv, -, h⟩ | hgo
    · obtain ⟨e, w, hw, h⟩ := bind_ok h
      cases h
      exact R.arrayInitializer_ok hv hw
    rcases bind_if lossy (proper_keyword _) hgo with ⟨v, hv, -, h⟩ | hgo
    · obtain ⟨e, w, hw, h⟩ := bind_ok h
      cases h
      exact R.newExpr_ok hv hw
    rw [atOperator?_bind] at hgo
    split at hgo
    · obtain ⟨e, v, hv, h⟩ := bind_ok hgo
      cases h
      exact R.nodeRule_ok hv
    · cases hgo
      rfl

end Operands

end Rules.Builder

end ActionSyntax
