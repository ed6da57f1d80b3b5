import ActionSyntax.Proofs.Pieces.Layout
import ActionSyntax.Grammar.Statements

/-!
Pieces that are taken for others after they have been read: expressions for patterns and parameters,
types for parameters, decorators out of their brackets. What stands in them stays the same, and they
stay where they are.
-/

namespace ActionSyntax

set_option autoImplicit false

open Piece

/-- There is nothing to be said about the piece itself, apart from its range and what stands in it. -/
structure Piece.Silent (p : Piece) : Prop where
  notable : p.isNotable = false
  inclusion : p.isInclusion = false
  entered : ∀ deep, p.entered deep = true
  exempts : ∀ c, ¬ p.Exempts c
  ranges : p.span?.isSome = true

/-- There is nothing to be said about a piece that another one is taken for. -/
structure Piece.Taking (p : Piece) : Prop where
  notable : p.isNotable = false
  inclusion : p.isInclusion = false
  entered : ∀ deep, p.entered deep = true
  covers : p.CoversParameters

/-- The second pieces are made out of the first ones. The same notable pieces stand in them, and they
lie along the same tokens, within the same range. -/
structure Reworks (ps qs : List Piece) : Prop where
  among : ∀ deep q, q.isNotable = true → (Among deep qs q ↔ Among deep ps q)
  laid : ∀ tokens outer, (∀ p ∈ ps, p.LaidIn tokens outer) → ∀ q ∈ qs, q.LaidIn tokens outer

namespace Reworks

variable {ps qs rs ps' qs' : List Piece} {p q : Piece}

theorem refl (ps : List Piece) : Reworks ps ps := ⟨fun _ _ _ => Iff.rfl, fun _ _ h => h⟩

theorem trans (h : Reworks ps qs) (h' : Reworks qs rs) : Reworks ps rs where
  among deep q hq := (h'.among deep q hq).trans (h.among deep q hq)
  laid tokens outer hps := h'.laid tokens outer (h.laid tokens outer hps)

theorem append (h : Reworks ps qs) (h' : Reworks ps' qs') : Reworks (ps ++ ps') (qs ++ qs') where
  among deep q hq := by simp [h.among deep q hq, h'.among deep q hq]
  laid tokens outer hps q hq := by
    rcases List.mem_append.mp hq with hq | hq
    · exact h.laid tokens outer (fun p hp => hps p (List.mem_append_left _ hp)) q hq
    · exact h'.laid tokens outer (fun p hp => hps p (List.mem_append_right _ hp)) q hq

theorem cons (h : Reworks [p] [q]) (h' : Reworks ps qs) : Reworks (p :: ps) (q :: qs) :=
  h.append h'

theorem of_perm (h : ps.Perm qs) : Reworks ps qs where
  among deep q _ := by simp [Among, h.mem_iff]
  laid tokens outer hps q hq := hps q (h.mem_iff.mpr hq)

theorem ne_of_notable (hp : p.isNotable = false) (hq : q.isNotable = true) : q ≠ p := by
  rintro rfl
  simp [hp] at hq

/-- A piece with the same range as another one and children made out of the other's. -/
theorem piece (hchildren : Reworks p.children q.children)
    (hspan : q.span? = p.span?) (hp : p.Silent) (hq : q.Taking) : Reworks [p] [q] where
  among deep x hx := by
    simp [hp.entered, hq.entered, ne_of_notable hp.notable hx, ne_of_notable hq.notable hx,
      hchildren.among deep x hx]
  laid tokens outer h := by
    have hlaid := h p List.mem_cons_self
    obtain ⟨span, hs⟩ := Option.isSome_iff_exists.mp hp.ranges
    have hin := hchildren.laid tokens span (hlaid.laid.children_in hp.inclusion hp.exempts hs)
    rintro x hx
    obtain rfl := List.mem_singleton.mp hx
    refine ⟨.piece hq.inclusion ?_ (fun c hc => (hin c hc).laid) ?_, hspan ▸ hlaid.within⟩
    · intro span' hspan'
      obtain ⟨a, ha, b, hb, hle, heq, -⟩ := hlaid.laid.ends (hspan ▸ hspan')
      exact ⟨a, ha, b, hb, hle, heq, fun _ => hq.covers⟩
    · intro c hc _ outer' houter inner hinner
      obtain rfl : span = outer' := by
        rw [hspan, hs] at houter
        simpa using houter
      exact (hin c hc).within inner hinner

/-- The pieces that stand in one that holds nothing notable besides them. -/
theorem children (hp : p.Silent) : Reworks [p] p.children where
  among deep x hx := by simp [hp.entered, ne_of_notable hp.notable hx]
  laid tokens outer h q hq := by
    have hlaid := h p List.mem_cons_self
    obtain ⟨span, hs⟩ := Option.isSome_iff_exists.mp hp.ranges
    exact (hlaid.laid.children_in hp.inclusion hp.exempts hs q hq).widen (hlaid.within span hs)

/-- Pieces that hold nothing notable may be left out. -/
theorem erase (h : ∀ deep q, q.isNotable = true → ¬ Among deep ps q) : Reworks ps [] where
  among deep q hq := by simp [h deep q hq]
  laid := by simp

end Reworks

section Patterns

theorem Pattern.ofExpr_span {e : Expr} {p : Pattern} (h : Pattern.ofExpr e = .ok p) :
    p.span = e.span := by
  unfold Pattern.ofExpr at h
  split at h
  · cases h
    rfl
  · obtain ⟨_, _, h⟩ := ok_of_bind h
    cases h
    rfl
  · obtain ⟨_, _, h⟩ := ok_of_bind h
    cases h
    rfl
  · cases h

/-- An expression is taken for a pattern, part by part. -/
theorem Reworks.pattern {e : Expr} {p : Pattern} :
    Pattern.ofExpr e = .ok p → Reworks [.expr e] [.pattern p] := by
  have all := Pattern.ofExpr.mutual_induct
    (fun e => ∀ p, Pattern.ofExpr e = .ok p → Reworks [.expr e] [.pattern p])
    (fun fields => ∀ taken, Pattern.ofFields fields = .ok taken →
      Reworks (fields.map .objectItem) (taken.map .patternField))
    (fun items => ∀ taken, Pattern.ofItems items = .ok taken →
      Reworks (items.reduceOption.map .expr) (taken.flatMap PatternItem.pieces))
  refine (all ?identifier ?array ?object ?other ?noFields ?spreadField ?plainField ?valueField
    ?noItems ?hole ?spreadItem ?item).1 e p
  case identifier =>
    intro id p h
    cases h
    exact .trans (.children ⟨rfl, rfl, fun _ => rfl, fun _ h => h, rfl⟩)
      (.piece (.refl _) rfl ⟨rfl, rfl, fun _ => rfl, fun _ h => h, rfl⟩ ⟨rfl, rfl, fun _ => rfl, trivial⟩)
  case array =>
    intro span items type ih p h
    obtain ⟨taken, htaken, h⟩ := ok_of_bind h
    cases h
    exact .piece ((ih taken htaken).append (.refl _)) rfl ⟨rfl, rfl, fun _ => rfl, fun _ h => h, rfl⟩ ⟨rfl, rfl, fun _ => rfl, trivial⟩
  case object =>
    intro span fields type ih p h
    obtain ⟨taken, htaken, h⟩ := ok_of_bind h
    cases h
    exact .piece ((ih taken htaken).append (.refl _)) rfl ⟨rfl, rfl, fun _ => rfl, fun _ h => h, rfl⟩ ⟨rfl, rfl, fun _ => rfl, trivial⟩
  case other =>
    intro e hid harray hobject p h
    unfold Pattern.ofExpr at h
    split at h
    · exact (hid _ rfl).elim
    · exact (harray _ _ _ rfl).elim
    · exact (hobject _ _ _ rfl).elim
    · cases h
  case noFields =>
    intro taken h
    cases h
    exact .refl []
  case spreadField =>
    intro span e rest taken h
    cases h
  case plainField =>
    intro span key rest ih taken h
    obtain ⟨more, hmore, h⟩ := ok_of_bind h
    cases h
    exact .cons (.piece (.refl _) rfl ⟨rfl, rfl, fun _ => rfl, fun _ h => h, rfl⟩ ⟨rfl, rfl, fun _ => rfl, trivial⟩)
      (ih more hmore)
  case valueField =>
    intro span key value rest hvalue hrest taken h
    obtain ⟨pattern, hpattern, h⟩ := ok_of_bind h
    obtain ⟨more, hmore, h⟩ := ok_of_bind h
    cases h
    exact .cons (.piece (.cons (.refl _) (hvalue pattern hpattern)) rfl
      ⟨rfl, rfl, fun _ => rfl, fun _ h => h, rfl⟩ ⟨rfl, rfl, fun _ => rfl, trivial⟩) (hrest more hmore)
  case noItems =>
    intro taken h
    cases h
    exact .refl []
  case hole =>
    intro rest ih taken h
    obtain ⟨more, hmore, h⟩ := ok_of_bind h
    cases h
    exact ih more hmore
  case spreadItem =>
    intro span e rest hitem hrest taken h
    obtain ⟨pattern, hpattern, h⟩ := ok_of_bind h
    obtain ⟨more, hmore, h⟩ := ok_of_bind h
    cases h
    exact .cons (.piece (hitem pattern hpattern) rfl ⟨rfl, rfl, fun _ => rfl, fun _ h => h, rfl⟩
      ⟨rfl, rfl, fun _ => rfl, trivial⟩) (hrest more hmore)
  case item =>
    intro e rest hspread hitem hrest taken h
    rw [Pattern.ofItems.eq_def] at h
    split at h
    · cases ‹some e :: rest = []›
    · cases ‹some e :: rest = none :: _›
    · cases ‹some e :: rest = some _ :: _›
      exact (hspread _ _ rfl).elim
    · cases ‹some e :: rest = some _ :: _›
      obtain ⟨pattern, hpattern, h⟩ := ok_of_bind h
      obtain ⟨more, hmore, h⟩ := ok_of_bind h
      cases h
      exact .cons (hitem pattern hpattern) (hrest more hmore)

/-- An expression is taken for a parameter. -/
theorem Reworks.binding {e : Expr} {p : Pattern} (h : Pattern.ofExpr e = .ok p) :
    Reworks [.expr e] [.binding { span := e.span, pattern := p, init := none }] where
  among deep q hq := by
    have hne : q ≠ .binding { span := e.span, pattern := p, init := none } :=
      ne_of_notable rfl hq
    rw [← (Reworks.pattern h).among deep q hq]
    simp [Piece.children, Piece.entered, hne]
  laid tokens outer hall := by
    have hlaid := (Reworks.pattern h).laid tokens outer hall _ List.mem_cons_self
    have hspan := Pattern.ofExpr_span h
    rintro q hq
    obtain rfl := List.mem_singleton.mp hq
    refine ⟨.piece rfl ?_ ?_ ?_, hspan ▸ hlaid.within⟩
    · rintro span hs
      obtain ⟨a, ha, b, hb, hle, heq, -⟩ :=
        (hall _ List.mem_cons_self).laid.ends (hs : span ∈ _)
      exact ⟨a, ha, b, hb, hle, heq, fun _ => trivial⟩
    · simpa [Piece.children] using hlaid.laid
    · rintro c hc - span hs inner hinner
      obtain rfl : c = .pattern p := by simpa [Piece.children] using hc
      cases hs
      cases hinner
      exact hspan ▸ .refl _

/-- An assignment is taken for a parameter with an initial value. -/
theorem Reworks.initialized {span : Span} {left right : Expr} {p : Pattern}
    (h : Pattern.ofExpr left = .ok p) (hspan : span = left.span.«to» right.span) :
    Reworks [.expr (.assignment span (.expression left) none right)]
      [.binding { span := left.span.«to» right.span, pattern := p, init := some right }] := by
  refine .piece (.cons (.pattern h) (.refl _)) ?_ ⟨rfl, rfl, fun _ => rfl, fun _ h => h, rfl⟩
    ⟨rfl, rfl, fun _ => rfl, trivial⟩
  rw [hspan]
  rfl

end Patterns

section Types

theorem Reworks.unionMembers (type : TypeExpr) :
    Reworks [.type type] (type.unionMembers.map .type) := by
  cases type with
  | union => exact .children ⟨rfl, rfl, fun _ => rfl, fun _ h => h, rfl⟩
  | _ => exact .refl _

/-- Pieces of types and names. -/
def Piece.isTypal : Piece → Bool
  | .type _ | .identifier _ | .parameter _ | .generics _ | .typeParameter _ | .typeBound _ => true
  | _ => false

theorem Piece.isTypal_children {p c : Piece} (hp : p.isTypal = true) (hc : c ∈ p.children) :
    c.isTypal = true := by
  cases p with
  | type t =>
    cases t <;> simp only [Piece.children, TypeExpr.children, List.mem_append, List.mem_map,
      List.mem_cons, List.not_mem_nil, or_false] at hc <;> grind [isTypal]
  | identifier id | parameter id =>
    simp only [Piece.children, Identifier.children, List.mem_map] at hc
    grind [isTypal]
  | generics g | typeParameter p | typeBound b =>
    simp only [Piece.children, List.mem_append, List.mem_map, List.mem_cons, List.not_mem_nil,
      or_false] at hc
    grind [isTypal]
  | _ => cases hp

theorem Piece.isTypal_type (type : TypeExpr) : ∀ p ∈ [Piece.type type], p.isTypal = true := by
  simp [isTypal]

theorem Piece.isTypal_parameters (params : List Identifier) (result : Option TypeExpr) :
    ∀ p ∈ params.map Piece.identifier ++ result.toList.map .type, p.isTypal = true := by
  intro p hp
  rcases List.mem_append.mp hp with hp | hp
  · obtain ⟨id, -, rfl⟩ := List.mem_map.mp hp
    rfl
  · obtain ⟨type, -, rfl⟩ := List.mem_map.mp hp
    rfl

theorem Piece.Holds.typal {deep : Bool} {p q : Piece} (h : p.Holds deep q)
    (hp : p.isTypal = true) : q.isTypal = true := by
  induction h with
  | self => exact hp
  | inside child _ _ ih => exact ih (isTypal_children hp child)

/-- No type holds anything notable. -/
theorem Piece.not_among_typal {ps : List Piece} (h : ∀ p ∈ ps, p.isTypal = true) {deep : Bool}
    {q : Piece} (hq : q.isNotable = true) : ¬ Among deep ps q := by
  rintro ⟨p, hp, -, hholds⟩
  have htypal := hholds.typal (h p hp)
  cases q <;> simp_all [Piece.isTypal, Piece.isNotable, Piece.isElement]

theorem Reworks.eraseTypal {ps : List Piece} (h : ∀ p ∈ ps, p.isTypal = true) : Reworks ps [] :=
  .erase fun _ _ hq => Piece.not_among_typal h hq

/-- A type that is a name is taken for a parameter, with a type that may stand behind it. -/
theorem Reworks.parameter (base : TypeExpr) (name : String) (type : Option TypeExpr) :
    Reworks (.type base :: type.toList.map .type)
      [.parameter { span := base.span, name, type }] where
  among deep q hq := by
    have htypal : ∀ p ∈ Piece.type base :: type.toList.map .type, p.isTypal = true := by
      simp [isTypal]
    have hleft := (eraseTypal htypal).among deep q hq
    have hparameter : ∀ p ∈ [Piece.parameter { span := base.span, name, type }],
        p.isTypal = true := by simp [isTypal]
    have hright := (eraseTypal hparameter).among deep q hq
    exact hright.symm.trans hleft
  laid tokens outer hall := by
    have hbase := hall _ List.mem_cons_self
    rintro q hq
    obtain rfl := List.mem_singleton.mp hq
    refine ⟨.piece rfl ?_ ?_ (fun _ _ h => (h trivial).elim), hbase.within⟩
    · rintro span hs
      obtain ⟨a, ha, b, hb, hle, heq, -⟩ := hbase.laid.ends (hs : span ∈ _)
      exact ⟨a, ha, b, hb, hle, heq, fun _ => trivial⟩
    · exact fun c hc => (hall c (List.mem_cons_of_mem _ hc)).laid

/-- A name with a type is taken for a parameter, whose type need not lie within it. -/
theorem Reworks.identifier (id : Identifier) : Reworks [.identifier id] [.parameter id] :=
  .piece (.refl _) rfl ⟨rfl, rfl, fun _ => rfl, fun _ h => h, rfl⟩ ⟨rfl, rfl, fun _ => rfl, trivial⟩

/-- Bounds are added to generics, outside of their range. -/
theorem Reworks.bounds (g : Generics) (bounds : List TypeBound) :
    Reworks (.generics g :: bounds.map .typeBound) [.generics (Rules.addBounds (some g) bounds)] where
  among deep q hq := by
    have hne : ∀ g, q ≠ .generics g := fun g => ne_of_notable rfl hq
    simp [Piece.children, Piece.entered, hne, Rules.addBounds, or_assoc]
  laid tokens outer hall := by
    have hgenerics := hall _ List.mem_cons_self
    rintro q hq
    obtain rfl := List.mem_singleton.mp hq
    refine ⟨?_, hgenerics.within⟩
    cases hgenerics.laid with
    | piece own ends children covers =>
      refine .piece rfl (fun span hs => ends span hs) ?_ ?_
      · intro c hc
        have hmem : c ∈ (Piece.generics g).children ∨ c ∈ bounds.map Piece.typeBound := by
          simpa [Piece.children, Rules.addBounds, or_assoc] using hc
        rcases hmem with hmem | hmem
        · exact children c hmem
        · exact (hall c (List.mem_cons_of_mem _ hmem)).laid
      · intro c hc hexempt
        have hmem : c ∈ g.params.map Piece.typeParameter := by
          rcases List.mem_append.mp hc with hc | hc
          · exact hc
          · obtain ⟨b, -, rfl⟩ := List.mem_map.mp hc
            exact (hexempt trivial).elim
        obtain ⟨b, hb, rfl⟩ := List.mem_map.mp hmem
        exact covers _ (List.mem_append_left _ hmem) fun h => h

/-- Bounds without parameters stand for themselves, where the first bounded name stands. -/
theorem Reworks.boundsAlone (first : TypeBound) (rest : List TypeBound) :
    Reworks ((first :: rest).map .typeBound)
      [.generics (Rules.addBounds none (first :: rest))] where
  among deep q hq := by
    have hne : ∀ g, q ≠ .generics g := fun g => ne_of_notable rfl hq
    simp [Piece.children, Piece.entered, hne, Rules.addBounds]
  laid tokens outer hall := by
    have hfirst := hall _ List.mem_cons_self
    have hid : (Piece.identifier first.id).LaidIn tokens outer :=
      (Reworks.children (p := .typeBound first) ⟨rfl, rfl, fun _ => rfl, fun _ h => h, rfl⟩).laid
        tokens outer (by simpa using hfirst) _ List.mem_cons_self
    rintro q hq
    obtain rfl := List.mem_singleton.mp hq
    refine ⟨.piece rfl ?_ ?_ ?_, hid.within⟩
    · rintro span hs
      obtain ⟨a, ha, b, hb, hle, heq, -⟩ := hid.laid.ends (hs : span ∈ _)
      exact ⟨a, ha, b, hb, hle, heq, fun _ => trivial⟩
    · exact fun c hc => (hall c hc).laid
    · intro c hc hexempt
      obtain ⟨b, -, rfl⟩ := List.mem_map.mp hc
      exact (hexempt trivial).elim

end Types

section Decorators

open Rules

/-- All that stands in the brackets of a list of decorators, spread items included. -/
def bracketed : Expr → List Expr
  | .array _ items _ => items.reduceOption
  | .index _ base key _ => bracketed base ++ listItems key
  | _ => []

/-- A spread item stands in the brackets of a list of decorators. -/
def holdsSpread : Expr → Bool
  | .array _ items _ => items.reduceOption.any isSpread
  | .index _ base _ _ => holdsSpread base
  | _ => false

theorem decoratorsOf_subset (e : Expr) : decoratorsOf e ⊆ bracketed e := by
  induction e using decoratorsOf.induct with
  | case1 span items type => exact List.filter_subset_self _
  | case2 span base key optional ih =>
    exact List.append_subset.mpr ⟨List.subset_append_of_subset_left _ ih,
      List.subset_append_right _ _⟩
  | case3 e harray hindex => simp [decoratorsOf]

/-- Decorators are all that stands in their brackets, unless an item is spread. -/
theorem decoratorsOf_eq {e : Expr} (h : holdsSpread e = false) : decoratorsOf e = bracketed e := by
  induction e using decoratorsOf.induct with
  | case1 span items type =>
    refine List.filter_eq_self.mpr fun e he => ?_
    simp only [holdsSpread, List.any_eq_false] at h
    simpa using h e he
  | case2 span base key optional ih =>
    rw [decoratorsOf, bracketed, ih h]
  | case3 e harray hindex =>
    cases e with
    | array span items type => exact (harray span items type rfl).elim
    | index span base key optional => exact (hindex span base key optional rfl).elim
    | _ => rfl

theorem Reworks.listItems (e : Expr) : Reworks [.expr e] ((listItems e).map .expr) := by
  cases e with
  | list => exact .children ⟨rfl, rfl, fun _ => rfl, fun _ h => h, rfl⟩
  | _ => exact .refl _

/-- Decorators are taken out of their brackets. -/
theorem Reworks.bracketed {e : Expr} (h : isDecorators e = true) :
    Reworks [.expr e] ((bracketed e).map .expr) := by
  induction e using isDecorators.induct with
  | case1 span items type =>
    obtain rfl : type = none := by simpa [isDecorators] using h
    have hitems : (Piece.expr (.array span items none)).children =
        (ActionSyntax.bracketed (.array span items none)).map .expr := List.append_nil _
    exact hitems ▸ .children ⟨rfl, rfl, fun _ => rfl, fun _ h => h, rfl⟩
  | case2 span base key optional ih =>
    have hbase : isDecorators base = true := by
      simp only [isDecorators, Bool.and_eq_true] at h
      exact h.2
    rw [ActionSyntax.bracketed, List.map_append]
    have hparts := Reworks.append (ih hbase) (.listItems key)
    exact .trans (.children ⟨rfl, rfl, fun _ => rfl, fun _ h => h, rfl⟩) hparts
  | case3 e harray hindex =>
    simp [isDecorators] at h

/-- A decorator that is a name alone may be taken away. -/
theorem Reworks.eraseNamed (name : String) (decorators : List Expr) :
    Reworks (decorators.map .expr) ((decorators.eraseP (isNamed name)).map .expr) := by
  induction decorators with
  | nil => exact .refl []
  | cons e rest ih =>
    rw [List.eraseP_cons]
    cases hnamed : isNamed name e with
    | false => exact .cons (.refl _) ih
    | true =>
      have herase : Reworks [.expr e] [] := by
        unfold isNamed at hnamed
        split at hnamed
        · exact .trans (.children ⟨rfl, rfl, fun _ => rfl, fun _ h => h, rfl⟩)
            (.eraseTypal (by simp [Piece.children, Expr.children, isTypal]))
        · cases hnamed
      exact herase.append (.refl (rest.map .expr))

end Decorators

end ActionSyntax
