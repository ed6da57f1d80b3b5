import ActionSyntax.Proofs.Spans

/-!
How far the nodes of a tree cover the types that they carry. A name with a type covers the type, and so
do the parameters of a function type that begins with its keyword; generics cover their parameters. The
parameters before an arrow keep the range that they had as types, and generics keep theirs when bounds
are added to them: neither covers what it is given later.
-/

namespace ActionSyntax

set_option autoImplicit false

namespace Piece

/-- The piece covers the types or the parameters that it carries. Of function types only those are looked
at that begin with the keyword among the tokens. -/
def Annotates (tokens : List Token) : Piece → Prop
  | .identifier id => ∀ type ∈ id.type, id.span.Covers type.span
  | .type (.function span params optional rest _) =>
    ∃ a ∈ tokens, a.span.start = span.start ∧ (a.isKeyword "function" = true →
      ∀ id ∈ params ++ optional.getD [] ++ rest.toList, ∀ type ∈ id.type, id.span.Covers type.span)
  | .generics g => ∀ p ∈ g.params, g.span.Covers p.span
  | _ => True

/-- The piece and all that stands in it cover the types that they carry. Included statements are looked
at along the tokens that have been consumed of the included script. -/
inductive Annotated : List Token → Piece → Prop
  | piece {tokens : List Token} {p : Piece} (own : p.isInclusion = false) (here : p.Annotates tokens)
      (children : ∀ c ∈ p.children, Annotated tokens c) : Annotated tokens p
  | included {tokens inside : List Token} {around : Situation} {span : Span} {source : String}
      {child : Script} {statements : List Statement} {t : ParserState}
      (consumes : Consumes
        (ParserState.ofScript (.ofSource child.path (String.ofList child.content))).scanned inside t)
      (annotated : ∀ s ∈ statements, Annotated inside (.statement around s)) :
      Annotated tokens (.statement around (.includeSource span source child statements))

/-- A piece that covers what stands in it covers the types that it carries. -/
theorem Annotates.of_covers {tokens : List Token} {p : Piece}
    (ends : ∀ span ∈ p.span?, p.Ends tokens span)
    (covers : ∀ c ∈ p.children, ¬ p.Exempts c → ∀ outer ∈ p.span?, ∀ inner ∈ c.span?,
      outer.Covers inner) : p.Annotates tokens := by
  cases p with
  | identifier id =>
    intro type htype
    have hchild : Piece.type type ∈ (Piece.identifier id).children := by
      simpa [children, Identifier.children] using htype
    exact covers _ hchild (fun h => h) _ rfl _ rfl
  | type t =>
    cases t with
    | function span params optional rest result =>
      obtain ⟨a, ha, b, -, -, hspan, hcovers⟩ := ends span rfl
      exact ⟨a, ha, by rw [hspan, Span.to_start], hcovers⟩
    | _ => trivial
  | generics g =>
    intro p hp
    have hchild : Piece.typeParameter p ∈ (Piece.generics g).children :=
      List.mem_append_left _ (List.mem_map_of_mem hp)
    exact covers _ hchild (fun h => h) _ rfl _ rfl
  | _ => trivial

/-- What lies along tokens covers the types that it carries. -/
theorem Laid.annotated {tokens : List Token} {p : Piece} (h : p.Laid tokens) : p.Annotated tokens := by
  induction h with
  | piece own ends _ covers ih => exact .piece own (.of_covers ends covers) ih
  | included _ consumes _ ih => exact .included consumes ih

end Piece

/-- In all that a call reads, names cover their types, function types that begin with their keyword have
parameters that cover theirs, and generics cover their parameters. -/
theorem call_annotated {host : Host} {path source : String} {entry : Entry} {tree : Tree} {q : Parser}
    (h : (Parser.ofScript host (Script.ofSource path source)).call entry = (some tree, q)) :
    ∃ tokens, Consumes (Parser.ofScript host (Script.ofSource path source)).state tokens q.state ∧
      tree.piece.Annotated tokens := by
  obtain ⟨hvalid, hread, -⟩ := Parser.call_some h
  have hordered := Parser.ofScript_ordered hvalid
  cases Entry.read_ok hread with
  | node hbuilds =>
    obtain ⟨tokens, hconsumes, -, hlaid⟩ := hbuilds.laid hordered
    exact ⟨tokens, hconsumes, (hlaid _ List.mem_cons_self).annotated⟩
  | empty hbuilds =>
    obtain ⟨tokens, hconsumes, -⟩ := hbuilds.laid hordered
    exact ⟨tokens, hconsumes, .piece rfl trivial (by simp [Tree.piece, Piece.children])⟩

/-- A definition with generics and function types in both forms. -/
theorem call_annotated_typed :
    let p := Parser.ofScript (Host.ofFiles [])
      (Script.ofSource "/m.es" "type A.<T> where T is U = (a: T) -> function(b: T): T")
    ∃ tree q tokens, p.call .program = (some tree, q) ∧ Consumes p.state tokens q.state ∧
      tree.piece.Annotated tokens := by
  intro p
  have hread : (p.call .program).1.isSome = true := by decide +kernel
  cases hcall : p.call .program with
  | mk answer q =>
    rw [hcall] at hread
    obtain ⟨tree, rfl⟩ := Option.isSome_iff_exists.mp hread
    obtain ⟨tokens, hconsumes, hannotated⟩ := call_annotated hcall
    exact ⟨tree, q, tokens, rfl, hconsumes, hannotated⟩

/-- A bound that ends behind the generics, and a type that ends behind the parameter it belongs to. -/
theorem uncovered_of_found {answer : Option Tree} (h : (match answer with
    | some (.program ⟨_, _, [.typeDef _ _ _ (some ⟨outer, _, [bound]⟩)
        (.function _ [⟨name, _, some type⟩] _ _ _)]⟩) =>
      decide (outer.stop < bound.span.stop) && decide (name.stop < type.span.stop)
    | _ => false) = true) :
    ∃ tree, answer = some tree ∧
      match tree with
      | .program ⟨_, _, [.typeDef _ _ _ (some ⟨outer, _, [bound]⟩)
          (.function _ [⟨name, _, some type⟩] _ _ _)]⟩ =>
        ¬ outer.Covers bound.span ∧ ¬ name.Covers type.span
      | _ => False := by
  split at h
  · rw [Bool.and_eq_true, decide_eq_true_eq, decide_eq_true_eq] at h
    exact ⟨_, rfl, fun hcovers => absurd hcovers.stop (Nat.not_le.mpr h.1),
      fun hcovers => absurd hcovers.stop (Nat.not_le.mpr h.2)⟩
  · cases h

/-- The parameter before the arrow does not cover its type, nor do the generics cover their bound. -/
theorem call_annotated_apart :
    ∃ tree, ((Parser.ofScript (Host.ofFiles [])
        (Script.ofSource "/m.es" "type A.<T> where T is U = (a: T) -> R")).call .program).1 = some tree ∧
      match tree with
      | .program ⟨_, _, [.typeDef _ _ _ (some ⟨outer, _, [bound]⟩)
          (.function _ [⟨name, _, some type⟩] _ _ _)]⟩ =>
        ¬ outer.Covers bound.span ∧ ¬ name.Covers type.span
      | _ => False :=
  uncovered_of_found (by decide +kernel)

end ActionSyntax
