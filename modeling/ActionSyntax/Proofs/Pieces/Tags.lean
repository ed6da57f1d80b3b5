import ActionSyntax.Proofs.Pieces.Piece
import ActionSyntax.Proofs.Pieces.Tokens

/-!
Tags among the tokens. An element is a node that a tag closes, or a list of nodes between empty tags.
Its opening tag gives the name that is kept in the tree, and the attributes; the name in its closing tag
leaves no trace there.
-/

namespace ActionSyntax

set_option autoImplicit false

/-- The tokens spell a name, its parts behind colons. -/
inductive TagName : List Token → List String → Prop
  | name {t : Token} (kind : t.kind = .identifier) : TagName [t] [t.text]
  | part {tokens : List Token} {names : List String} {colon t : Token} (h : TagName tokens names)
      (apart : colon.kind = .colon) (kind : t.kind = .identifier) :
      TagName (tokens ++ [colon, t]) (names ++ [t.text])

theorem TagName.single {t : Token} {names : List String} (h : TagName [t] names) :
    names = [t.text] := by
  generalize htokens : [t] = tokens at h
  cases h with
  | name => rw [List.singleton_inj.mp htokens]
  | part => simpa using congrArg List.length htokens

/-- The parts of the name that an expression is, as it names a node. -/
def Expr.tagName? : Expr → Option (List String)
  | .identifier ⟨_, name, none⟩ => some [name]
  | .member _ base ⟨_, name, none⟩ false => base.tagName?.map (· ++ [name])
  | _ => none

/-- The tokens that the tags of an element begin and end with. -/
structure TagMarks (less greater closing last : Token) : Prop where
  less : less.isOperator .less = true
  greater : greater.isOperator .greater = true
  closing : closing.kind = .closingTag
  last : last.isOperator .greater = true

/-- An element with the tokens that name it, its attributes and children, and the tokens that name what
its closing tag closes. The tags of a list of nodes are empty. -/
inductive Expr.Element : Expr → List Token → List NodeAttribute → List Expr → List Token → Prop
  | node {span : Span} {id : Expr} {attributes : List NodeAttribute} {children : List Expr}
      {opening ending : List Token} {names others : List String} (named : id.tagName? = some names)
      (opens : TagName opening names) (closes : TagName ending others) :
      Element (.node span id attributes (some children)) opening attributes children ending
  | list {span : Span} {children : List Expr} : Element (.nodeList span children) [] [] children []

namespace Expr

/-- Names hold no other pieces than names. -/
theorem among_tagName {e : Expr} {names : List String} (h : e.tagName? = some names) {deep : Bool}
    {q : Piece} (hq : Piece.Among deep [.expr e] q) : q.isNotable = false := by
  fun_induction tagName? e generalizing names with
  | case1 =>
    simp [Piece.children, Expr.children, Identifier.children, Piece.entered] at hq
    rcases hq with rfl | rfl <;> rfl
  | case2 span base nameSpan name ih =>
    obtain ⟨before, hbase, -⟩ := Option.map_eq_some_iff.mp h
    have hin : q = .expr (.member span base ⟨nameSpan, name, none⟩ false) ∨ Piece.Among deep [.expr base] q ∨
        q = .identifier ⟨nameSpan, name, none⟩ := by
      simpa [Piece.children, Expr.children, Identifier.children, Piece.entered] using hq
    rcases hin with rfl | hin | rfl
    · rfl
    · exact ih hbase hin
    · rfl
  | case3 => cases h

end Expr

namespace Expr.Element

variable {e : Expr} {opening ending : List Token} {attributes : List NodeAttribute} {children : List Expr}

/-- All that is notable in an element stands in its attributes and children. -/
theorem among (h : e.Element opening attributes children ending) {deep : Bool} {q : Piece}
    (notable : q.isNotable = true) (hq : Piece.Among deep (Piece.expr e).children q) :
    Piece.Among deep (attributes.map .attribute) q ∨ Piece.Among deep (children.map .expr) q := by
  cases h with
  | list => exact Or.inr hq
  | @node span id attributes children _ _ _ _ named =>
    have hin : Piece.Among deep ([.expr id] ++ attributes.map .attribute ++ children.map .expr) q := hq
    rcases Piece.among_append.mp hin with hin | hin
    · rcases Piece.among_append.mp hin with hin | hin
      · cases notable.symm.trans (among_tagName named hin)
      · exact Or.inl hin
    · exact Or.inr hin

end Expr.Element

end ActionSyntax
