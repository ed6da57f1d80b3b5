import ActionSyntax.Grammar.Functions
import ActionSyntax.Proofs.Follows.Types

/-!
How type parameters, patterns and functions are read, side by side.
-/

namespace ActionSyntax.Alike

set_option autoImplicit false

open Parse Rules

variable {refused : ParserState → Prop} {r r' : Rules} {known : List Place}

theorem typeParameter_follows : Follows refused known typeParameter typeParameter :=
  .seq identifier_follows fun _ => .pure _ (List.nil_subset _)

theorem asPattern_follows (e : Expr) (he : places e ⊆ known) :
    Follows refused known (asPattern e) (asPattern e) := by
  unfold asPattern
  cases hpattern : Pattern.ofExpr e with
  | ok pattern => exact .pure _ (List.nil_subset _)
  | error bad =>
    refine stopAt_follows _ _ _ fun place hplace => he ?_
    exact List.mem_flatMap.mpr ⟨bad, Pattern.ofExpr_error hpattern, hplace⟩

/-- There is at least one item. -/
theorem separated_ne_nil {α : Type} {item : Parse α} {fuel : Nat} {s t : ParserState}
    {items : List α} (h : separated item fuel s = .ok items t) : items ≠ [] := by
  cases fuel with
  | zero => cases h
  | succ fuel =>
    obtain ⟨first, u, -, h⟩ := bind_ok h
    obtain ⟨more, v, -, h⟩ := bind_ok h
    split at h
    · obtain ⟨rest, w, -, h⟩ := bind_ok h
      cases h
      exact List.cons_ne_nil _ _
    · cases h
      exact List.cons_ne_nil _ _

theorem endsHere_follows (defines : Bool) :
    Follows refused known (endsHere defines) (endsHere defines) :=
  .ite endStatement_follows (.pure _ (List.nil_subset _))

theorem addArrowParam_follows (params : Params) (e : Expr) (he : places e ⊆ known) :
    Follows refused known (addArrowParam params e) (addArrowParam params e) := by
  unfold addArrowParam
  split
  · exact .seq (asPattern_follows _ (by grind)) fun _ => .pure _ (List.nil_subset _)
  · refine .seq (syntaxError_follows _ _ ?_) fun _ => .pure _ (List.nil_subset _)
    exact List.Subset.trans (fun _ => mem_places_expr (e := .assignment _ _ _ _)) he
  · refine .seq (asPattern_follows _ he) fun pattern => ?_
    exact .optional (syntaxError_follows _ _ (by grind)) (.pure _ (List.nil_subset _))

theorem arrowParams_follows (expressions : List Expr) (hexpressions : places expressions ⊆ known) :
    Follows refused known (arrowParams expressions) (arrowParams expressions) :=
  Follows.foldlM expressions _ hexpressions (List.nil_subset _) fun params e _ _ _ he =>
    addArrowParam_follows params e he

variable (h : Alike refused r r')
include h

theorem optGenerics_follows : Follows refused known r.optGenerics r'.optGenerics := by
  refine .seq (at?_follows .dot) fun present => ?_
  refine .ite (.pure none (List.nil_subset _)) ?_
  refine .seq mark_follows fun m => ?_
  refine .seq next_follows fun _ => ?_
  refine .seq (expectOperator_follows _) fun _ => ?_
  refine .seq (h.separated_follows fun _ => typeParameter_follows) fun params => ?_
  exact .seq expectGreater_follows fun _ => finished_follows m (by grind) fun _ => List.nil_subset _

theorem typeBound_follows : Follows refused known r.typeBound r'.typeBound := by
  refine .seq mark_follows fun m => ?_
  refine .seq identifier_follows fun id => ?_
  refine .seq (expectKeyword_follows _) fun _ => ?_
  exact .seq (h.typeExpr _) fun type => finished_follows m (by grind) fun _ => List.nil_subset _

theorem boundsClause?_follows (generics : Option Generics) :
    Follows refused known (r.boundsClause? generics) (r'.boundsClause? generics) := by
  refine .seq (consumeKeyword_follows _) fun bounded => ?_
  exact .ite (.seq (h.separated_follows fun _ => h.typeBound_follows) fun _ =>
    .pure _ (List.nil_subset _)) (.pure none (List.nil_subset _))

theorem primary_follows (allowTyped : Bool) :
    Follows refused known (r.primary allowTyped) (r'.primary allowTyped) := by
  refine .seq (h.optPrimary allowTyped _ _) fun found => ?_
  cases found with
  | none => exact unexpected_follows
  | some e => exact .pure e (by grind)

theorem pattern_follows : Follows refused known r.pattern r'.pattern := by
  refine .seq kind_follows fun kind => ?_
  refine .optional unexpected_follows ?_
  exact .seq (h.primary_follows true) fun e => asPattern_follows e (by grind)

theorem optInit_follows (allowIn : Bool) :
    Follows refused known (r.optInit allowIn) (r'.optInit allowIn) := by
  refine .seq (consume_follows _) fun initialized => ?_
  exact .ite (.seq (h.assignmentExpr_follows allowIn) fun _ =>
    .pure _ (by grind)) (.pure none (List.nil_subset _))

theorem variableBinding_follows (allowIn : Bool) :
    Follows refused known (r.variableBinding allowIn) (r'.variableBinding allowIn) := by
  refine .seq mark_follows fun m => ?_
  refine .seq h.pattern_follows fun pattern => ?_
  exact .seq (h.optInit_follows allowIn) fun init => finished_follows m (by grind) fun _ _ h => h

theorem variableDeclaration?_follows :
    Follows refused known r.variableDeclaration? r'.variableDeclaration? := by
  refine .seq (atKeyword?_follows _) fun readOnly => ?_
  refine .seq (atKeyword?_follows _) fun changeable => ?_
  refine .ite (.pure none (List.nil_subset _)) ?_
  refine .seq mark_follows fun m => ?_
  refine .seq next_follows fun _ => ?_
  refine .seq (h.separated_follows fun _ => h.variableBinding_follows false) fun bindings => ?_
  exact .seq (finish_follows m (by grind)) fun span => .pure _ (by grind)

theorem restParam_follows : Follows refused known r.restParam r'.restParam :=
  .seq (h.variableBinding_follows true) fun binding =>
    .optional (syntaxError_follows _ _ (by grind)) (.pure _ (by grind))

theorem functionParams_follows :
    ∀ fuel params known, Follows refused known (r.functionParams fuel params)
      (r'.functionParams fuel params)
  | 0, _, _ => exhausted_follows
  | fuel + 1, params, known => by
    refine .seq (at?_follows .rightParen) fun closed => ?_
    refine .ite (.pure _ (List.nil_subset _)) ?_
    refine .seq (consume_follows _) fun atRest => ?_
    refine .ite (.seq h.restParam_follows fun _ => .pure _ (List.nil_subset _)) ?_
    refine .seq (h.variableBinding_follows true) fun binding => ?_
    refine .optional (syntaxError_follows _ _ (by grind)) ?_
    refine .seq (consume_follows _) fun more => ?_
    exact .ite (functionParams_follows fuel _ _) (.pure _ (List.nil_subset _))

theorem throwsType_follows : Follows refused known r.throwsType r'.throwsType := by
  intro s hs hknown
  refine Follows.bind_meets hs (h.separated_follows h.typeExpr s hs hknown) ?_
  intro types t hread _ ht htypes
  obtain ⟨first, rest, rfl⟩ := List.exists_cons_of_ne_nil (separated_ne_nil hread)
  refine (?_ : Follows refused (places (first :: rest)) _ _) t ht htypes
  split
  · exact .pure _ (by grind)
  · exact finished_follows _ (by grind) fun _ _ h => h

theorem functionClauses_follows :
    ∀ fuel clauses known, Follows refused known (r.functionClauses fuel clauses)
      (r'.functionClauses fuel clauses)
  | 0, _, _ => exhausted_follows
  | fuel + 1, clauses, known => by
    refine .seq (consumeKeyword_follows _) fun throws => ?_
    refine .ite ?_ ?_
    · refine .seq previous_follows fun word => ?_
      refine .optional (syntaxError_follows _ _ (by grind)) ?_
      exact .seq h.throwsType_follows fun type => functionClauses_follows fuel _ _
    · refine .seq (h.boundsClause?_follows _) fun found => ?_
      cases found with
      | none => exact .pure _ (List.nil_subset _)
      | some generics => exact functionClauses_follows fuel _ _

theorem functionBody_follows (role : FunctionRole) :
    Follows refused known (r.functionBody role) (r'.functionBody role) := by
  refine .seq (at?_follows .leftBrace) fun isBlock => ?_
  refine .ite (.seq (h.block _ _) fun _ => .pure _ (List.nil_subset _)) ?_
  refine .seq (endsHere_follows _) fun ended => ?_
  refine .ite (.pure _ (List.nil_subset _)) ?_
  refine .seq (h.assignmentExpr_follows true) fun body => ?_
  exact .seq (endsHere_follows _) fun _ => .pure _ (List.nil_subset _)

theorem functionParts_follows (generics : Option Generics) (role : FunctionRole) :
    Follows refused known (r.functionParts generics role) (r'.functionParts generics role) := by
  refine .seq mark_follows fun m => ?_
  refine .seq (expect_follows _) fun _ => ?_
  refine .seq (h.loop (fun fuel => h.functionParams_follows fuel {} _) (r'.functionParams_shortens {}))
    fun params => ?_
  refine .seq (expect_follows _) fun _ => ?_
  refine .seq h.optAnnotation_follows fun result => ?_
  refine .seq (h.loop (fun fuel => h.functionClauses_follows fuel _ _) (r'.functionClauses_shortens _))
    fun clauses => ?_
  refine .seq (inFunction_follows fun _ => h.functionBody_follows role) fun ⟨⟨body, ended⟩, use⟩ => ?_
  exact finished_follows m (by grind) fun _ => List.nil_subset _

theorem functionExpr_follows : Follows refused known r.functionExpr r'.functionExpr := by
  refine .seq mark_follows fun m => ?_
  refine .seq (expectKeyword_follows _) fun _ => ?_
  refine .seq consumeIdentifier_follows fun named => ?_
  refine .branch (.map previousIdentifier_follows (by grind)) (.pure none
    (List.nil_subset _)) fun id => ?_
  refine .seq (h.functionParts_follows none _) fun parts => ?_
  refine .seq (finish_follows m (by grind)) fun span => ?_
  refine .optional (syntaxError_follows _ _ ?_) (.pure _ ?_)
  · cases id <;> grind
  · exact List.subset_append_of_subset_left _ fun _ hplace => hplace

theorem arrowBody_follows : Follows refused known r.arrowBody r'.arrowBody := by
  refine .seq (at?_follows .leftBrace) fun isBlock => ?_
  exact .ite (.seq (h.block _ _) fun _ => .pure _ (List.nil_subset _))
    (.seq (h.assignmentExpr_follows true) fun _ => .pure _ (List.nil_subset _))

theorem arrowFunction_follows (m : Mark) (params : Params) (result : Option TypeExpr)
    (hm : places m ⊆ known) :
    Follows refused known (r.arrowFunction m params result) (r'.arrowFunction m params result) :=
  .seq (inFunction_follows fun _ => h.arrowBody_follows) fun ⟨_, _⟩ =>
    finished_follows m (by grind) fun _ _ h => h

end ActionSyntax.Alike
