import ActionSyntax.Proofs.Building.Types

/-!
What is built of type parameters, patterns and functions.
-/

namespace ActionSyntax

set_option autoImplicit false

open Parse Setting Rules

/-- All parameters, the required ones first. -/
def Rules.Params.all (p : Params) : List VariableBinding := p.required ++ p.optional ++ p.rest.toList

namespace FunctionCommon

/-- What stands in a function in front of its body. -/
def signature (f : FunctionCommon) : List Piece :=
  f.bindings.map .binding ++ f.result.toList.map .type ++ f.throws.toList.map .type

theorem children_eq (f : FunctionCommon) : f.children = f.signature ++ [.body f.use f.body] := rfl

theorem signature_inert (f : FunctionCommon) : ∀ p ∈ f.signature, p.isInert = true := by
  simp only [signature, List.mem_append, List.mem_map]
  rintro p ((⟨_, _, rfl⟩ | ⟨_, _, rfl⟩) | ⟨_, _, rfl⟩) <;> rfl

end FunctionCommon

namespace Rules.Params

theorem add_all {p : Params} (hrest : p.rest = none) (binding : VariableBinding) :
    (p.add binding).all.Perm (p.all ++ [binding]) := by
  unfold add
  split
  · simp [all, hrest]
  · simp only [all, hrest, Option.toList_none, List.append_nil, List.append_assoc]
    exact List.perm_append_comm.append_left _

theorem add_rest (p : Params) (binding : VariableBinding) : (p.add binding).rest = p.rest := by
  unfold add
  split <;> rfl

theorem withRest_all {p : Params} (hrest : p.rest = none) (binding : VariableBinding) :
    ({ p with rest := some binding } : Params).all = p.all ++ [binding] := by
  simp [all, hrest]

end Rules.Params

section Names

variable {lossy : Prop} {s t : ParserState}

theorem Rules.typeParameter_ok {p : TypeParameter} (h : typeParameter s = .ok p t) :
    Whole lossy s (.typeParameter p) t := by
  obtain ⟨id, u, hid, h⟩ := bind_ok h
  cases h
  have hid : Whole lossy s (.identifier id) _ := identifier_ok hid
  exact ⟨.whole hid.builds hid.ends ⟨rfl, trivial, trivial⟩, hid.ends⟩

theorem Rules.optGenerics_ok {r : Rules} {generics : Option Generics} (h : r.optGenerics s = .ok generics t) :
    Builds lossy false s (generics.toList.map .generics) t := by
  unfold optGenerics at h
  rw [at?_bind] at h
  split at h
  · cases h
    exact .refl _
  rename_i hdot
  have hdot : s.token.kind = .dot := by simpa using hdot
  rw [mark_bind] at h
  obtain ⟨u, hu, h⟩ := bind_next lossy (by simp [hdot]) h
  obtain ⟨v, hv, -, h⟩ := bind_expect lossy (proper_operator _) h
  obtain ⟨params, w, hw, h⟩ := bind_ok h
  obtain ⟨_, x, hx, h⟩ := bind_ok h
  cases h
  have hparams : Builds lossy true _ _ _ := separated_each (fun h => (typeParameter_ok h).builds) hw
  have hread := hu.builds.skip (hv.builds.skip (hparams.close (expectGreater_ok hx)))
  exact (BuildsIn.whole (p := .generics _) (by simpa [Piece.children] using hread)
    rfl ⟨rfl, trivial, trivial⟩).weaken

theorem Rules.asPattern_ok {e : Expr} {p : Pattern} (h : asPattern e s = .ok p t) :
    t = s ∧ Pattern.ofExpr e = .ok p := by
  unfold asPattern at h
  cases hp : Pattern.ofExpr e with
  | ok found =>
    rw [hp] at h
    cases h
    exact ⟨rfl, rfl⟩
  | error span =>
    rw [hp] at h
    cases h

/-- What is read around a body is what its function has been seen to use. -/
theorem Parse.inFunction_ok {α : Type} {c a : Bool} {read : Parse α} {value : α} {use : FunctionUse}
    {f : α → Option FunctionBody}
    (hread : ∀ {s value t}, read s = .ok value t →
      BuildsIn lossy c a s ((f value).toList.map FunctionBody.piece) t)
    (h : inFunction read s = .ok (value, use) t) :
    BuildsIn lossy c a s [.body use (f value)] t := by
  unfold inFunction pushFunction at h
  obtain ⟨_, u, hu, h⟩ := bind_ok h
  cases hu
  obtain ⟨found, v, hv, h⟩ := bind_ok h
  obtain ⟨used, w, hw, h⟩ := bind_ok h
  cases hw
  cases h
  exact .body (hread hv)

end Names

namespace Rules.Builder

variable {lossy : Prop} {r : Rules} (R : r.Builder lossy) {s t u : ParserState}
include R

theorem typeBound_ok {bound : TypeBound} (h : r.typeBound s = .ok bound t) :
    Whole lossy s (.typeBound bound) t := by
  unfold typeBound at h
  rw [mark_bind] at h
  obtain ⟨id, u, hu, h⟩ := bind_ok h
  obtain ⟨v, hv, -, h⟩ := bind_expect lossy (proper_keyword _) h
  obtain ⟨type, w, hw, h⟩ := bind_ok h
  cases h
  exact ⟨.whole ((identifier_ok hu).builds.seq (hv.builds.skip (R.typeExpr hw).builds))
    rfl ⟨rfl, trivial, trivial⟩, rfl⟩

/-- Generics with the bounds of one more clause. -/
theorem boundsClause?_ok {generics found : Option Generics}
    (h : r.boundsClause? generics s = .ok found t) :
    match found with
    | some longer => Gathers lossy true s (generics.toList.map .generics) [.generics longer] t
    | none => t = s := by
  rcases bind_if lossy (proper_keyword _) h with ⟨u, hu, -, h⟩ | h
  · obtain ⟨bounds, v, hv, h⟩ := bind_ok h
    cases h
    have hbounds := separated_each (fun h => (R.typeBound_ok h).builds) hv
    refine ⟨_, hu.builds.skip hbounds, ?_⟩
    cases generics with
    | some g => exact .bounds g bounds
    | none =>
      obtain ⟨first, rest, -, rfl, -⟩ :=
        separated_cons (f := fun b => [.typeBound b]) (fun h => (R.typeBound_ok h).builds) hv
      exact .boundsAlone first rest
  · cases h
    rfl

theorem expr_ok {mode : ExprMode} {e : Expr} (h : r.expr mode s = .ok e t) :
    ExprRead lossy s e t := by
  obtain ⟨found, u, hu, h⟩ := bind_ok h
  have hfound := R.optExpr hu
  cases found with
  | some e =>
    cases h
    exact hfound
  | none => exact (unexpected_ok h).elim

theorem assignmentExpr_ok {allowIn : Bool} {e : Expr} (h : r.assignmentExpr allowIn s = .ok e t) :
    ExprRead lossy s e t := R.expr_ok h

theorem primary_ok {allowTyped : Bool} {e : Expr} (h : r.primary allowTyped s = .ok e t) :
    ExprRead lossy s e t := by
  obtain ⟨found, u, hu, h⟩ := bind_ok h
  have hfound := R.optPrimary hu
  cases found with
  | some e =>
    cases h
    exact hfound
  | none => exact (unexpected_ok h).elim

theorem pattern_ok {p : Pattern} (h : r.pattern s = .ok p t) : Whole lossy s (.pattern p) t := by
  unfold pattern at h
  rw [kind_bind] at h
  split at h
  · obtain ⟨_, u, hu, -⟩ := bind_ok h
    exact (unexpected_ok hu).elim
  obtain ⟨e, u, hu, h⟩ := bind_ok h
  obtain ⟨rfl, hp⟩ := asPattern_ok h
  have he := R.primary_ok hu
  refine ⟨he.builds.rework (.pattern hp), ?_⟩
  rw [← he.ends]
  exact congrArg some (Pattern.ofExpr_span hp)

theorem optInit_ok {allowIn : Bool} {init : Option Expr} (h : r.optInit allowIn s = .ok init t) :
    Builds lossy false s (init.toList.map .expr) t := by
  rcases bind_if lossy (proper_kind (by decide)) h with ⟨u, hu, -, h⟩ | h
  · obtain ⟨value, v, hv, h⟩ := bind_ok h
    cases h
    exact (hu.builds.skip (R.assignmentExpr_ok hv).builds).weaken
  · cases h
    exact .refl _

theorem variableBinding_ok {allowIn : Bool} {binding : VariableBinding}
    (h : r.variableBinding allowIn s = .ok binding t) : Whole lossy s (.binding binding) t := by
  unfold variableBinding at h
  rw [mark_bind] at h
  obtain ⟨pattern, u, hu, h⟩ := bind_ok h
  obtain ⟨init, v, hv, h⟩ := bind_ok h
  cases h
  exact ⟨.whole ((R.pattern_ok hu).builds.seq (R.optInit_ok hv)) rfl ⟨rfl, trivial, trivial⟩, rfl⟩

theorem variableDeclaration?_ok {found : Option VariableDeclaration}
    (h : r.variableDeclaration? s = .ok found t) :
    match found with
    | some d => Whole lossy s (.declaration d) t
    | none => t = s := by
  unfold variableDeclaration? at h
  rw [atKeyword?_bind, atKeyword?_bind] at h
  split at h
  · cases h
    rfl
  rename_i hword
  have hkind : s.token.kind ≠ .endOfProgram := by
    intro hend
    simp [Token.isKeyword, hend] at hword
  rw [mark_bind] at h
  obtain ⟨u, hu, h⟩ := bind_next lossy hkind h
  obtain ⟨bindings, v, hv, h⟩ := bind_ok h
  cases h
  have hbindings := separated_each (fun h => (R.variableBinding_ok h).builds) hv
  exact ⟨.whole (hu.builds.skip hbindings) rfl ⟨rfl, trivial, trivial⟩, rfl⟩

theorem restParam_ok {binding : VariableBinding} (h : r.restParam s = .ok binding t) :
    Builds lossy true s [.binding binding] t := by
  obtain ⟨found, u, hu, h⟩ := bind_ok h
  obtain ⟨v, hv, h⟩ := bind_report lossy rfl h (by decide)
  cases h
  exact (R.variableBinding_ok hu).builds.close hv.builds

theorem functionParams_ok :
    ∀ {fuel : Nat} {params after : Params} {s t : ParserState}, params.rest = none →
      r.functionParams fuel params s = .ok after t →
      Gathers lossy false s (params.all.map .binding) (after.all.map .binding) t
  | 0, _, _, _, _, _, h => (exhausted_ok h).elim
  | fuel + 1, params, after, s, t, hrest, h => by
    unfold functionParams at h
    rw [at?_bind] at h
    split at h
    · cases h
      exact .refl _ _
    rcases bind_if lossy (proper_kind (by decide)) h with ⟨u, hu, -, h⟩ | h
    · obtain ⟨rest, v, hv, h⟩ := bind_ok h
      cases h
      refine ⟨[.binding rest], (hu.builds.skip (R.restParam_ok hv)).weaken, ?_⟩
      rw [Params.withRest_all hrest, List.map_append]
      exact .refl _
    obtain ⟨binding, u, hu, h⟩ := bind_ok h
    obtain ⟨v, hv, h⟩ := bind_report lossy rfl h (by decide)
    have hone : Gathers lossy true s (params.all.map .binding)
        ((params.add binding).all.map .binding) v := by
      refine ⟨[.binding binding], (R.variableBinding_ok hu).builds.close hv.builds, ?_⟩
      have hperm := (Params.add_all hrest binding).symm.map Piece.binding
      rw [List.map_append] at hperm
      exact .of_perm hperm
    rcases bind_if lossy (proper_kind (by decide)) h with ⟨w, hw, -, h⟩ | h
    · have hcomma : Gathers lossy true v ((params.add binding).all.map .binding)
          ((params.add binding).all.map .binding) w := ⟨[], hw.builds, by simpa using .refl _⟩
      have hmore := functionParams_ok ((Params.add_rest params binding).trans hrest) h
      exact (hone.trans (hcomma.trans hmore)).loose
    · cases h
      exact hone.loose

/-- Several types read as their union, which begins where the first of them does. -/
theorem throwsType_ok {type : TypeExpr} (h : r.throwsType s = .ok type t) :
    Builds lossy true s [.type type] t := by
  obtain ⟨types, u, hu, h⟩ := bind_ok h
  obtain ⟨first, rest, v, rfl, hfirst, hrest⟩ := separated_cons (f := fun type => [.type type])
    (fun h => (R.typeExpr h).builds) hu
  have htype := R.typeExpr hfirst
  rw [← List.map_eq_flatMap] at hrest
  cases rest with
  | nil =>
    cases h
    exact htype.builds.close hrest
  | cons second others =>
    cases h
    obtain ⟨a, w, hw, hwhole⟩ := htype
    have hspan : first.span = w.token.span.«to» v.previous.span := Option.some_inj.mp hwhole.ends
    have hends : some ((Mark.ofSpan first.span).«to» t.previous.span) =
        some (w.token.span.«to» t.previous.span) := by rw [hspan]; rfl
    have hunion : Whole lossy w (.type (.union ((Mark.ofSpan first.span).«to» t.previous.span)
        (first :: second :: others))) t := ⟨.whole (hwhole.builds.seq hrest) hends
          ⟨rfl, trivial, trivial⟩, hends⟩
    exact TypeRead.builds ⟨a, w, hw, hunion⟩

/-- The types and the bounds of the clauses. Bounds are added to the generics before. -/
theorem functionClauses_ok :
    ∀ {fuel : Nat} {clauses after : Clauses} {s t : ParserState},
      r.functionClauses fuel clauses s = .ok after t →
      ∃ types bounds, Builds lossy false s (types ++ bounds) t ∧
        Reworks (clauses.throws.toList.map .type ++ types) (after.throws.toList.map .type) ∧
        Reworks (clauses.generics.toList.map .generics ++ bounds)
          (after.generics.toList.map .generics)
  | 0, _, _, _, _, h => (exhausted_ok h).elim
  | fuel + 1, clauses, after, s, t, h => by
    rcases bind_if lossy (proper_keyword _) h with ⟨u, hu, -, h⟩ | h
    · rw [previous_bind] at h
      obtain ⟨v, hv, h⟩ := bind_report lossy rfl h (by decide)
      obtain ⟨type, w, hw, h⟩ := bind_ok h
      obtain ⟨types, bounds, hmore, htypes, hbounds⟩ := functionClauses_ok h
      have htype := hu.builds.skip (hv.builds.skip (R.throwsType_ok hw))
      refine ⟨.type type :: types, bounds, (htype.seq hmore).weaken, ?_, hbounds⟩
      have herase : Reworks (clauses.throws.toList.map .type) [] :=
        .eraseTypal (by simp [Piece.isTypal])
      exact (herase.append (.refl _)).trans htypes
    · obtain ⟨found, u, hu, h⟩ := bind_ok h
      have hfound := R.boundsClause?_ok hu
      cases found with
      | none =>
        cases h
        rw [hfound]
        exact ⟨[], [], .refl _, by simpa using .refl _, by simpa using .refl _⟩
      | some longer =>
        obtain ⟨first, hfirst, hlonger⟩ := hfound
        obtain ⟨types, bounds, hmore, htypes, hbounds⟩ := functionClauses_ok h
        refine ⟨types, first ++ bounds, ?_, htypes, ?_⟩
        · refine ((hfirst.seq hmore).rework (.of_perm ?_)).weaken
          rw [← List.append_assoc, ← List.append_assoc]
          exact List.perm_append_comm.append_right _
        · rw [← List.append_assoc]
          exact (hlonger.append (.refl _)).trans hbounds

omit R in
theorem endsHere_ok {defines ended : Bool} (h : endsHere defines s = .ok ended t) :
    Builds lossy false s [] t := by
  unfold endsHere at h
  split at h
  · exact endStatement_ok h
  · cases h
    exact .refl _

theorem functionBody_ok {role : FunctionRole} {body : Option FunctionBody} {ended : Bool}
    (h : r.functionBody role s = .ok (body, ended) t) :
    BuildsIn lossy (role == .constructor) false s (body.toList.map FunctionBody.piece) t := by
  unfold functionBody at h
  rw [at?_bind] at h
  split at h
  · obtain ⟨block, u, hu, h⟩ := bind_ok h
    cases h
    exact (R.block (.functionBody _) hu).builds.weaken
  obtain ⟨none, u, hu, h⟩ := bind_ok h
  have hu : Builds lossy false _ [] _ := endsHere_ok hu
  split at h
  · cases h
    exact hu.anywhere nofun
  obtain ⟨body, v, hv, h⟩ := bind_ok h
  obtain ⟨ended, w, hw, h⟩ := bind_ok h
  cases h
  have hbody := (hu.skip ((R.assignmentExpr_ok hv).builds.close (endsHere_ok hw))).loose
  exact hbody.anywhere (by simp [Piece.isInert])

/-- A function up to its body, with the bounds that are added to the generics before it, and then its
body. -/
theorem functionHead_ok {generics : Option Generics} {role : FunctionRole} {parts : FunctionParts}
    (h : r.functionParts generics role s = .ok parts t) :
    ∃ u bounds, Builds lossy true s (parts.common.signature ++ bounds) u ∧
      BuildsIn lossy (role == .constructor) false u [.body parts.common.use parts.common.body] t ∧
      Reworks (generics.toList.map .generics ++ bounds) (parts.generics.toList.map .generics) ∧
      parts.common.span = s.token.span.«to» t.previous.span := by
  unfold functionParts at h
  rw [mark_bind] at h
  obtain ⟨u, hu, -, h⟩ := bind_expect lossy (proper_kind (by decide)) h
  obtain ⟨params, v, hv, h⟩ := bind_ok h
  obtain ⟨w, hw, -, h⟩ := bind_expect lossy (proper_kind (by decide)) h
  obtain ⟨result, x, hx, h⟩ := bind_ok h
  obtain ⟨clauses, y, hy, h⟩ := bind_ok h
  obtain ⟨⟨⟨body, ended⟩, use⟩, z, hz, h⟩ := bind_ok h
  cases h
  obtain ⟨types, bounds, hclauses, htypes, hbounds⟩ := R.functionClauses_ok hy
  have htypes : Reworks types (clauses.throws.toList.map .type) := by simpa using htypes
  have hparams := (R.functionParams_ok rfl hv).onto (.refl _)
  have hbody : BuildsIn lossy (role == .constructor) false y [.body use body] t :=
    inFunction_ok (f := Prod.fst) (fun h => R.functionBody_ok h) hz
  have hread := hu.builds.skip ((hparams.close hw.builds).seq
    ((R.optAnnotation_ok hx).seq (hclauses.rework (htypes.append (.refl bounds)))))
  refine ⟨y, bounds, ?_, hbody, hbounds, rfl⟩
  simpa [FunctionCommon.signature, FunctionCommon.bindings, Params.all] using hread

/-- A function, with the bounds that are added to the generics before it. -/
theorem functionParts_ok {generics : Option Generics} {role : FunctionRole} {parts : FunctionParts}
    (hrole : role ≠ .constructor) (h : r.functionParts generics role s = .ok parts t) :
    ∃ bounds, Builds lossy true s (.function parts.common :: bounds) t ∧
      Reworks (generics.toList.map .generics ++ bounds)
        (parts.generics.toList.map .generics) := by
  obtain ⟨u, bounds, hhead, hbody, hbounds, hspan⟩ := R.functionHead_ok h
  rw [beq_false_of_ne hrole] at hbody
  -- The bounds are read before the body and are none of the function's own.
  have hread : Builds lossy true s (parts.common.children ++ bounds) t := by
    refine (hhead.seq hbody).rework (.of_perm ?_)
    rw [parts.common.children_eq, List.append_assoc, List.append_assoc]
    exact List.perm_append_comm.append_left _
  exact ⟨bounds, .node hread rfl (Or.inr ⟨_, rfl⟩) (congrArg some hspan) (fun _ => trivial)
    fun _ => trivial, hbounds⟩

/-- A function that has no generics of its own. The bounds of its clauses are left out. -/
theorem plainParts_ok {role : FunctionRole} {parts : FunctionParts}
    (h : r.functionParts none role s = .ok parts t) :
    BuildsIn lossy (role == .constructor) true s [.function parts.common] t := by
  obtain ⟨u, bounds, hhead, hbody, hbounds, hspan⟩ := R.functionHead_ok h
  have herase : Reworks bounds [] := hbounds.trans (.eraseTypal (by simp [Piece.isTypal]))
  have hsignature : Builds lossy true s parts.common.signature u := by
    simpa using hhead.rework ((Reworks.refl _).append herase)
  have hread := (hsignature.anywhere parts.common.signature_inert).seq hbody
  exact .whole hread (congrArg some hspan) ⟨rfl, trivial, trivial⟩

theorem functionExpr_ok {e : Expr} (h : r.functionExpr s = .ok e t) : ExprRead lossy s e t := by
  unfold functionExpr at h
  rw [mark_bind] at h
  obtain ⟨u, hu, -, h⟩ := bind_expect lossy (proper_keyword _) h
  obtain ⟨named, v, hv, h⟩ := bind_ok h
  obtain ⟨id, w, hw, h⟩ := bind_either h
  obtain ⟨parts, x, hx, h⟩ := bind_ok h
  rw [finish_bind] at h
  obtain ⟨y, hy, h⟩ := bind_report lossy rfl h (by decide)
  cases h
  have hid : Builds lossy false u (id.toList.map .identifier) w := by
    rcases consumeIf_ok lossy (proper_kind (by decide)) hv with ⟨rfl, -, hv⟩ | ⟨rfl, rfl⟩
    · rcases hw with ⟨-, hw⟩ | ⟨hne, -⟩
      · obtain ⟨found, hfound, rfl⟩ := map_ok hw
        exact (previousIdentifier_ok hv hfound).builds.weaken
      · exact (hne rfl).elim
    · rcases hw with ⟨hne, -⟩ | ⟨-, hw⟩
      · cases hne
      · cases hw
        exact .refl _
  have hread := hu.builds.skip (hid.seq (R.plainParts_ok hx))
  exact ⟨⟨.whole (hread.aside hy.builds) (hy.span_to _)
    ⟨rfl, trivial, trivial⟩, hy.span_to _⟩, trivial⟩

section Arrows

omit R

/-- Takes an expression that has been read for a parameter. -/
theorem addArrowParam_ok {a : Bool} {params after : Params} {e : Expr} {rest : List Piece}
    (hrest : params.rest = none) (tight : e.Tight)
    (hu : Builds lossy a s (params.all.map .binding ++ .expr e :: rest) u)
    (h : addArrowParam params e u = .ok after t) :
    after.rest = none ∧ Builds lossy a s (after.all.map .binding ++ rest) t := by
  have hadd : ∀ {w : ParserState} {binding : VariableBinding},
      Builds lossy a s (params.all.map .binding ++ .expr e :: rest) w →
      Reworks [.expr e] [.binding binding] → (params.add binding).rest = none ∧
        Builds lossy a s ((params.add binding).all.map .binding ++ rest) w := by
    intro w binding hw hone
    refine ⟨(Params.add_rest params binding).trans hrest, hw.rework ?_⟩
    have hperm := (Params.add_all hrest binding).symm.map Piece.binding
    rw [List.map_append] at hperm
    have hall := ((Reworks.refl (params.all.map .binding)).append hone).append (.refl rest)
    simpa using hall.trans ((Reworks.of_perm hperm).append (.refl rest))
  unfold addArrowParam at h
  split at h
  · rename_i span left right
    obtain ⟨pattern, v, hv, hgo⟩ := bind_ok h
    obtain ⟨rfl, hpattern⟩ := asPattern_ok hv
    cases hgo
    exact hadd hu (.initialized hpattern tight)
  · obtain ⟨_, v, hv, hgo⟩ := bind_ok h
    cases hv
    cases hgo
    refine ⟨hrest, .lose (hu.aside (.report u rfl)) ?_ (Or.inr ⟨?_, Bool.and_false _⟩)⟩
    · exact List.append_subset.mpr ⟨List.subset_append_left _ _,
        List.subset_append_of_subset_right _ (List.subset_cons_self _ _)⟩
    · exact ⟨_, Array.mem_push_self, rfl⟩
  · obtain ⟨pattern, v, hv, hgo⟩ := bind_ok h
    obtain ⟨rfl, hpattern⟩ := asPattern_ok hv
    obtain ⟨w, hw, hdone⟩ := bind_report lossy rfl hgo (by decide)
    cases hdone
    exact hadd (hu.aside hw.builds) (.binding hpattern)

theorem arrowParams_ok {a : Bool} {items : List Expr} {params : Params}
    (tight : ∀ e ∈ items, e.Tight) (hu : Builds lossy a s (items.map .expr) u)
    (h : arrowParams items u = .ok params t) :
    params.rest = none ∧ Builds lossy a s (params.all.map .binding) t := by
  have fold : ∀ (items : List Expr) (before after : Params) {u : ParserState},
      before.rest = none → (∀ e ∈ items, e.Tight) →
      Builds lossy a s (before.all.map .binding ++ items.map .expr) u →
      (items.foldlM addArrowParam before : Parse Params) u = .ok after t →
      after.rest = none ∧ Builds lossy a s (after.all.map .binding) t := by
    intro items
    induction items with
    | nil =>
      intro before after u hrest _ hu h
      cases h
      exact ⟨hrest, by simpa using hu⟩
    | cons e items ih =>
      intro before after u hrest tight hu h
      rw [List.foldlM_cons] at h
      obtain ⟨middle, v, hv, h⟩ := bind_ok h
      obtain ⟨hmiddle, hv⟩ := addArrowParam_ok hrest (tight e List.mem_cons_self) hu hv
      exact ih _ _ hmiddle (fun e he => tight e (List.mem_cons_of_mem _ he)) hv h
  exact fold items {} params rfl tight hu h

end Arrows

theorem arrowBody_ok {body : FunctionBody} (h : r.arrowBody s = .ok body t) :
    Builds lossy true s [body.piece] t := by
  unfold arrowBody at h
  rw [at?_bind] at h
  split at h
  · obtain ⟨block, u, hu, h⟩ := bind_ok h
    cases h
    exact (R.block (.functionBody _) hu).builds
  · obtain ⟨value, u, hu, h⟩ := bind_ok h
    cases h
    exact (R.assignmentExpr_ok hu).builds

theorem arrowFunction_ok {p : Params} {result : Option TypeExpr} {e : Expr}
    (hu : Builds lossy true s (p.all.map .binding ++ result.toList.map .type) u)
    (h : r.arrowFunction (Mark.ofSpan s.token.span) p result u = .ok e t) :
    ExprRead lossy s e t := by
  obtain ⟨⟨body, use⟩, v, hv, h⟩ := bind_ok h
  cases h
  have hbody : Builds lossy true u [.body use (some body)] t :=
    inFunction_ok (f := some) (fun h => R.arrowBody_ok h) hv
  refine ⟨⟨.whole (p := .expr _) (.whole (p := .function _) ?_ rfl ⟨rfl, trivial, trivial⟩) rfl
    ⟨rfl, trivial, trivial⟩, rfl⟩, trivial⟩
  simpa [Piece.children, FunctionCommon.children, FunctionCommon.bindings, FunctionCommon.use,
    Params.all] using hu.seq hbody

end Rules.Builder

end ActionSyntax
