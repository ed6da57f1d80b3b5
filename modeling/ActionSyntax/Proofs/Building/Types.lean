import ActionSyntax.Proofs.Building.Elementary

/-!
What is built of types.
-/

namespace ActionSyntax

set_option autoImplicit false

open Parse Setting Rules

theorem Token.not_keyword {t : Token} {word : String} (h : t.kind ≠ .keyword) :
    ¬ t.isKeyword word = true := fun hword => by
  simp only [Token.isKeyword, Bool.and_eq_true, beq_iff_eq] at hword
  exact h hword.1

/-- All parameters, the required ones first. -/
def Rules.TypeParams.all (p : TypeParams) : List Identifier :=
  p.required ++ p.optional.getD [] ++ p.rest.toList

namespace Rules.TypeParams

theorem addRequired_all {p : TypeParams} (hrest : p.rest = none) (id : Identifier) :
    (p.addRequired id).all.Perm (p.all ++ [id]) := by
  simp only [all, addRequired, hrest, Option.toList_none, List.append_nil, List.append_assoc]
  exact List.perm_append_comm.append_left _

theorem addOptional_all {p : TypeParams} (hrest : p.rest = none) (id : Identifier) :
    (p.addOptional id).all.Perm (p.all ++ [id]) := by
  simp [all, addOptional, hrest]

theorem withRest_all {p : TypeParams} (hrest : p.rest = none) (id : Identifier) :
    ({ p with rest := some id } : TypeParams).all = p.all ++ [id] := by
  simp [all, hrest]

end Rules.TypeParams

section Conversions

variable {lossy : Prop} {s t : ParserState}

/-- Types are taken for parameters, and what is none is reported and dropped. -/
structure Converted (lossy : Prop) (s : ParserState) (types : List TypeExpr)
    (before after : TypeParams) (t : ParserState) : Prop where
  builds : Builds lossy false s [] t
  rest : after.rest = none
  reworks : ∃ new : List Identifier, Reworks (types.map .type) (new.map .parameter) ∧
    after.all.Perm (before.all ++ new)

theorem convertTypeParam_ok {type : Option TypeExpr} {params after : TypeParams} {base : TypeExpr}
    (hrest : params.rest = none) (h : convertTypeParam type params base s = .ok after t) :
    Builds lossy false s [] t ∧ after.rest = none ∧ ∃ new : List Identifier,
      Reworks (.type base :: type.toList.map .type) (new.map .parameter) ∧
        after.all.Perm (params.all ++ new) := by
  have dropped : Reworks (.type base :: type.toList.map .type) (([] : List Identifier).map .parameter) :=
    .eraseTypal (by simp [Piece.isTypal])
  unfold convertTypeParam at h
  split at h
  · rename_i span inner name
    cases h
    exact ⟨.refl _, hrest, [_], .parameter (.nullable span (.name inner name)) name type,
      TypeParams.addOptional_all hrest _⟩
  · obtain ⟨_, u, hu, h⟩ := bind_ok h
    cases h
    refine ⟨report_ok rfl hu, hrest, [], dropped, ?_⟩
    simp [TypeParams.all]
  · rename_i span name
    have hnew := TypeParams.addRequired_all hrest { span, name, type }
    split at h
    · obtain ⟨_, u, hu, h⟩ := bind_ok h
      cases h
      exact ⟨report_ok rfl hu, hrest, [_], .parameter (.name span name) name type, hnew⟩
    · cases h
      exact ⟨.refl _, hrest, [_], .parameter (.name span name) name type, hnew⟩
  · obtain ⟨_, u, hu, h⟩ := bind_ok h
    cases h
    exact ⟨report_ok rfl hu, hrest, [], dropped, by simp⟩

theorem convertMore_ok {types : List TypeExpr} {before after : TypeParams} (hrest : before.rest = none)
    (h : (types.foldlM (fun params node =>
      match node with
      | .typed _ base type => convertTypeParam (some type) params base
      | node => convertTypeParam none params node) before : Parse TypeParams) s = .ok after t) :
    Converted lossy s types before after t := by
  induction types generalizing before s with
  | nil =>
    cases h
    exact ⟨.refl _, hrest, [], .refl [], by simp⟩
  | cons type types ih =>
    rw [List.foldlM_cons] at h
    obtain ⟨middle, u, hu, h⟩ := bind_ok h
    have hone : Builds lossy false s [] u ∧ middle.rest = none ∧ ∃ new : List Identifier,
        Reworks [.type type] (new.map .parameter) ∧ middle.all.Perm (before.all ++ new) := by
      split at hu
      · obtain ⟨hbuilds, hrest, new, hreworks, hperm⟩ := convertTypeParam_ok hrest hu
        exact ⟨hbuilds, hrest, new,
          .trans (.children ⟨rfl, rfl, fun _ => rfl, fun _ h => h, rfl⟩) hreworks, hperm⟩
      · exact convertTypeParam_ok hrest hu
    obtain ⟨hbuilds, hmiddle, new, hreworks, hperm⟩ := hone
    obtain ⟨hmore, hafter, others, hothers, hall⟩ := ih hmiddle h
    refine ⟨hbuilds.skip hmore, hafter, new ++ others, ?_, ?_⟩
    · rw [List.map_append]
      exact hreworks.append hothers
    · rw [← List.append_assoc]
      exact hall.trans (hperm.append_right others)

theorem convertTypeParams_ok {types : List TypeExpr} {params : TypeParams}
    (h : convertTypeParams types s = .ok params t) : Converted lossy s types {} params t :=
  convertMore_ok rfl h

end Conversions

namespace Rules.Builder

variable {lossy : Prop} {r : Rules} (R : r.Builder lossy) {s t u : ParserState}
include R

theorem optAnnotation_ok {type : Option TypeExpr} (h : r.optAnnotation s = .ok type t) :
    Builds lossy false s (type.toList.map .type) t := by
  rcases bind_if lossy (proper_kind (by decide)) h with ⟨u, hu, -, h⟩ | h
  · obtain ⟨type, v, htype, h⟩ := bind_ok h
    cases h
    exact (hu.builds.skip (R.typeExpr htype).builds).weaken
  · cases h
    exact .refl _

theorem typedIdentifierFrom_ok {name : String} {id : Identifier} (hu : Builds lossy true s [] u)
    (h : r.typedIdentifierFrom (Mark.ofSpan s.token.span) name u = .ok id t) :
    Whole lossy s (.identifier id) t := by
  obtain ⟨type, v, htype, h⟩ := bind_ok h
  cases h
  exact ⟨.whole (hu.skip (R.optAnnotation_ok htype)) rfl ⟨rfl, trivial, trivial⟩, rfl⟩

theorem typedIdentifier_ok {id : Identifier} (h : r.typedIdentifier s = .ok id t) :
    Whole lossy s (.identifier id) t := by
  unfold typedIdentifier at h
  rw [mark_bind] at h
  obtain ⟨name, u, hname, h⟩ := bind_ok h
  exact R.typedIdentifierFrom_ok (expectName_ok hname).1.builds h

theorem typeArguments_ok {arguments : List TypeExpr} (h : r.typeArguments s = .ok arguments t) :
    Builds lossy true s (arguments.map .type) t := by
  obtain ⟨_, u, hu, h⟩ := bind_ok h
  obtain ⟨_, v, hv, h⟩ := bind_ok h
  cases h
  exact (separated_each (fun h => (R.typeExpr h).builds) hu).close (expectGreater_ok hv)

theorem functionTypeParam_ok {id : Identifier} {optional : Bool}
    (h : r.functionTypeParam s = .ok (id, optional) t) : Builds lossy true s [.identifier id] t := by
  unfold functionTypeParam at h
  rw [mark_bind] at h
  obtain ⟨name, u, hname, h⟩ := bind_ok h
  obtain ⟨found, v, hv, h⟩ := bind_ok h
  obtain ⟨id', w, hid, h⟩ := bind_ok h
  cases h
  have hv : Builds lossy false u [] v := by
    rcases consumeIf_ok lossy (proper_kind (by decide)) hv with ⟨-, -, hv⟩ | ⟨-, rfl⟩
    · exact hv.builds.weaken
    · exact .refl _
  exact (R.typedIdentifierFrom_ok ((expectName_ok hname).1.builds.skip hv) hid).builds

theorem functionTypeParams_ok :
    ∀ {fuel : Nat} {params after : TypeParams} {s t : ParserState}, params.rest = none →
      r.functionTypeParams fuel params s = .ok after t →
      ∃ new : List Identifier, Builds lossy false s (new.map .identifier) t ∧
        after.all.Perm (params.all ++ new)
  | 0, _, _, _, _, _, h => (exhausted_ok h).elim
  | fuel + 1, params, after, s, t, hrest, h => by
    unfold functionTypeParams at h
    rw [at?_bind] at h
    split at h
    · cases h
      exact ⟨[], .refl _, by simp⟩
    rcases bind_if lossy (proper_kind (by decide)) h with ⟨u, hu, -, h⟩ | h
    · obtain ⟨rest, v, hv, h⟩ := bind_ok h
      cases h
      refine ⟨[rest], (hu.builds.skip (R.typedIdentifier_ok hv).builds).weaken, ?_⟩
      rw [TypeParams.withRest_all hrest]
    obtain ⟨⟨id, optional⟩, u, hid, h⟩ := bind_ok h
    simp only [token_bind] at h
    obtain ⟨v, hv, h⟩ := bind_report lossy rfl h (by decide)
    have hid := (R.functionTypeParam_ok hid).close hv.builds
    obtain ⟨middle, hmiddle, hperm, h⟩ : ∃ middle : TypeParams, middle.rest = none ∧
        middle.all.Perm (params.all ++ [id]) ∧ (consume .comma >>= fun more =>
          if more = true then r.functionTypeParams fuel middle else pure middle) v = .ok after t := by
      refine ⟨_, ?_, ?_, h⟩
      · split <;> exact hrest
      · split
        · exact TypeParams.addOptional_all hrest id
        · exact TypeParams.addRequired_all hrest id
    rcases bind_if lossy (proper_kind (by decide)) h with ⟨w, hw, -, h⟩ | h
    · obtain ⟨new, hnew, hall⟩ := functionTypeParams_ok hmiddle h
      refine ⟨id :: new, (hid.seq (hw.builds.skip hnew)).weaken, hall.trans ?_⟩
      simpa using hperm.append_right new
    · cases h
      exact ⟨[id], hid.weaken, hperm⟩

theorem functionType_ok {type : TypeExpr} (hu : Builds lossy true s [] u)
    (h : r.functionType (Mark.ofSpan s.token.span) u = .ok type t) :
    Whole lossy s (.type type) t := by
  obtain ⟨v, hv, -, h⟩ := bind_expect lossy (proper_kind (by decide)) h
  obtain ⟨params, w, hw, h⟩ := bind_ok h
  obtain ⟨new, hnew, hperm⟩ := R.functionTypeParams_ok rfl hw
  obtain ⟨x, hx, -, h⟩ := bind_expect lossy (proper_kind (by decide)) h
  obtain ⟨result, y, hy, h⟩ := bind_ok h
  cases h
  have hall : Reworks (new.map Piece.identifier) (params.all.map Piece.identifier) :=
    .of_perm ((hperm.trans (by simp [TypeParams.all])).symm.map _)
  have hread := hu.skip (hv.builds.skip ((hnew.rework hall).close hx.builds))
  exact ⟨.functionType (hread.seq (R.optAnnotation_ok hy)), rfl⟩

omit R in
/-- A function type written with an arrow is built of its parameters and its result. -/
theorem arrowType_built {params : TypeParams} {result : TypeExpr}
    (hparams : Builds lossy true s (params.all.map .parameter) u)
    (hresult : Builds lossy true u [.type result] t) (hword : s.token.kind ≠ .keyword) :
    Whole lossy s (.type (.function ((Mark.ofSpan s.token.span).«to» t.previous.span)
      params.required params.optional params.rest (some result))) t := by
  refine ⟨.checked ?_ rfl rfl (fun _ => trivial) fun hkey => (Token.not_keyword hword hkey).elim, rfl⟩
  simpa [TypeParams.all, Piece.children, TypeExpr.children] using hparams.seq hresult

theorem arrowType_ok {p : TypeParams} {type : TypeExpr}
    (hparams : Builds lossy true s (p.all.map .parameter) u) (hword : s.token.kind ≠ .keyword)
    (h : r.arrowType (Mark.ofSpan s.token.span) p u = .ok type t) :
    Whole lossy s (.type type) t := by
  obtain ⟨result, v, hv, h⟩ := bind_ok h
  cases h
  exact arrowType_built hparams (R.typeExpr hv).builds hword

/-- Types that have been read before an arrow are taken for parameters. -/
theorem convertedArrow_ok {types : List TypeExpr} {type : TypeExpr}
    (htypes : Builds lossy true s (types.map .type) u) (hword : s.token.kind ≠ .keyword)
    (h : (convertTypeParams types >>= fun params =>
      r.arrowType (Mark.ofSpan s.token.span) params) u = .ok type t) :
    Whole lossy s (.type type) t := by
  obtain ⟨params, v, hv, h⟩ := bind_ok h
  obtain ⟨hbuilds, -, new, hreworks, hperm⟩ : Converted lossy u types {} params v :=
    convertTypeParams_ok hv
  have hall : Reworks (types.map .type) (params.all.map .parameter) :=
    hreworks.trans (.of_perm ((hperm.trans (by simp [TypeParams.all])).symm.map _))
  exact R.arrowType_ok ((htypes.rework hall).close hbuilds) hword h

theorem moreTypes_ok {ends : TokenKind → Bool} :
    ∀ {fuel : Nat} {types : List TypeExpr} {s t : ParserState},
      r.moreTypes ends fuel s = .ok types t → Builds lossy false s (types.map .type) t
  | 0, _, _, _, h => (exhausted_ok h).elim
  | fuel + 1, types, s, t, h => by
    rcases bind_if lossy (proper_kind (by decide)) h with ⟨u, hu, -, h⟩ | h
    · rw [kind_bind] at h
      split at h
      · cases h
        exact hu.builds.weaken
      obtain ⟨first, v, hv, h⟩ := bind_ok h
      obtain ⟨rest, w, hw, h⟩ := bind_ok h
      cases h
      exact (hu.builds.skip ((R.typeExpr hv).builds.seq (moreTypes_ok hw))).weaken
    · cases h
      exact .refl _

theorem bracketType_ok {type : TypeExpr} (hu : Builds lossy true s [] u)
    (h : r.bracketType (Mark.ofSpan s.token.span) u = .ok type t) :
    Whole lossy s (.type type) t := by
  rcases bind_if lossy (proper_kind (by decide)) h with ⟨v, hv, -, h⟩ | h
  · obtain ⟨item, w, hw, h⟩ := bind_ok h
    obtain ⟨x, hx, -, h⟩ := bind_expect lossy (proper_kind (by decide)) h
    cases h
    exact ⟨.whole (hu.skip (hv.builds.skip ((R.typeExpr hw).builds.close hx.builds)))
      rfl ⟨rfl, trivial, trivial⟩, rfl⟩
  rcases bind_if lossy (proper_kind (by decide)) h with ⟨v, hv, -, h⟩ | h
  · cases h
    exact ⟨.whole (hu.skip hv.builds) rfl ⟨rfl, trivial, trivial⟩, rfl⟩
  obtain ⟨first, v, hv, h⟩ := bind_ok h
  rw [at?_bind] at h
  split at h
  · obtain ⟨w, hw, -, h⟩ := bind_expect lossy (proper_kind (by decide)) h
    cases h
    exact ⟨.whole (hu.skip ((R.typeExpr hv).builds.close hw.builds))
      rfl ⟨rfl, trivial, trivial⟩, rfl⟩
  · obtain ⟨rest, w, hw, h⟩ := bind_ok h
    obtain ⟨x, hx, -, h⟩ := bind_expect lossy (proper_kind (by decide)) h
    cases h
    have hrest := (R.moreTypes_ok hw).close hx.builds
    exact ⟨.whole (hu.skip ((R.typeExpr hv).builds.seq hrest)) rfl ⟨rfl, trivial, trivial⟩, rfl⟩

theorem restArrowType_ok {p : TypeParams} {type : TypeExpr} (hrest : p.rest = none)
    (hu : Builds lossy true s (p.all.map .parameter) u) (hword : s.token.kind ≠ .keyword)
    (h : r.restArrowType (Mark.ofSpan s.token.span) p u = .ok type t) :
    Whole lossy s (.type type) t := by
  obtain ⟨rest, v, hv, h⟩ := bind_ok h
  obtain ⟨w, hw, -, h⟩ := bind_expect lossy (proper_kind (by decide)) h
  obtain ⟨x, hx, -, h⟩ := bind_expect lossy (proper_kind (by decide)) h
  have hparam := (R.typedIdentifier_ok hv).builds.rework (.identifier rest)
  refine R.arrowType_ok ?_ hword h
  rw [TypeParams.withRest_all hrest, List.map_append]
  exact hu.seq ((hparam.close hw.builds).close hx.builds)

theorem parensType_ok {type : TypeExpr} (hu : Builds lossy true s [] u)
    (hword : s.token.kind ≠ .keyword)
    (h : r.parensType (Mark.ofSpan s.token.span) u = .ok type t) :
    Whole lossy s (.type type) t := by
  rcases bind_if lossy (proper_kind (by decide)) h with ⟨v, hv, -, h⟩ | h
  · obtain ⟨w, hw, -, h⟩ := bind_expect lossy (proper_kind (by decide)) h
    exact R.arrowType_ok (p := {}) (hu.skip (hv.builds.skip hw.builds)) hword h
  rcases bind_if lossy (proper_kind (by decide)) h with ⟨v, hv, -, h⟩ | h
  · exact R.restArrowType_ok (p := {}) rfl (hu.skip hv.builds) hword h
  obtain ⟨first, v, hv, h⟩ := bind_ok h
  have hfirst := hu.skip (R.typeExpr hv).builds
  rw [at?_bind] at h
  split at h
  · obtain ⟨w, hw, -, h⟩ := bind_expect lossy (proper_kind (by decide)) h
    rcases bind_if lossy (proper_kind (by decide)) h with ⟨x, hx, -, h⟩ | h
    · have htypes : Builds lossy true s ([first].map .type) w := hfirst.close hw.builds
      exact R.convertedArrow_ok (htypes.close hx.builds) hword h
    · cases h
      exact ⟨.whole (hfirst.close hw.builds) rfl ⟨rfl, trivial, trivial⟩, rfl⟩
  obtain ⟨rest, w, hw, h⟩ := bind_ok h
  have htypes : Builds lossy true s ((first :: rest).map .type) w := hfirst.seq (R.moreTypes_ok hw)
  rcases bind_if lossy (proper_kind (by decide)) h with ⟨x, hx, -, h⟩ | h
  · obtain ⟨params, y, hy, h⟩ := bind_ok h
    obtain ⟨hbuilds, hrest, new, hreworks, hperm⟩ : Converted lossy _ _ {} _ _ :=
      convertTypeParams_ok hy
    have hall : Reworks ((first :: rest).map .type) (params.all.map .parameter) :=
      hreworks.trans (.of_perm ((hperm.trans (by simp [TypeParams.all])).symm.map _))
    exact R.restArrowType_ok hrest (((htypes.rework hall).close hx.builds).close hbuilds) hword h
  obtain ⟨x, hx, -, h⟩ := bind_expect lossy (proper_kind (by decide)) h
  rcases bind_if lossy (proper_kind (by decide)) h with ⟨y, hy, -, h⟩ | h
  · exact R.convertedArrow_ok ((htypes.close hx.builds).close hy.builds) hword h
  · cases h
    exact ⟨.whole (htypes.close hx.builds) rfl ⟨rfl, trivial, trivial⟩, rfl⟩

theorem nameType_ok {type : TypeExpr} (hu : Builds lossy true s [] u)
    (hword : s.token.kind ≠ .keyword)
    (h : r.nameType (Mark.ofSpan s.token.span) u = .ok type t) :
    Whole lossy s (.type type) t := by
  unfold nameType at h
  simp only [finish_bind, previous_bind] at h
  let name : TypeExpr := .name ((Mark.ofSpan s.token.span).«to» u.previous.span) u.previous.text
  have hbase : Builds lossy true s ([name].map .type) u := .whole hu rfl ⟨rfl, trivial, trivial⟩
  rcases bind_if lossy (proper_kind (by decide)) h with ⟨v, hv, -, h⟩ | h
  · exact R.convertedArrow_ok (hbase.close hv.builds) hword h
  · cases h
    exact ⟨hbase, rfl⟩

theorem typeHead_ok {type : TypeExpr}
    (h : r.typeHead (Mark.ofSpan s.token.span) s = .ok type t) : TypeRead lossy s type t := by
  have kinds : ∀ {k : TokenKind}, (s.token.kind == k) = true → k ≠ .keyword →
      s.token.kind ≠ .keyword := fun hk hne => by rwa [eq_of_beq hk]
  rcases bind_if lossy (proper_contextKeyword _) h with ⟨u, hu, -, h⟩ | h
  · cases h
    exact Whole.typeRead ⟨.whole hu.builds rfl ⟨rfl, trivial, trivial⟩, rfl⟩
  rcases bind_if lossy (proper_kind (by decide)) h with ⟨u, hu, hk, h⟩ | h
  · exact (R.nameType_ok hu.builds (kinds hk (by decide)) h).typeRead
  rcases bind_if lossy (proper_keyword _) h with ⟨u, hu, -, h⟩ | h
  · exact (R.functionType_ok hu.builds h).typeRead
  rcases bind_if lossy (proper_kind (by decide)) h with ⟨u, hu, -, h⟩ | h
  · exact (R.bracketType_ok hu.builds h).typeRead
  rcases bind_if lossy (proper_kind (by decide)) h with ⟨u, hu, -, h⟩ | h
  · obtain ⟨fields, v, hv, h⟩ := bind_ok h
    obtain ⟨w, hw, -, h⟩ := bind_expect lossy (proper_kind (by decide)) h
    cases h
    have hfields := separatedUntil_each (fun h => (R.typedIdentifier_ok h).builds) hv
    exact Whole.typeRead ⟨.whole (hu.builds.skip (hfields.close hw.builds))
      rfl ⟨rfl, trivial, trivial⟩, rfl⟩
  rcases bind_if lossy (proper_kind (by decide)) h with ⟨u, hu, hk, h⟩ | h
  · exact (R.parensType_ok hu.builds (kinds hk (by decide)) h).typeRead
  rcases bind_if lossy (proper_keyword _) h with ⟨u, hu, -, h⟩ | h
  · cases h
    exact Whole.typeRead ⟨.whole hu.builds rfl ⟨rfl, trivial, trivial⟩, rfl⟩
  rcases bind_if lossy (proper_operator _) h with ⟨u, hu, -, h⟩ | h
  · cases h
    exact Whole.typeRead ⟨.whole hu.builds rfl ⟨rfl, trivial, trivial⟩, rfl⟩
  rcases bind_if lossy (proper_keyword _) h with ⟨u, hu, -, h⟩ | h
  · cases h
    exact Whole.typeRead ⟨.whole hu.builds rfl ⟨rfl, trivial, trivial⟩, rfl⟩
  rcases bind_if lossy (proper_operator _) h with ⟨u, hu, -, h⟩ | h
  · obtain ⟨a, v, hv, hwhole⟩ := R.typeExpr h
    exact ⟨_, v, hu.builds.skip hv, hwhole⟩
  · exact (unexpected_ok h).elim

theorem typeMember_ok {base type : TypeExpr} (hu : Builds lossy true s [.type base] u)
    (h : r.typeMember (Mark.ofSpan s.token.span) base u = .ok type t) :
    Whole lossy s (.type type) t := by
  rcases bind_if lossy (proper_operator _) h with ⟨v, hv, -, h⟩ | h
  · obtain ⟨arguments, w, hw, h⟩ := bind_ok h
    cases h
    exact ⟨.whole (hu.seq (hv.builds.skip (R.typeArguments_ok hw)))
      rfl ⟨rfl, trivial, trivial⟩, rfl⟩
  · obtain ⟨id, v, hv, h⟩ := bind_ok h
    cases h
    exact ⟨.whole (hu.seq (wordIdentifier_ok hv).builds) rfl ⟨rfl, trivial, trivial⟩, rfl⟩

theorem typeSuffix?_ok {base : TypeExpr} {found : Option TypeExpr}
    (hbase : Whole lossy s (.type base) u) (h : r.typeSuffix? base u = .ok found t) :
    match found with
    | some longer => Whole lossy s (.type longer) t
    | none => t = u := by
  obtain ⟨hu, hends⟩ := hbase
  have hspan : base.span = s.token.span.«to» u.previous.span := Option.some_inj.mp hends
  have hmark : Mark.ofSpan base.span = Mark.ofSpan s.token.span := by rw [hspan]; rfl
  unfold typeSuffix? at h
  rw [hmark] at h
  rcases bind_if lossy (proper_kind (by decide)) h with ⟨v, hv, -, h⟩ | h
  · cases h
    exact ⟨.whole (hu.close hv.builds) rfl ⟨rfl, trivial, trivial⟩, rfl⟩
  rcases bind_if lossy (proper_kind (by decide)) h with ⟨v, hv, -, h⟩ | h
  · cases h
    exact ⟨.whole (hu.close hv.builds) rfl ⟨rfl, trivial, trivial⟩, rfl⟩
  rcases bind_if lossy (proper_kind (by decide)) h with ⟨v, hv, -, h⟩ | h
  · obtain ⟨longer, w, hw, h⟩ := bind_ok h
    cases h
    exact R.typeMember_ok (hu.close hv.builds) hw
  rcases bind_if lossy (proper_kind (by decide)) h with ⟨v, hv, -, h⟩ | h
  · obtain ⟨type, w, hw, h⟩ := bind_ok h
    cases h
    have htype := R.typeExpr hw
    refine ⟨.whole (hu.seq (hv.builds.skip htype.builds)) (htype.span_to _)
      ⟨rfl, trivial, trivial⟩, htype.span_to _⟩
  rcases bind_if lossy (proper_operator _) h with ⟨v, hv, -, h⟩ | h
  · obtain ⟨right, w, hw, h⟩ := bind_ok h
    cases h
    have hright := R.typeExpr hw
    have hmembers := (hu.rework (.unionMembers base)).seq
      (hv.builds.skip (hright.builds.rework (.unionMembers right)))
    rw [← List.map_append] at hmembers
    exact ⟨.whole hmembers (hright.span_to _) ⟨rfl, trivial, trivial⟩, hright.span_to _⟩
  · cases h
    rfl

theorem typeSuffixes_ok {fuel : Nat} {base type : TypeExpr} (hbase : Whole lossy s (.type base) u)
    (h : r.typeSuffixes fuel base u = .ok type t) : Whole lossy s (.type type) t := by
  induction fuel generalizing base u with
  | zero => exact (exhausted_ok h).elim
  | succ fuel ih =>
    obtain ⟨found, v, hv, h⟩ := bind_ok h
    have hfound := R.typeSuffix?_ok hbase hv
    cases found with
    | some longer => exact ih hfound h
    | none =>
      cases h
      rw [hfound]
      exact hbase

theorem typeExprRule_ok {type : TypeExpr} (h : r.typeExprRule s = .ok type t) :
    TypeRead lossy s type t := by
  unfold typeExprRule at h
  rw [mark_bind] at h
  obtain ⟨head, u, hu, h⟩ := bind_ok h
  obtain ⟨a, v, hv, hhead⟩ := R.typeHead_ok hu
  exact ⟨a, v, hv, R.typeSuffixes_ok hhead h⟩

end Rules.Builder

end ActionSyntax
