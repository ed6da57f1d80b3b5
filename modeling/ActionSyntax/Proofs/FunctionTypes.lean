import ActionSyntax.Proofs.Shadows.Framing
import ActionSyntax.Proofs.TypeSteps
import ActionSyntax.Proofs.Shadows.Levels

/-!
The two ways to write a function type: with the keyword in front of the parameters, or with an arrow
behind them. Before the arrow is seen the parameters are read as types, and then taken for what they
are.
-/

namespace ActionSyntax

set_option autoImplicit false

open Utf8

section Conversion

/-- The type that a parameter is read as before its arrow has been seen. -/
inductive TypeExpr.Declares (name : String) : Bool → Option TypeExpr → TypeExpr → Prop
  | required (span : Span) : Declares name false none (.name span name)
  | optional (span inner : Span) : Declares name true none (.nullable span (.name inner name))
  | typed {optional : Bool} {base type type' : TypeExpr} (span : Span)
      (declares : Declares name optional none base) (bare : Matches type type') :
      Declares name optional (some type) (.typed span base type')

namespace Rules

open Parse

/-- One more parameter behind those before it. -/
def TypeParams.add (params : TypeParams) (id : Identifier) (optional : Bool) : TypeParams :=
  if optional then params.addOptional id else params.addRequired id

/-- The parameter may stand behind those before it. -/
def TypeParams.Admits (params : TypeParams) (optional : Bool) : Bool :=
  optional || !params.optional.isSome

/-- Takes a type for a parameter. -/
def convertStep (params : TypeParams) : TypeExpr → Parse TypeParams
  | .typed _ base type => convertTypeParam (some type) params base
  | node => convertTypeParam none params node

theorem convertTypeParams_eq (types : List TypeExpr) :
    convertTypeParams types = types.foldlM convertStep {} := by
  unfold convertTypeParams
  congr 1

theorem convertTypeParam_declared {name : String} {optional : Bool} {base : TypeExpr}
    (h : base.Declares name optional none) (type : Option TypeExpr) (params : TypeParams)
    (s : ParserState) : ∃ span t, convertTypeParam type params base s =
        .ok (params.add { span, name, type } optional) t ∧
      s.Reported (params.Admits optional) t := by
  cases h with
  | required span =>
    unfold convertTypeParam TypeParams.Admits
    dsimp only
    cases hoptional : params.optional.isSome with
    | false => exact ⟨span, s, rfl, .refl s⟩
    | true => exact ⟨span, _, rfl, .collect s rfl⟩
  | optional span inner => exact ⟨span, s, rfl, .refl s⟩

/-- The types are taken for the parameters, and a problem is reported unless they are in order. -/
def Converts (types : List TypeExpr) (params : TypeParams) (ordered : Bool) : Prop :=
  ∀ s, ∃ params' t, convertTypeParams types s = .ok params' t ∧ Matches params params' ∧
    s.Reported ordered t

theorem Converts.nil : Converts [] {} true := fun s => ⟨{}, s, rfl, rfl, .refl s⟩

theorem Converts.snoc {types : List TypeExpr} {params : TypeParams} {ordered optional : Bool}
    {type : TypeExpr} {id : Identifier} (h : Converts types params ordered)
    (hdeclares : type.Declares id.name optional id.type) :
    Converts (types ++ [type]) (params.add id optional) (ordered && params.Admits optional) := by
  intro s
  obtain ⟨params', t, hconvert, hparams, hreported⟩ := h s
  have hadmits : params.Admits optional = params'.Admits optional := by
    unfold TypeParams.Admits
    rw [hparams.hasOptional]
  have hstep : ∃ id' u, convertStep params' type t = .ok (params'.add id' optional) u ∧
      Matches id id' ∧ t.Reported (params.Admits optional) u := by
    rw [hadmits]
    obtain ⟨span, name, annotation⟩ := id
    cases annotation with
    | none =>
      have hplain : convertStep params' type = convertTypeParam none params' type := by
        cases hdeclares <;> rfl
      obtain ⟨span', u, hread, hu⟩ := convertTypeParam_declared hdeclares none params' t
      exact ⟨{ span := span', name, type := none }, u, hplain ▸ hread, rfl, hu⟩
    | some declared =>
      cases hdeclares with
      | @typed _ base _ type' _ hbase hmatch =>
        obtain ⟨span', u, hread, hu⟩ := convertTypeParam_declared hbase (some type') params' t
        exact ⟨{ span := span', name, type := some type' }, u, hread, by simpa using hmatch, hu⟩
  obtain ⟨id', u, hread, hid, hu⟩ := hstep
  refine ⟨params'.add id' optional, u, ?_, ?_, hreported.trans hu⟩
  · rw [convertTypeParams_eq, List.foldlM_append, ← convertTypeParams_eq, bind_of_ok hconvert]
    show (convertStep params' type >>= fun params => pure params) t = _
    rw [bind_of_ok hread]
    rfl
  · unfold TypeParams.add
    split
    · exact hparams.addOptional hid
    · exact hparams.addRequired hid

end Rules

end Conversion

section Parameter

namespace Rules

open Parse

variable {r q : Rules} {s t u v : ParserState}

theorem optAnnotation_inv {type : Option TypeExpr} (h : r.optAnnotation s = .ok type u) :
    (type = none ∧ s.token.kind ≠ .colon ∧ u = s) ∨
      ∃ found s', type = some found ∧ s.token.kind = .colon ∧ Parse.next s = .ok () s' ∧
        r.typeExpr s' = .ok found u := by
  obtain ⟨found, s', hconsume, hrest⟩ := bind_ok h
  rcases consume_inv hconsume with ⟨rfl, hkind, hnext⟩ | ⟨rfl, hkind, rfl⟩
  · obtain ⟨type', _, htype, hpure⟩ := bind_ok hrest
    cases hpure
    exact Or.inr ⟨type', s', rfl, hkind, hnext, htype⟩
  · cases hrest
    exact Or.inl ⟨rfl, hkind, rfl⟩

theorem functionTypeParam_inv {id : Identifier} {optional : Bool}
    (h : r.functionTypeParam s = .ok (id, optional) u) :
    ∃ s', s.token.kind = .identifier ∧ Parse.next s = .ok () s' ∧ id.name = s.token.text ∧
      ∃ s'', consume .questionMark s' = .ok optional s'' ∧ r.optAnnotation s'' = .ok id.type u := by
  unfold functionTypeParam at h
  rw [mark_bind] at h
  obtain ⟨name, s', hname, hrest⟩ := bind_ok h
  obtain ⟨_, _, hexpect, hprevious⟩ := bind_ok hname
  obtain ⟨hkind, hnext⟩ := expect_inv hexpect
  cases hprevious
  obtain ⟨found, s'', hquestion, hrest⟩ := bind_ok hrest
  obtain ⟨id', _, htyped, hpure⟩ := bind_ok hrest
  cases hpure
  obtain ⟨type, _, hannotation, hfinish⟩ := bind_ok htyped
  cases hfinish
  refine ⟨s', hkind, hnext, ?_, s'', hquestion, hannotation⟩
  rw [(next_inv hnext).2]
  rfl

variable {P : Pairing} (h : TypesShadow P r q)
include h

/-- What stands behind a name is read as an annotation by the one and as the end of a type by the
other. -/
theorem annotation_declares {name : String} {optional : Bool} {base : TypeExpr}
    {type : Option TypeExpr} (hbase : base.Declares name optional none) (hst : P.near s t)
    (hread : r.optAnnotation s = .ok type u)
    (hover : u.token.kind.closes = true ∨ u.token.kind = .endOfProgram) (hgone : ¬ P.gone u)
    (fuel : Nat) :
    ∃ e v, q.typeSuffixes (fuel + 2) base t = .ok e v ∧ P.near u v ∧
      e.Declares name optional type := by
  obtain ⟨rfl, -, rfl⟩ | ⟨found, s', rfl, hkind, hnext, htype⟩ := optAnnotation_inv hread
  · exact ⟨base, t, typeSuffixes_over (.of_closing (P.closing hst hover)) _ _, hst, hbase⟩
  have hproper : s.token.kind ≠ .endOfProgram := by simp [hkind]
  have hstays : ¬ P.gone s' := P.kept (h.typeExpr .tight) htype hgone
  obtain ⟨t', hnext', hst'⟩ := P.taken hst hproper hnext hstays
  obtain ⟨found', v, htype', huv, hfound⟩ := P.read (h.typeExpr .tight) hst' htype hgone
  obtain ⟨span, hsuffixes⟩ := typeSuffixes_colon (q := q) ((P.same_kind hst hproper).symm.trans hkind)
    hnext' htype' (fuel + 1) base
  exact ⟨_, v, hsuffixes.trans (typeSuffixes_over (.of_closing (P.closing huv hover)) _ _), huv,
    .typed span hbase hfound⟩

/-- A parameter is also a type. -/
theorem functionTypeParam_declares {id : Identifier} {optional : Bool} (hst : P.near s t)
    (hread : r.functionTypeParam s = .ok (id, optional) u) (hname : id.name ≠ "undefined")
    (hover : u.token.kind.closes = true ∨ u.token.kind = .endOfProgram) (hgone : ¬ P.gone u)
    (hrounds : 3 ≤ q.rounds) :
    ∃ e v, q.typeExprRule t = .ok e v ∧ P.near u v ∧ e.Declares id.name optional id.type := by
  obtain ⟨s', hkind, hnext, heq, s'', hquestion, hannotation⟩ := functionTypeParam_inv hread
  have hproper : s.token.kind ≠ .endOfProgram := by simp [hkind]
  have hstep : Shadows P .tight Matches r.optAnnotation q.optAnnotation := h.optAnnotation_shadows
  have hstays'' : ¬ P.gone s'' := P.kept hstep hannotation hgone
  have hstays' : ¬ P.gone s' :=
    P.kept (consume_shadows (by decide) (Or.inl rfl)) hquestion hstays''
  obtain ⟨t', hnext', hst'⟩ := P.taken hst hproper hnext hstays'
  have htext : t.token.text = id.name := (P.sees hst).token.like.text.symm.trans heq.symm
  have harrow : t'.token.kind ≠ .arrow := by
    intro harrow
    have hmark : s'.token.kind = .arrow := by
      rcases (P.sees hst').token.kind with heq | ⟨-, hstops⟩
      · exact heq.trans harrow
      · have hcloses := P.closes hstops
        rw [harrow] at hcloses
        cases hcloses
    rcases consume_inv hquestion with ⟨-, hkind', -⟩ | ⟨-, -, rfl⟩
    · simp [hmark] at hkind'
    · rcases optAnnotation_inv hannotation with ⟨-, -, rfl⟩ | ⟨-, -, -, hkind', -⟩
      · simp [hmark, TokenKind.closes] at hover
      · simp [hmark] at hkind'
  have hhead := typeExprRule_name (q := q) ((P.same_kind hst hproper).symm.trans hkind)
    (by rwa [htext]) hnext' harrow
  rw [hhead, htext]
  obtain ⟨fuel, hfuel⟩ : ∃ fuel, q.rounds = fuel + 3 := ⟨q.rounds - 3, by omega⟩
  rw [hfuel]
  obtain ⟨rfl, hmark, hnext''⟩ | ⟨rfl, -, rfl⟩ := consume_inv hquestion
  · have hproper' : s'.token.kind ≠ .endOfProgram := by simp [hmark]
    obtain ⟨t'', hnext'', hst''⟩ := P.taken hst' hproper' hnext'' hstays''
    obtain ⟨span', hsuffixes⟩ := typeSuffixes_question (q := q)
      ((P.same_kind hst' hproper').symm.trans hmark) hnext'' (fuel + 2) (.name t.token.span id.name)
    rw [hsuffixes]
    exact annotation_declares h (.optional span' t.token.span) hst'' hannotation hover hgone fuel
  · exact annotation_declares h (.required t.token.span) hst' hannotation hover hgone (fuel + 1)

end Rules

end Parameter

section Parameters

namespace Rules

open Parse

variable {r r' q : Rules} {s t u : ParserState}

/-- The parameters by name, in front of the rest parameter. -/
def TypeParams.named (params : TypeParams) : List Identifier :=
  params.required ++ params.optional.getD []

theorem TypeParams.named_add (params : TypeParams) (id : Identifier) (optional : Bool) :
    id :: params.named ⊆ (params.add id optional).named := by
  intro other hother
  unfold named add addOptional addRequired at *
  cases optional <;> grind

/-- What may stand behind a parameter. -/
def moreTypeParams (r : Rules) (fuel : Nat) (params : TypeParams) : Parse TypeParams := do
  if ← consume .comma then r.functionTypeParams fuel params else return params

/-- How parameters begin: not at all, with the rest parameter or with another one, which may stand out
of order. -/
theorem functionTypeParams_inv {fuel : Nat} {params result : TypeParams}
    (h : r.functionTypeParams (fuel + 1) params s = .ok result u) :
    (s.token.kind = .rightParen ∧ result = params ∧ u = s) ∨
      (∃ rest s', s.token.kind = .ellipsis ∧ Parse.next s = .ok () s' ∧
        r.typedIdentifier s' = .ok rest u ∧ result = { params with rest := some rest }) ∨
      ∃ id optional s' s'', r.functionTypeParam s = .ok (id, optional) s' ∧
        s'.Reported (params.Admits optional) s'' ∧
        r.moreTypeParams fuel (params.add id optional) s'' = .ok result u := by
  unfold functionTypeParams at h
  rw [at?_bind] at h
  cases hclosed : s.token.kind == .rightParen with
  | true =>
    rw [hclosed] at h
    cases h
    exact Or.inl ⟨eq_of_beq hclosed, rfl, rfl⟩
  | false =>
    rw [hclosed] at h
    obtain ⟨atRest, s', hellipsis, hbehind⟩ := bind_ok h
    rcases consume_inv hellipsis with ⟨rfl, hkind, hnext⟩ | ⟨rfl, -, rfl⟩
    · obtain ⟨rest, _, hrest, hpure⟩ := bind_ok hbehind
      cases hpure
      exact Or.inr (Or.inl ⟨rest, s', hkind, hnext, hrest, rfl⟩)
    rw [if_neg Bool.false_ne_true] at hbehind
    obtain ⟨⟨id, optional⟩, s', hparam, hmore⟩ := bind_ok hbehind
    dsimp only at hmore
    rw [token_bind] at hmore
    refine Or.inr (Or.inr ⟨id, optional, s', ?_⟩)
    unfold TypeParams.Admits
    cases optional with
    | true => exact ⟨s', hparam, .refl s', hmore⟩
    | false =>
      cases hoptional : params.optional.isSome with
      | false =>
        rw [hoptional] at hmore
        exact ⟨s', hparam, .refl s', hmore⟩
      | true =>
        rw [hoptional] at hmore
        exact ⟨_, hparam, .collect s' rfl, hmore⟩

theorem moreTypeParams_inv {fuel : Nat} {params result : TypeParams}
    (h : r.moreTypeParams fuel params s = .ok result u) :
    (s.token.kind = .comma ∧ ∃ s', Parse.next s = .ok () s' ∧
        r.functionTypeParams fuel params s' = .ok result u) ∨
      (s.token.kind ≠ .comma ∧ result = params ∧ u = s) := by
  obtain ⟨more, s', hcomma, hrest⟩ := bind_ok h
  rcases consume_inv hcomma with ⟨rfl, hkind, hnext⟩ | ⟨rfl, hkind, rfl⟩
  · exact Or.inl ⟨hkind, s', hnext, hrest⟩
  · cases hrest
    exact Or.inr ⟨hkind, rfl, rfl⟩

theorem functionTypeParams_named : ∀ {fuel : Nat} {params result : TypeParams} {s : ParserState},
    r.functionTypeParams fuel params s = .ok result u → params.named ⊆ result.named
  | 0, _, _, _, h => by cases h
  | fuel + 1, params, result, s, h => by
    obtain ⟨-, rfl, -⟩ | ⟨rest, -, -, -, -, rfl⟩ | ⟨id, optional, -, s'', -, -, hmore⟩ :=
      functionTypeParams_inv h
    · exact List.Subset.refl _
    · exact List.Subset.refl _
    · have hadd := List.subset_of_cons_subset (params.named_add id optional)
      rcases moreTypeParams_inv hmore with ⟨-, s', -, hread⟩ | ⟨-, rfl, -⟩
      · exact List.Subset.trans hadd (functionTypeParams_named hread)
      · exact hadd

theorem moreTypeParams_named {fuel : Nat} {params result : TypeParams}
    (h : r.moreTypeParams fuel params s = .ok result u) : params.named ⊆ result.named := by
  rcases moreTypeParams_inv h with ⟨-, s', -, hread⟩ | ⟨-, rfl, -⟩
  · exact functionTypeParams_named hread
  · exact List.Subset.refl _

/-- What the arrow form has behind the last type that stands for a parameter: nothing, or the rest
parameter. -/
inductive Reaches (r : Rules) (params : TypeParams) (s : ParserState) :
    TypeParams → ParserState → Prop
  | done : Reaches r params s params s
  | rest {rest : Identifier} {s' u : ParserState} (kind : s.token.kind = .ellipsis)
      (next : Parse.next s = .ok () s') (read : r.typedIdentifier s' = .ok rest u) :
      Reaches r params s { params with rest := some rest } u

/-- What ends a list of types in parentheses. -/
def endsTypes (k : TokenKind) : Bool := k == .rightParen || k == .ellipsis

variable {x : Excerpt} (h : ∀ own other, TypesShadow (x.pairing own other) r q)
  (hnested : r'.typeExpr = q.typeExprRule) (hrounds : 3 ≤ q.rounds)
include h hnested hrounds

/-- A parameter that does not stand first, and the type that the arrow form reads in its place. -/
theorem functionTypeParam_converts {id : Identifier} {optional ordered : Bool} {fuel : Nat}
    {params result : TypeParams} {types : List TypeExpr} {s' s'' : ParserState}
    (hst : x.Near true ordered s t) (hconverts : Converts types params ordered)
    (hparam : r.functionTypeParam s = .ok (id, optional) s')
    (hreported : s'.Reported (params.Admits optional) s'')
    (hmore : r.moreTypeParams fuel (params.add id optional) s'' = .ok result u)
    (hend : u.token.kind = .endOfProgram) (hgone : ¬ x.Gone u)
    (hnames : ∀ id ∈ result.named, id.name ≠ "undefined") :
    ∃ e v, r'.typeExpr t = .ok e v ∧ x.Near true (ordered && params.Admits optional) s'' v ∧
      Converts (types ++ [e]) (params.add id optional) (ordered && params.Admits optional) := by
  have htoken : s''.token = s'.token := by
    obtain ⟨script, rfl, -⟩ := hreported
    rfl
  have hover : s'.token.kind.closes = true ∨ s'.token.kind = .endOfProgram := by
    rw [← htoken]
    rcases moreTypeParams_inv hmore with ⟨hcomma, -⟩ | ⟨-, -, rfl⟩
    · exact Or.inl (by rw [hcomma]; rfl)
    · exact Or.inr hend
  have hstays : ¬ x.Gone s' := by
    intro hs'
    have hs'' := (x.pairing true ordered).gone_rests hs' (hreported.ended hs'.ended)
    rcases moreTypeParams_inv hmore with ⟨hcomma, -⟩ | ⟨-, -, rfl⟩
    · have hkind := hs''.ended.kind
      simp [hcomma] at hkind
    · exact hgone hs''
  have hname : id.name ≠ "undefined" := hnames id
    (moreTypeParams_named hmore (params.named_add id optional List.mem_cons_self))
  obtain ⟨e, v, hread, hnear, hdeclares⟩ :=
    functionTypeParam_declares (h true ordered) hst hparam hname hover hstays hrounds
  exact ⟨e, v, hnested ▸ hread, hnear.reported_left hreported, hconverts.snoc hdeclares⟩

/-- Behind a parameter that is also a type, more of them are. -/
theorem moreTypes_converts (hafter : x.after.head? ≠ some ',') : ∀ {fuel fuel' : Nat},
    fuel < fuel' → ∀ {params result : TypeParams}
    {types : List TypeExpr} {ordered : Bool} {s t : ParserState}, x.Near true ordered s t →
    Converts types params ordered → r.moreTypeParams fuel params s = .ok result u →
    u.token.kind = .endOfProgram → ¬ x.Gone u → (∀ id ∈ result.named, id.name ≠ "undefined") →
    ∃ more params' ordered' s' t', r'.moreTypes endsTypes fuel' t = .ok more t' ∧
      Converts (types ++ more) params' ordered' ∧ x.Near true ordered' s' t' ∧
      r.Reaches params' s' result u
  | fuel, fuel' + 1, hle, params, result, types, ordered, s, t, hst, hconverts, hmore, hend, hgone,
      hnames => by
    have hkinds := (x.pairing true ordered).same_or_ended hst
    rcases moreTypeParams_inv hmore with ⟨hcomma, s₁, hnext, hparams⟩ | ⟨hcomma, rfl, rfl⟩
    case inr =>
      have hkind : t.token.kind ≠ .comma := by
        rcases hkinds with heq | ⟨-, mark, rest, hcons, hmark⟩
        · exact heq ▸ hcomma
        · rw [← hmark]
          refine Fragment.stopLexeme_ne_comma ?_
          rintro rfl
          exact hafter (by rw [hcons]; rfl)
      refine ⟨[], _, ordered, _, t, ?_, by rwa [List.append_nil], hst, .done⟩
      unfold moreTypes
      rw [bind_of_ok (consume_no hkind)]
      rfl
    have hproper : s.token.kind ≠ .endOfProgram := by simp [hcomma]
    have hstays : ¬ x.Gone s₁ := (x.pairing true ordered).kept
      ((h true ordered).functionTypeParams_shadows (Or.inl rfl) (Nat.le_refl fuel)
        params params rfl) hparams hgone
    obtain ⟨t₁, hnext', hst₁⟩ := (x.pairing true ordered).taken hst hproper hnext hstays
    have hkind : t.token.kind = .comma :=
      ((x.pairing true ordered).same_kind hst hproper).symm.trans hcomma
    have hsame₁ : s₁.token.kind ≠ .endOfProgram → t₁.token.kind = s₁.token.kind := fun hne =>
      ((x.pairing true ordered).same_kind hst₁ hne).symm
    have hconsume : consume .comma t = .ok true t₁ := consume_yes hkind hnext'
    unfold moreTypes
    rw [bind_of_ok hconsume, if_pos rfl, kind_bind]
    cases fuel with
    | zero => cases hparams
    | succ fuel =>
      obtain ⟨hclosed, -, rfl⟩ | ⟨rest, s₂, hellipsis, hnext₂, hrest, rfl⟩ |
        ⟨id, optional, s₂, s₃, hparam, hreported, hmore'⟩ := functionTypeParams_inv hparams
      · rw [hclosed] at hend
        cases hend
      · refine ⟨[], params, ordered, s₁, t₁, ?_, by rwa [List.append_nil], hst₁,
          .rest hellipsis hnext₂ hrest⟩
        rw [hsame₁ (by simp [hellipsis]), hellipsis]
        rfl
      · obtain ⟨-, hname, -⟩ := functionTypeParam_inv hparam
        obtain ⟨e, v, he, hnear, hconverts'⟩ := functionTypeParam_converts h hnested hrounds hst₁
          hconverts hparam hreported hmore' hend hgone hnames
        obtain ⟨more, params', ordered', s', t', htypes, hall, hnear', hreaches⟩ :=
          moreTypes_converts hafter (Nat.lt_of_succ_lt_succ hle) hnear hconverts' hmore' hend hgone hnames
        refine ⟨e :: more, params', ordered', s', t', ?_, ?_, hnear', hreaches⟩
        · rw [hsame₁ (by simp [hname]), hname, if_neg (by decide), bind_of_ok he, bind_of_ok htypes]
          rfl
        · rwa [← List.append_cons] at hall

end Rules

end Parameters

section Wholes

open Parse

/-- The parameters of a function type that take up a whole text. -/
def Rules.typeParamList (r : Rules) : Parse Rules.TypeParams := do
  if ← at? .endOfProgram then return {}
  r.functionTypeParams r.rounds {}

namespace Parser

variable {host : Host} {path : String} {params : Rules.TypeParams} {result : TypeExpr}
  {first sP sR : ParserState}

/-- The parameters leave the path of the script. -/
theorem typeParamList_path {P : String}
    (h : (Parser.ofScript host (Script.ofSource path P)).Spans Rules.typeParamList params sP) :
    sP.script.path = path := by
  obtain ⟨first, hscan, hread, -⟩ := h.from_first
  have hsound := level_lenient host.readFile host.includeDepth (P.toList.length + 3)
  have hreads : (Setting.lenient (host.level (P.toList.length + 3)).readFile).Reads
      (host.level (P.toList.length + 3)).depth never
      (host.level (P.toList.length + 3)).typeParamList := by
    refine .seq (Setting.at?_reads _) fun ended => ?_
    split
    · exact .pure _
    · exact hsound.functionTypeParams_reads _ {} _ (Nat.le_refl _) (hsound.rounds_le (Nat.le_succ _))
  have hends := hreads first (Or.inl trivial)
  rw [hread] at hends
  refine hends.reaches.grows.path.trans ?_
  unfold Parse.scan at hscan
  split at hscan
  · rename_i scanner hnext
    cases hscan
    exact (Scanner.next_keeps hnext).1
  · cases hscan

theorem typeParamList_inv {r : Rules} {s u : ParserState} (h : r.typeParamList s = .ok params u) :
    (s.token.kind = .endOfProgram ∧ params = {} ∧ u = s) ∨
      (s.token.kind ≠ .endOfProgram ∧ r.functionTypeParams r.rounds {} s = .ok params u) := by
  unfold Rules.typeParamList at h
  rw [at?_bind] at h
  cases hover : s.token.kind == .endOfProgram with
  | true =>
    rw [hover] at h
    cases h
    exact Or.inl ⟨eq_of_beq hover, rfl, rfl⟩
  | false =>
    rw [hover] at h
    exact Or.inr ⟨beq_eq_false_iff_ne.mp hover, h⟩

/-- Parameters that take up a text are read up to the parenthesis behind it. -/
theorem functionTypeParams_of_list {x : Excerpt} {own other : Bool} {n n' : Nat} {rest : List Char}
    {s t u : ParserState} (hle : n ≤ n') (hafter : x.after = ')' :: rest)
    (hst : x.Near own other s t) (hread : (host.level n).typeParamList s = .ok params u)
    (hend : u.token.kind = .endOfProgram) (hgone : ¬ x.Gone u) :
    ∃ params' v, (host.level n').functionTypeParams (host.level n').rounds {} t = .ok params' v ∧
      x.Near own other u v ∧ Matches params params' := by
  have hshadow := level_typesShadow (P := x.pairing own other) host.readFile host.includeDepth hle
  obtain ⟨-, rfl, rfl⟩ | ⟨-, hparams⟩ := typeParamList_inv hread
  · refine ⟨{}, t, ?_, hst, rfl⟩
    have hkind : t.token.kind = .rightParen := (hst.stands_behind hend hafter).kind
    unfold Rules.rounds Rules.functionTypeParams
    rw [at?_bind, hkind]
    rfl
  · exact (x.pairing own other).read
      (hshadow.functionTypeParams_shadows (Excerpt.tells_comma (by simp [hafter])) hshadow.rounds_le {} {} rfl) hst hparams hgone

theorem typeParamList_stays {n : Nat} {s u : ParserState}
    (hread : (host.level n).typeParamList s = .ok params u) (hs : s.Ended) : u = s := by
  obtain ⟨-, -, rfl⟩ | ⟨hkind, -⟩ := typeParamList_inv hread
  · rfl
  · exact absurd hs.kind hkind

section Heads

variable {r : Rules} {s t u : ParserState} {type : TypeExpr}

/-- A type at whose head the text ends. -/
theorem typeExprRule_of_head (hread : r.typeHead (Mark.ofSpan s.token.span) s = .ok type u)
    (hend : u.token.kind = .endOfProgram) : r.typeExprRule s = .ok type u := by
  unfold Rules.typeExprRule
  rw [mark_bind, bind_of_ok hread]
  exact Rules.typeSuffixes_over (.of_closing (Or.inr hend)) _ _

theorem typeHead_function (hword : s.token.toLexeme = { kind := .keyword, text := "function" })
    (hnext : Parse.next s = .ok () t) (m : Mark) : r.typeHead m s = r.functionType m t := by
  have hkind : s.token.kind = .keyword := congrArg Lexeme.kind hword
  have htext : s.token.text = "function" := congrArg Lexeme.text hword
  have hcontext : consumeContextKeyword "undefined" s = .ok false s :=
    consumeIf_no (by simp [Token.isContextKeyword, hkind])
  have hname : consume .identifier s = .ok false s := consume_no (by simp [hkind])
  have hconsume : consumeKeyword "function" s = .ok true t :=
    consumeIf_yes (by simp [Token.isKeyword, hkind, htext]) hnext
  unfold Rules.typeHead
  simp only [bind_of_ok hcontext, bind_of_ok hname, bind_of_ok hconsume, Bool.false_eq_true, if_false,
    if_true]

theorem typeHead_parens (hkind : s.token.kind = .leftParen) (hnext : Parse.next s = .ok () t)
    (m : Mark) : r.typeHead m s = r.parensType m t := by
  have hcontext : consumeContextKeyword "undefined" s = .ok false s :=
    consumeIf_no (by simp [Token.isContextKeyword, hkind])
  have hword : consumeKeyword "function" s = .ok false s :=
    consumeKeyword_no (by simp [Token.isKeyword, hkind])
  have hne : ∀ k : TokenKind, k ≠ .leftParen → consume k s = .ok false s := by
    refine fun k hk => consume_no ?_
    rw [hkind]
    exact hk.symm
  have hconsume : consume .leftParen s = .ok true t := consume_yes hkind hnext
  unfold Rules.typeHead
  simp only [bind_of_ok hcontext, bind_of_ok hword, bind_of_ok (hne .identifier (by decide)),
    bind_of_ok (hne .leftBracket (by decide)), bind_of_ok (hne .leftBrace (by decide)),
    bind_of_ok hconsume, Bool.false_eq_true, if_false, if_true]

/-- One type in parentheses, with or without an arrow behind it. -/
theorem parensType_single {e : TypeExpr} (hclosed : s.token.kind ≠ .rightParen)
    (hellipsis : s.token.kind ≠ .ellipsis) (hread : r.typeExpr s = .ok e t)
    (hcomma : t.token.kind ≠ .comma) (m : Mark) :
    r.parensType m s = (do
      expect .rightParen
      if ← consume .arrow then
        let params ← Rules.convertTypeParams [e]
        r.arrowType m params
      else return .parens (← finish m) e) t := by
  unfold Rules.parensType
  rw [bind_of_ok (consume_no hclosed), if_neg Bool.false_ne_true, bind_of_ok (consume_no hellipsis),
    if_neg Bool.false_ne_true, bind_of_ok hread, at?_bind, beq_eq_false_iff_ne.mpr hcomma]
  rfl

/-- Several types in parentheses, and what may follow them. -/
theorem parensType_several {e : TypeExpr} {more : List TypeExpr} (hclosed : s.token.kind ≠ .rightParen)
    (hellipsis : s.token.kind ≠ .ellipsis) (hread : r.typeExpr s = .ok e t)
    (hcomma : t.token.kind = .comma) (hmore : r.moreTypes Rules.endsTypes r.rounds t = .ok more u)
    (m : Mark) :
    r.parensType m s = (do
      if ← consume .ellipsis then
        Rules.convertTypeParams (e :: more) >>= r.restArrowType m
      else do
        expect .rightParen
        if ← consume .arrow then
          let params ← Rules.convertTypeParams (e :: more)
          r.arrowType m params
        else return .union (← finish m) (e :: more)) u := by
  have hmore' : r.moreTypes (fun k => k == .rightParen || k == .ellipsis) r.rounds t = .ok more u :=
    hmore
  unfold Rules.parensType
  rw [bind_of_ok (consume_no hclosed), if_neg Bool.false_ne_true, bind_of_ok (consume_no hellipsis),
    if_neg Bool.false_ne_true, bind_of_ok hread, at?_bind, hcomma, beq_self_eq_true, Bool.not_true,
    if_neg Bool.false_ne_true, bind_of_ok hmore']

end Heads

section Forms

theorem function_lexeme (rest : List Char) :
    Scan.lexeme (Cursor.ofContent ("function".toList ++ (['('] ++ rest))) =
      .ok ({ kind := .keyword, text := "function" }, ⟨'(' :: rest, 8, 1, [], []⟩) := rfl

theorem colon_spells (rest : List Char) : Scan.Spells [':'] (' ' :: rest) { kind := .colon } :=
  ⟨AllNarrow.plain (by decide), fun _ _ _ _ => ⟨_, _, rfl, rfl, rfl⟩⟩

/-- The reading takes up the rest of the text and finds the function type there. -/
def FindsFunction (params : Rules.TypeParams) (result : TypeExpr) (valid : Bool) (x : Parse TypeExpr)
    (s : ParserState) : Prop :=
  ∃ type t, x s = .ok type t ∧
    Matches (.function default params.required params.optional params.rest (some result)) type ∧
    t.token.kind = .endOfProgram ∧ t.script.valid = valid

variable {P R source : String} {x : Excerpt} {own ordered : Bool} {n n' : Nat}
  {s t u : ParserState} {text : List Char} {l : Lexeme}

/-- Behind a piece come its closing parenthesis, a mark and a blank, and then the last piece. -/
def behind (x : Excerpt) (text last : List Char) : Excerpt where
  toPassage := .bare (x.before ++ x.piece ++ [')'] ++ text ++ [' ']) last []
  stopped := Or.inl rfl
  closing := nofun
  minded := False

theorem result_begins (hafter : x.after = ')' :: (text ++ ' ' :: R.toList))
    (hspells : Scan.Spells text (' ' :: R.toList) l) (hmark : l = { kind := l.kind })
    (hkind : l.kind.isMark = true) (hbrace : l.kind ≠ .rightBrace) (hst : x.Near true ordered sP t)
    (hend : sP.token.kind = .endOfProgram) (hpath : sP.script.path = path)
    (hscan : Parse.scan Scanner.next (ParserState.ofScript (Script.ofSource path R)) =
      .ok () first) :
    t.token.kind = .rightParen ∧ ∃ t₁ t₂, Parse.next t = .ok () t₁ ∧ t₁.token.kind = l.kind ∧
      Parse.next t₁ = .ok () t₂ ∧
      (behind x text R.toList).Near sP.script.valid ordered first t₂ := by
  have hstands := hst.stands_behind hend hafter
  obtain ⟨t₁, hnext₁, hstands₁, hkeeps₁, -⟩ := hstands.next hspells
    (by simp [Passage.whole, hafter])
  have hblank : x.whole = x.before ++ x.piece ++ [')'] ++ text ++ ' ' :: R.toList := by
    simp [Passage.whole, hafter]
  obtain ⟨t₂, hnext₂, hstands₂, hkeeps₂, -⟩ := hstands₁.passBlank hblank
  have hkept := hkeeps₁.trans hkeeps₂
  have hstart : t₂.Stands (behind x text R.toList).whole (behind x text R.toList).before l := by
    simpa [behind, Passage.whole, hafter] using hstands₂
  have hvalid : sP.script.valid = (ordered && t₂.script.valid) :=
    hst.valid.trans (by rw [hkept.valid])
  obtain ⟨t₃, hnext₃, hnear⟩ := Fragment.Near.start hstart
    (hkept.path.trans (hst.path.symm.trans hpath)) hvalid hmark hkind
    hbrace (fun hl => hl.minded.elim) rfl rfl hscan (Passage.not_gone_of_last rfl)
  exact ⟨hstands.kind, t₁, t₃, hnext₁, hstands₁.kind, hnext₂.symm.trans hnext₃, hnear⟩

/-- The type that the whole ends with is read as it is read alone. -/
theorem typeExpr_last (hle : n ≤ n') (hlast : x.after = []) (hst : x.Near own true first t)
    (hread : (host.level n).typeExprRule first = .ok result sR)
    (hend : sR.token.kind = .endOfProgram) :
    ∃ result' v, (host.level (n' + 1)).typeExpr t = .ok result' v ∧ Matches result result' ∧
      v.token.kind = .endOfProgram ∧ v.script.valid = (own && sR.script.valid) := by
  obtain ⟨result', v, hread', hnear, hresult⟩ := (x.pairing own true).read
    (level_typesShadow host.readFile host.includeDepth hle).typeExprRule_shadows hst hread
    (Passage.not_gone_of_last hlast)
  exact ⟨result', v, hread', hresult, hnear.ends_together hend hlast, hnear.valid.symm⟩

theorem parseType_of_head
    (hstands : (Parser.ofScript host (Script.ofSource path source)).state.Stands source.toList text l)
    (hkeeps : (ParserState.ofScript (Script.ofSource path source)).Keeps
      (Parser.ofScript host (Script.ofSource path source)).state) {valid : Bool}
    (hhead : ∀ m, FindsFunction params result valid
      ((host.level (source.toList.length + 3)).typeHead m)
      (Parser.ofScript host (Script.ofSource path source)).state) :
    ∃ type, Matches (.function default params.required params.optional params.rest (some result))
        type ∧
      (Parser.ofScript host (Script.ofSource path source)).parseType.1 =
        if valid then some type else none := by
  obtain ⟨type, t, hread, hmatch, hend, hvalid⟩ := hhead _
  have hspans := spans_of_read hstands.content hkeeps.valid
    (typeExprRule_of_head hread hend) hend
  have hrun := congrArg Prod.fst (Parser.run_of_spans hspans)
  rw [Script.isValid, hvalid] at hrun
  exact ⟨type, hmatch, hrun⟩

end Forms

section Keyword

variable {P R : String}

theorem parseType_function
    (hP : (Parser.ofScript host (Script.ofSource path P)).Spans Rules.typeParamList params sP)
    (hclosed : sP.Closed P.toList)
    (hR : (Parser.ofScript host (Script.ofSource path R)).Spans Rules.typeExprRule result sR) :
    ∃ type, Matches (.function default params.required params.optional params.rest (some result))
        type ∧
      (Parser.ofScript host (Script.ofSource path ("function(" ++ P ++ "): " ++ R))).parseType.1 =
        if sP.script.valid && sR.script.valid then some type else none := by
  obtain ⟨firstP, hscanP, hreadP, hendP⟩ := hP.from_first
  obtain ⟨firstR, hscanR, hreadR, hendR⟩ := hR.from_first
  let x : Excerpt :=
    { before := "function".toList ++ ['(']
      piece := P.toList
      after := ')' :: ([':'] ++ ' ' :: R.toList)
      stopped := Or.inr ⟨')', _, rfl, by decide⟩
      closing := by simp
      minded := False }
  generalize hsource : "function(" ++ P ++ "): " ++ R = source
  have hx : source.toList = x.whole := by simp [← hsource, x, Passage.whole]
  -- The marks in front of the parameters.
  have hword : source.toList = "function".toList ++ (['('] ++ (P.toList ++ x.after)) := by
    simp [hx, x, Passage.whole]
  obtain ⟨hstands, hkeeps, -⟩ := ParserState.ofScript_stands host path hword (AllNarrow.plain (by decide)) rfl
    (function_lexeme (P.toList ++ x.after)) rfl
  obtain ⟨t₁, hnext₁, hstands₁, hkeeps₁, -⟩ := hstands.next (leftParen_spells (P.toList ++ x.after))
    (hword.trans (List.append_assoc ..).symm)
  have hkept := hkeeps.trans hkeeps₁
  -- The parameters.
  have hgone : ¬ x.Gone sP := ParserState.Closed.not_gone (x := x.toPassage) hclosed
  have hstays : ¬ x.Gone firstP := fun hfirst => by
    obtain rfl := typeParamList_stays hreadP hfirst.ended
    exact hgone hfirst
  have hstart : t₁.Stands x.whole x.before { kind := .leftParen } := hx ▸ hstands₁
  have hvalid : true = (true && t₁.script.valid) := by
    rw [hkept.valid]
    rfl
  obtain ⟨t₂, hnext₂, hnear₂⟩ := Fragment.Near.start hstart hkept.path hvalid rfl rfl (by decide)
    (fun hl => hl.minded.elim) rfl rfl hscanP hstays
  have hlevelP : P.toList.length + 3 ≤ source.toList.length + 3 := by
    simp [← hsource]
    omega
  obtain ⟨params', t₃, hparams, hnear₃, hmatch⟩ :=
    functionTypeParams_of_list hlevelP rfl hnear₂ hreadP hendP hgone
  -- The result behind them.
  obtain ⟨hclosing, t₄, t₅, hnext₄, hcolon, hnext₅, hnear₅⟩ := result_begins
    rfl (colon_spells _) rfl rfl (by decide) hnear₃ hendP (typeParamList_path hP) hscanR
  have hlevelR : R.toList.length + 3 ≤ source.toList.length + 2 := by
    simp [← hsource]
    omega
  obtain ⟨result', v, hresult, hmatch', hend, hvalid⟩ :=
    typeExpr_last hlevelR rfl hnear₅ hreadR hendR
  have hannotation : Rules.optAnnotation (host.level (source.toList.length + 3)) t₄ =
      .ok (some result') v := by
    unfold Rules.optAnnotation
    rw [bind_of_ok (consume_yes hcolon hnext₅), if_pos rfl, bind_of_ok hresult]
    rfl
  refine parseType_of_head hstands hkeeps fun m => ⟨.function (m.«to» v.previous.span)
    params'.required params'.optional params'.rest (some result'), v, ?_, ?_, hend, hvalid⟩
  · rw [typeHead_function hstands.token hnext₁]
    unfold Rules.functionType
    rw [bind_of_ok (expect_yes hstands₁.kind hnext₂), bind_of_ok hparams,
      bind_of_ok (expect_yes hclosing hnext₄), bind_of_ok hannotation]
    rfl
  · simp_all

end Keyword

section Arrow

variable {P R : String} {x : Excerpt} {own ordered : Bool} {n n' k : Nat} {s t : ParserState}
  {params' : Rules.TypeParams} {types : List TypeExpr}
  (hR : (host.level k).typeExprRule first = .ok result sR) (hendR : sR.token.kind = .endOfProgram)
  (hk : k ≤ n')
include hR hendR hk

theorem arrowType_finds (hlast : x.after = []) (hst : x.Near own true first t)
    (hparams : Matches params params') (m : Mark) :
    FindsFunction params result (own && sR.script.valid)
      ((host.level (n' + 1)).arrowType m params') t := by
  obtain ⟨result', v, hresult, hmatch, hend, hvalid⟩ := typeExpr_last hk hlast hst hR hendR
  refine ⟨.function (m.«to» v.previous.span) params'.required params'.optional params'.rest
    (some result'), v, ?_, by simp_all, hend, hvalid⟩
  unfold Rules.arrowType
  rw [bind_of_ok hresult]
  rfl

/-- The types before the arrow are taken for parameters once it has been read. -/
theorem converted_finds (hlast : x.after = []) (hst : x.Near own ordered first t)
    (hconverts : Rules.Converts types params ordered) (m : Mark) :
    FindsFunction params result (own && sR.script.valid)
      (Rules.convertTypeParams types >>= fun params =>
        (host.level (n' + 1)).arrowType m params) t := by
  obtain ⟨params', u, hconvert, hparams, hreported⟩ := hconverts t
  obtain ⟨type, v, hread, hfinds⟩ :=
    arrowType_finds hR hendR hk hlast (hst.reported_right hreported) hparams m
  exact ⟨type, v, (bind_of_ok hconvert _).trans hread, hfinds⟩

variable (hafter : x.after = ')' :: (arrowText ++ ' ' :: R.toList))
  (hend : sP.token.kind = .endOfProgram) (hpath : sP.script.path = path)
  (hscan : Parse.scan Scanner.next (ParserState.ofScript (Script.ofSource path R)) = .ok () first)
include hafter hend hpath hscan

theorem restArrowType_finds {rest : Identifier} (hle : n ≤ n' + 1) (hst : x.Near true true s t)
    (hread : (host.level n).typedIdentifier s = .ok rest sP) (hgone : ¬ x.Gone sP)
    (hparams : Matches params params') (m : Mark) :
    FindsFunction { params with rest := some rest } result (sP.script.valid && sR.script.valid)
      ((host.level (n' + 1)).restArrowType m params') t := by
  obtain ⟨rest', u, hrest, hnear, hmatch⟩ := (x.pairing true true).read
    (level_typesShadow host.readFile host.includeDepth hle).typedIdentifier_shadows hst hread hgone
  obtain ⟨hclosing, t₁, t₂, hnext₁, harrow, hnext₂, hnear₂⟩ :=
    result_begins hafter (arrowText_spells _) rfl rfl (by decide) hnear hend hpath hscan
  have hmatches : Matches { params with rest := some rest } { params' with rest := some rest' } := by
    simp_all
  obtain ⟨type, v, htype, hfinds⟩ := arrowType_finds hR hendR hk rfl hnear₂ hmatches m
  refine ⟨type, v, ?_, hfinds⟩
  unfold Rules.restArrowType
  rw [bind_of_ok hrest, bind_of_ok (expect_yes hclosing hnext₁), bind_of_ok (expect_yes harrow hnext₂),
    htype]

/-- Types in parentheses are the parameters of a function type if an arrow follows. -/
theorem closed_finds (hst : x.Near true ordered sP t)
    (hconverts : Rules.Converts types params ordered) (m : Mark) (plain : Parse TypeExpr) :
    FindsFunction params result (sP.script.valid && sR.script.valid) (do
      expect .rightParen
      if ← consume .arrow then
        let params ← Rules.convertTypeParams types
        (host.level (n' + 1)).arrowType m params
      else plain) t := by
  obtain ⟨hclosing, t₁, t₂, hnext₁, harrow, hnext₂, hnear₂⟩ :=
    result_begins hafter (arrowText_spells _) rfl rfl (by decide) hst hend hpath hscan
  obtain ⟨type, v, htype, hfinds⟩ := converted_finds hR hendR hk rfl hnear₂ hconverts m
  refine ⟨type, v, ?_, hfinds⟩
  rw [bind_of_ok (expect_yes hclosing hnext₁), bind_of_ok (consume_yes harrow hnext₂)]
  exact htype

/-- Behind the last type a rest parameter may follow. -/
theorem ellipsis_finds {rest : Identifier} {s' : ParserState} (hle : n ≤ n' + 1)
    (hst : x.Near true ordered s t) (hkind : s.token.kind = .ellipsis)
    (hnext : Parse.next s = .ok () s') (hread : (host.level n).typedIdentifier s' = .ok rest sP)
    (hgone : ¬ x.Gone sP) (hconverts : Rules.Converts types params ordered) (m : Mark) :
    ∃ t', consume .ellipsis t = .ok true t' ∧
      FindsFunction { params with rest := some rest } result (sP.script.valid && sR.script.valid)
        (Rules.convertTypeParams types >>= (host.level (n' + 1)).restArrowType m) t' := by
  have hproper : s.token.kind ≠ .endOfProgram := by simp [hkind]
  have hstep : Shadows (x.pairing true true) .tight Matches (host.level n).typedIdentifier
      (host.level (n' + 1)).typedIdentifier :=
    (level_typesShadow host.readFile host.includeDepth hle).typedIdentifier_shadows
  have hstays : ¬ x.Gone s' := (x.pairing true true).kept hstep hread hgone
  obtain ⟨t₁, hnext₁, hnear₁⟩ := (x.pairing true ordered).taken hst hproper hnext hstays
  have hellipsis : t.token.kind = .ellipsis :=
    ((x.pairing true ordered).same_kind hst hproper).symm.trans hkind
  obtain ⟨params', u, hconvert, hparams, hreported⟩ := hconverts t₁
  have hnear₁ : x.Near true (true && ordered) s' t₁ := hnear₁
  have hnear : x.Near true true s' u := hnear₁.reported_right hreported
  obtain ⟨type, v, htype, hfinds⟩ := restArrowType_finds hR hendR hk hafter hend hpath hscan hle
    hnear hread hgone hparams m
  exact ⟨t₁, consume_yes hellipsis hnext₁, type, v, (bind_of_ok hconvert _).trans htype, hfinds⟩

theorem parensType_finds (hle : n ≤ n') (hn : 1 ≤ n') (hst : x.Near true true s t)
    (hread : (host.level n).typeParamList s = .ok params sP) (hgone : ¬ x.Gone sP)
    (hnames : ∀ id ∈ params.named, id.name ≠ "undefined") (m : Mark) :
    FindsFunction params result (sP.script.valid && sR.script.valid)
      ((host.level (n' + 1)).parensType m) t := by
  obtain ⟨-, rfl, rfl⟩ | ⟨hproper, hparams⟩ := typeParamList_inv hread
  · obtain ⟨hclosing, t₁, t₂, hnext₁, harrow, hnext₂, hnear₂⟩ :=
      result_begins hafter (arrowText_spells _) rfl rfl (by decide) hst hend hpath hscan
    obtain ⟨type, v, htype, hfinds⟩ := arrowType_finds hR hendR hk rfl
      hnear₂ rfl m
    refine ⟨type, v, ?_, hfinds⟩
    unfold Rules.parensType
    rw [bind_of_ok (consume_yes hclosing hnext₁), if_pos rfl,
      bind_of_ok (expect_yes harrow hnext₂)]
    exact htype
  have hkind := ((x.pairing true true).same_kind hst hproper).symm
  obtain ⟨hclosed, -, rfl⟩ | ⟨rest, s', hellipsis, hnext, hrest, rfl⟩ |
    ⟨id, optional, s', s'', hparam, hreported, hmore⟩ := Rules.functionTypeParams_inv hparams
  · rw [hclosed] at hend
    cases hend
  · obtain ⟨t', hconsume, type, v, htype, hfinds⟩ := ellipsis_finds hR hendR hk hafter hend hpath
      hscan (Nat.le_succ_of_le hle) hst hellipsis hnext hrest hgone Rules.Converts.nil m
    refine ⟨type, v, ?_, hfinds⟩
    unfold Rules.parensType
    rw [bind_of_ok (consume_no (by rw [hkind, hellipsis]; decide)), if_neg Bool.false_ne_true,
      bind_of_ok hconsume, if_pos rfl]
    exact htype
  obtain ⟨-, hname, -⟩ := Rules.functionTypeParam_inv hparam
  have hshadow : ∀ own other, TypesShadow (x.pairing own other) (host.level n) (host.level n') :=
    fun own other => level_typesShadow host.readFile host.includeDepth hle
  have hdepth : ∀ level, (host.level level).depth = level := fun level => by cases level <;> rfl
  have hrounds : 3 ≤ (host.level n').rounds := by
    unfold Rules.rounds
    rw [hdepth]
    omega
  have hnested : (host.level (n' + 1)).typeExpr = (host.level n').typeExprRule := rfl
  obtain ⟨e, v, he, hnear, hconverts⟩ := Rules.functionTypeParam_converts hshadow hnested hrounds hst
    Rules.Converts.nil hparam hreported hmore hend hgone hnames
  rw [List.nil_append] at hconverts
  have hopened : t.token.kind ≠ .rightParen ∧ t.token.kind ≠ .ellipsis := by simp [hkind, hname]
  rcases Rules.moreTypeParams_inv hmore with ⟨hcomma, -⟩ | ⟨hcomma, rfl, rfl⟩
  · have hfuel : (host.level n).depth + 1 < (host.level (n' + 1)).rounds := by
      unfold Rules.rounds
      rw [hdepth, hdepth]
      omega
    have hcomma' : v.token.kind = .comma :=
      ((x.pairing true _).same_kind hnear (by simp [hcomma])).symm.trans hcomma
    obtain ⟨more, params', ordered', s₁, t₁, htypes, hall, hnear₁, hreaches⟩ :=
      Rules.moreTypes_converts hshadow hnested hrounds (by simp [hafter]) hfuel hnear hconverts hmore hend
        hgone hnames
    have hparens := parensType_several hopened.1 hopened.2 he hcomma' htypes m
    cases hreaches with
    | done =>
      have hclosing := (hnear₁.stands_behind hend hafter).kind
      obtain ⟨type, w, htype, hfinds⟩ := closed_finds hR hendR hk hafter hend hpath hscan hnear₁ hall m
        (finish m >>= fun span => pure (.union span (e :: more)))
      rw [bind_of_ok (consume_no (by rw [hclosing]; decide)), if_neg Bool.false_ne_true] at hparens
      exact ⟨type, w, hparens.trans htype, hfinds⟩
    | rest hellipsis hnext hrest =>
      obtain ⟨t', hconsume, type, w, htype, hfinds⟩ := ellipsis_finds hR hendR hk hafter hend hpath
        hscan (Nat.le_succ_of_le hle) hnear₁ hellipsis hnext hrest hgone hall m
      rw [bind_of_ok hconsume, if_pos rfl] at hparens
      exact ⟨type, w, hparens.trans htype, hfinds⟩
  · have hclosing := (hnear.stands_behind hend hafter).kind
    obtain ⟨type, w, htype, hfinds⟩ := closed_finds hR hendR hk hafter hend hpath hscan hnear hconverts m
      (finish m >>= fun span => pure (.parens span e))
    have hparens := parensType_single hopened.1 hopened.2 he (by rw [hclosing]; decide) m
    exact ⟨type, w, hparens.trans htype, hfinds⟩

omit hR hendR hk hafter hend hpath hscan in
theorem parseType_arrow {P R : String}
    (hP : (Parser.ofScript host (Script.ofSource path P)).Spans Rules.typeParamList params sP)
    (hclosed : sP.Closed P.toList) (hnames : ∀ id ∈ params.named, id.name ≠ "undefined")
    (hR : (Parser.ofScript host (Script.ofSource path R)).Spans Rules.typeExprRule result sR) :
    ∃ type, Matches (.function default params.required params.optional params.rest (some result))
        type ∧
      (Parser.ofScript host (Script.ofSource path ("(" ++ P ++ ") -> " ++ R))).parseType.1 =
        if sP.script.valid && sR.script.valid then some type else none := by
  obtain ⟨firstP, hscanP, hreadP, hendP⟩ := hP.from_first
  obtain ⟨firstR, hscanR, hreadR, hendR⟩ := hR.from_first
  let x : Excerpt :=
    { before := ['(']
      piece := P.toList
      after := ')' :: (arrowText ++ ' ' :: R.toList)
      stopped := Or.inr ⟨')', _, rfl, by decide⟩
      closing := by simp
      minded := False }
  generalize hsource : "(" ++ P ++ ") -> " ++ R = source
  have hx : source.toList = x.whole := by simp [← hsource, x, Passage.whole, arrowText]
  have hmark : source.toList = ['('] ++ (P.toList ++ x.after) := hx
  obtain ⟨hstands, hkeeps, -⟩ := ParserState.ofScript_stands host path hmark (AllNarrow.plain (by decide)) rfl
    (leftParen_lexeme (P.toList ++ x.after)) rfl
  have hgone : ¬ x.Gone sP := ParserState.Closed.not_gone (x := x.toPassage) hclosed
  have hstays : ¬ x.Gone firstP := fun hfirst => by
    obtain rfl := typeParamList_stays hreadP hfirst.ended
    exact hgone hfirst
  have hstart : (Parser.ofScript host (Script.ofSource path source)).state.Stands x.whole x.before
      { kind := .leftParen } := hx ▸ hstands
  have hvalid : true =
      (true && (Parser.ofScript host (Script.ofSource path source)).state.script.valid) := by
    rw [hkeeps.valid]
    rfl
  obtain ⟨t, hnext, hnear⟩ := Fragment.Near.start hstart hkeeps.path hvalid rfl rfl (by decide)
    (fun hl => hl.minded.elim) rfl rfl hscanP hstays
  refine parseType_of_head hstands hkeeps fun m => ?_
  have hlevelR : R.toList.length + 3 ≤ source.toList.length + 2 := by
    simp [← hsource]
    omega
  obtain ⟨type, u, hread, hfinds⟩ := parensType_finds hreadR hendR hlevelR rfl hendP
    (typeParamList_path hP) hscanR (by simp [← hsource]) (by omega) hnear hreadP hgone hnames m
  exact ⟨type, u, (typeHead_parens hstands.kind hnext m).trans hread, hfinds⟩

end Arrow

/-- A function type is accepted with the keyword in front of its parameters just when it is accepted with
the arrow behind them, and it is the same type. The parameters have been read alone up to the end of
their text, and so has the result, whatever problems they have. -/
theorem parseType_function_arrow {P R : String}
    (hparams : (Parser.ofScript host (Script.ofSource path P)).Spans Rules.typeParamList params sP)
    (hclosed : sP.Closed P.toList) (hnames : ∀ id ∈ params.named, id.name ≠ "undefined")
    (hresult : (Parser.ofScript host (Script.ofSource path R)).Spans Rules.typeExprRule result sR) :
    ∃ type type',
      (Parser.ofScript host (Script.ofSource path ("function(" ++ P ++ "): " ++ R))).parseType.1 =
        (if sP.script.valid && sR.script.valid then some type else none) ∧
      (Parser.ofScript host (Script.ofSource path ("(" ++ P ++ ") -> " ++ R))).parseType.1 =
        (if sP.script.valid && sR.script.valid then some type' else none) ∧
      Matches (.function default params.required params.optional params.rest (some result)) type ∧
      Matches (.function default params.required params.optional params.rest (some result)) type' := by
  obtain ⟨type, hmatch, hrun⟩ := parseType_function hparams hclosed hresult
  obtain ⟨type', hmatch', hrun'⟩ := parseType_arrow hparams hclosed hnames hresult
  exact ⟨type, type', hrun, hrun', hmatch, hmatch'⟩

/-- A required parameter, an optional one of a function type and a rest parameter. -/
theorem parseType_function_arrow_mixed : ∃ type type',
    (Parser.ofScript (Host.ofFiles []) (Script.ofSource "/a.es"
      ("function(" ++ "a, b?: (x, y?) -> z, ...c: [w]" ++ "): " ++ "u | v"))).parseType.1 = some type ∧
    (Parser.ofScript (Host.ofFiles []) (Script.ofSource "/a.es"
      ("(" ++ "a, b?: (x, y?) -> z, ...c: [w]" ++ ") -> " ++ "u | v"))).parseType.1 = some type' ∧
    Matches type type' := by
  let p := Parser.ofScript (Host.ofFiles [])
    (Script.ofSource "/a.es" "a, b?: (x, y?) -> z, ...c: [w]")
  have hnamed : (p.run Rules.typeParamList).1.map (fun params => params.named.map Identifier.name) =
      some ["a", "b"] := by decide +kernel
  have hcomments : (p.run Rules.typeParamList).2.script.comments = #[] := by decide +kernel
  have hresult : ((Parser.ofScript (Host.ofFiles []) (Script.ofSource "/a.es" "u | v")).run
      Rules.typeExprRule).1.isSome = true := by decide +kernel
  obtain ⟨params, hparams, hnames⟩ := Option.map_eq_some_iff.mp hnamed
  obtain ⟨result, hresult⟩ := Option.isSome_iff_exists.mp hresult
  obtain ⟨sP, hP, hvalidP⟩ := spans_of_run hparams
  obtain ⟨sR, hR, hvalidR⟩ := spans_of_run hresult
  have hclosed : sP.Closed "a, b?: (x, y?) -> z, ...c: [w]".toList := by
    rw [run_of_spans hP] at hcomments
    exact ParserState.closed_of_comments hcomments _
  obtain ⟨type, type', hrun, hrun', hmatch, hmatch'⟩ := parseType_function_arrow hP hclosed
    (fun id hid => by
      have hname := List.mem_map_of_mem (f := Identifier.name) hid
      rw [hnames] at hname
      rintro heq
      simp [heq] at hname) hR
  have hvalid : (sP.script.valid && sR.script.valid) = true := by
    rw [show sP.script.valid = true from hvalidP, show sR.script.valid = true from hvalidR]
    rfl
  rw [if_pos hvalid] at hrun hrun'
  exact ⟨type, type', hrun, hrun', hmatch.symm.trans hmatch'⟩

end Parser

end Wholes

end ActionSyntax
