import ActionSyntax.Proofs.Shadows.Endings

/-!
Types in front of a colon. Whatever they end with, they go on with the colon.
-/

namespace ActionSyntax

set_option autoImplicit false

open Parse Rules Stem

/-- Rules that read types as others do in front of a colon. -/
structure TypesApproach (x : Stem) (r r' : Rules) : Prop where
  shadow : TypesShadow x.opening r r'
  sound : (Setting.lenient r'.readFile).Sound r'.depth r'
  typeExpr : x.Approaches True Matches .taking r.typeExpr r'.typeExpr

namespace TypesApproach

variable {x : Stem} {r r' : Rules} {begun : Prop} (h : TypesApproach x r r')
include h

theorem typeExpr_taken {α : Type} {S : α → α → Prop} {N : Manner α} {f f' : TypeExpr → α}
    (hf : ∀ type type', Matches type type' → S (f type) (f' type')) (htakes : ∀ type, N.takes (f type)) :
    x.Approaches begun S N (r.typeExpr >>= fun type => pure (f type))
      (r'.typeExpr >>= fun type => pure (f' type)) :=
  (h.typeExpr.given hf (fun _ => False.elim) fun type _ => htakes type).weaken fun _ => trivial

/-- A type that ends what is read. -/
theorem typeExpr_ends {α : Type} {S : α → α → Prop} {N : Manner α} {m m' : Mark}
    {f f' : Span → TypeExpr → α}
    (hf : ∀ span span' type type', Matches type type' → S (f span type) (f' span' type'))
    (htakes : ∀ span type, N.takes (f span type)) :
    x.Approaches begun S N
      (r.typeExpr >>= fun type => finish m >>= fun span => pure (f span type))
      (r'.typeExpr >>= fun type => finish m' >>= fun span => pure (f' span type)) := by
  refine .weaken (.matched h.typeExpr (fun type type' htype => ?_) ?_ fun type => ?_) fun _ => trivial
  · exact finished_approaches m m' (fun span span' => hf span span' type type' htype) fun hno => hno.elim
  · intro type s a t _ _ hread
    cases hread
    exact htakes _ type
  · exact .bind (.finish m') fun span => .pure _

theorem optAnnotation_approaches :
    x.Approaches begun Matches .taking r.optAnnotation r'.optAnnotation :=
  consume_colon_approaches (h.typeExpr_taken (fun _ _ htype => by simp_all) fun _ => trivial)
    (.pure rfl id) (fun _ _ => trivial) (.bind (.of_reads h.sound.typeExpr) fun _ => .pure _)

/-- An annotation that ends what is read. -/
theorem optAnnotation_ends {α : Type} {S : α → α → Prop} {N : Manner α} {m m' : Mark}
    {f f' : Span → Option TypeExpr → α}
    (hf : ∀ span span' type type', Matches type type' → S (f span type) (f' span' type'))
    (htakes : ∀ span type, N.takes (f span type)) :
    x.Approaches begun S N
      (r.optAnnotation >>= fun type => finish m >>= fun span => pure (f span type))
      (r'.optAnnotation >>= fun type => finish m' >>= fun span => pure (f' span type)) := by
  refine .matched h.optAnnotation_approaches (fun type type' htype => ?_) ?_ fun type => ?_
  · exact finished_approaches m m' (fun span span' => hf span span' type type' htype) fun hno => hno.elim
  · intro type s a t _ _ hread
    cases hread
    exact htakes _ type
  · exact .bind (.finish m') fun span => .pure _

theorem typeArguments_approaches {α : Type} {S : α → α → Prop} {N : Manner α} {m m' : Mark}
    {f f' : Span → List TypeExpr → α}
    (hf : ∀ span span' types types', Matches types types' → S (f span types) (f' span' types'))
    (hleaves : ∀ span types, N.leaves (f span types)) :
    x.Approaches begun S N
      (r.typeArguments >>= fun types => finish m >>= fun span => pure (f span types))
      (r'.typeArguments >>= fun types => finish m' >>= fun span => pure (f' span types)) := by
  unfold typeArguments
  simp only [bind_assoc, pure_bind]
  refine .closed (separated_shadows (Or.inr fun _ => False.elim) (h.shadow.typeExpr .wide)
    h.shadow.rounds_le) (fun types types' htypes => ?_) fun _ => expectGreater_starves.seq
  refine expectGreater_approaches (finished_approaches m m' ?_ fun _ span => hleaves span types)
  exact fun span span' => hf span span' types types' htypes

theorem functionType_approaches (m m' : Mark) :
    x.Approaches begun Matches .either (r.functionType m) (r'.functionType m') := by
  refine expect_approaches (by decide) ?_
  refine .closed (h.shadow.functionTypeParams_shadows (Or.inl rfl) h.shadow.rounds_le {} {} rfl)
    (fun params params' hparams => ?_) fun _ => (expect_starves (k := .rightParen) (by decide)).seq
  refine expect_approaches (by decide) ?_
  exact h.optAnnotation_ends (fun span span' result result' hresult => by simp_all) fun _ _ => trivial

theorem arrowType_approaches (m m' : Mark) {params params' : TypeParams} (hparams : Matches params params') :
    x.Approaches begun Matches .either (r.arrowType m params) (r'.arrowType m' params') :=
  h.typeExpr_ends (fun span span' result result' hresult => by simp_all) fun _ _ => trivial

omit h in
/-- The parameters of a function that have been read as types. -/
theorem convertTypeParams_approaches {types types' : List TypeExpr} (htypes : Matches types types')
    {f f' : TypeParams → Parse TypeExpr}
    (hf : ∀ params params', Matches params params' → x.Approaches False Matches .either (f params) (f' params'))
    (hstarves : ∀ params, Starves (f params)) : x.Approaches begun Matches .either
      (convertTypeParams types >>= f) (convertTypeParams types' >>= f') :=
  have hparams : Shadows x.opening .tight Matches (convertTypeParams types) (convertTypeParams types') :=
    TypesShadow.convertTypeParams_shadows htypes
  .closed hparams hf hstarves

theorem convertedType_approaches (m m' : Mark) {types types' : List TypeExpr} (htypes : Matches types types') :
    x.Approaches begun Matches .either
      (convertTypeParams types >>= fun params => r.arrowType m params)
      (convertTypeParams types' >>= fun params => r'.arrowType m' params) :=
  convertTypeParams_approaches htypes (fun _ _ hparams => h.arrowType_approaches m m' hparams)
    fun _ => h.shadow.typeExpr_starves.seq

theorem restArrowType_approaches (m m' : Mark) {params params' : TypeParams}
    (hparams : Matches params params') :
    x.Approaches begun Matches .either (r.restArrowType m params) (r'.restArrowType m' params') := by
  have hread : Shadows x.opening .tight Matches r.typedIdentifier r'.typedIdentifier :=
    h.shadow.typedIdentifier_shadows
  refine .closed hread (fun rest rest' hrest => ?_) fun _ => (expect_starves (k := .rightParen) (by decide)).seq
  refine expect_approaches (by decide) (expect_approaches (by decide) ?_)
  exact h.arrowType_approaches m m' (by simp_all)

theorem bracketType_approaches (m m' : Mark) :
    x.Approaches begun Matches .either (r.bracketType m) (r'.bracketType m') := by
  have close : ∀ {begun : Prop} (f f' : Span → TypeExpr), (∀ span span', (f span).bare = (f' span').bare) →
      x.Approaches begun Matches .either
        (expect .rightBracket >>= fun _ => finish m >>= fun span => pure (f span))
        (expect .rightBracket >>= fun _ => finish m' >>= fun span => pure (f' span)) := fun f f' hf =>
    expect_approaches (by decide) (finished_approaches m m' hf fun _ _ => trivial)
  have tail : ∀ f : Span → TypeExpr, Starves (expect .rightBracket >>= fun _ => finish m >>= fun span =>
      pure (f span)) := fun _ => (expect_starves (k := .rightBracket) (by decide)).seq
  refine consume_approaches (by decide) (by decide) ?_ ?_
  · refine .closed (h.shadow.typeExpr .tight) (fun item item' hitem => ?_) fun item => tail (.array · item)
    exact close (.array · item) (.array · item') fun _ _ => by simp_all
  refine consume_approaches (by decide) (by decide) ?_ ?_
  · exact finished_approaches m m' (fun _ _ => rfl) fun _ _ => trivial
  refine .closed (h.shadow.typeExpr .tight) (fun first first' hfirst => ?_)
    fun first => at?_starves (by decide) (tail (.array · first))
  refine at?_approaches (by decide) (by decide) ?_ ?_
  · show x.Approaches False _ _ (r.moreTypes _ _ >>= _) (r'.moreTypes _ _ >>= _)
    refine .closed (h.shadow.moreTypes_shadows _ h.shadow.rounds_le) (fun rest rest' hrest => ?_)
      fun rest => tail (.tuple · (first :: rest))
    exact close (.tuple · (first :: rest)) (.tuple · (first' :: rest')) fun _ _ => by simp_all
  · exact close (.array · first) (.array · first') fun _ _ => by simp_all

theorem parensType_approaches (m m' : Mark) :
    x.Approaches begun Matches .either (r.parensType m) (r'.parensType m') := by
  have tail : Starves (expect .rightParen) := expect_starves (by decide)
  refine consume_approaches (by decide) (by decide) ?_ ?_
  · exact expect_approaches (by decide) (h.arrowType_approaches m m' rfl)
  refine consume_approaches (by decide) (by decide) (h.restArrowType_approaches m m' rfl) ?_
  refine .closed (h.shadow.typeExpr .tight) (fun first first' hfirst => ?_)
    fun _ => at?_starves (by decide) tail.seq
  refine at?_approaches (by decide) (by decide) ?_ ?_
  · show x.Approaches False _ _ (r.moreTypes _ _ >>= _) (r'.moreTypes _ _ >>= _)
    refine .closed (h.shadow.moreTypes_shadows _ h.shadow.rounds_le) (fun rest rest' hrest => ?_)
      fun _ => consume_starves (by decide) tail.seq
    refine consume_approaches (by decide) (by decide) ?_ ?_
    · exact convertTypeParams_approaches (by simp_all)
        (fun _ _ hparams => h.restArrowType_approaches m m' hparams)
        fun _ => (Starves.of_reads h.shadow.sound.typedIdentifier_reads).seq
    refine expect_approaches (by decide) (consume_approaches (by decide) (by decide) ?_ ?_)
    · exact h.convertedType_approaches m m' (by simp_all)
    · exact finished_approaches m m' (fun _ _ => by simp_all) fun _ _ => trivial
  · refine expect_approaches (by decide) (consume_approaches (by decide) (by decide) ?_ ?_)
    · exact h.convertedType_approaches m m' (by simp_all)
    · exact finished_approaches m m' (fun _ _ => by simp_all) fun _ _ => trivial

theorem nameType_approaches (m m' : Mark) :
    x.Approaches begun Matches .either (r.nameType m) (r'.nameType m') := by
  refine finish_approaches m m' fun span span' => previous_approaches fun t t' ht => ?_
  refine consume_approaches (by decide) (by decide) ?_ (.pure (by simp [ht.text]) fun _ => trivial)
  exact h.convertedType_approaches m m' (by simp [ht.text])

/-- What a type begins with does not tell whether the colon has been taken already. -/
theorem typeHead_approaches (m m' : Mark) :
    x.Approaches begun Matches .either (r.typeHead m) (r'.typeHead m') := by
  have plain : ∀ type : Span → TypeExpr, (∀ span span', Matches (type span) (type span')) →
      x.Approaches True Matches .either (finish m >>= fun span => pure (type span))
        (finish m' >>= fun span => pure (type span)) := fun type htype =>
    finished_approaches m m' htype fun _ _ => trivial
  refine consumeIf_approaches (Token.asks_contextKeyword _)
    (fun t ht => by simp [Token.isContextKeyword, ht]) (plain _ fun _ _ => rfl) ?_
  refine consume_approaches (by decide) (by decide) (h.nameType_approaches m m') ?_
  refine consumeKeyword_approaches _ (h.functionType_approaches m m') ?_
  refine consume_approaches (by decide) (by decide) (h.bracketType_approaches m m') ?_
  refine consume_approaches (by decide) (by decide) ?_ ?_
  · refine .closed (separatedUntil_shadows _ h.shadow.typedIdentifier_shadows h.shadow.rounds_le)
      (fun fields fields' hfields => ?_) fun _ => (expect_starves (k := .rightBrace) (by decide)).seq
    refine expect_approaches (by decide) (finished_approaches m m' ?_ fun _ _ => trivial)
    exact fun span span' => by simp_all
  refine consume_approaches (by decide) (by decide) (h.parensType_approaches m m') ?_
  refine consumeKeyword_approaches _ (plain _ fun _ _ => rfl) ?_
  refine consumeOperator_approaches _ (plain _ fun _ _ => rfl) ?_
  refine consumeKeyword_approaches _ (plain _ fun _ _ => rfl) ?_
  exact consumeOperator_approaches _ (h.typeExpr.mono (Manner.le_either _)) .unexpected

theorem typeMember_approaches (m m' : Mark) {base base' : TypeExpr} (hbase : Matches base base') :
    x.Approaches begun Matches .leaving (r.typeMember m base) (r'.typeMember m' base') := by
  refine consumeOperator_approaches _ ?_ ?_
  · exact h.typeArguments_approaches (fun span span' types types' htypes => by simp_all) fun _ _ => trivial
  · refine .matched wordIdentifier_approaches (fun id id' hid => ?_) False.elim
      fun id => .bind (.finish m') fun span => .pure _
    exact finished_approaches m m' (fun span span' => by simp_all) fun _ _ => trivial

/-- Where a type does not go on, it does so with the colon. -/
theorem typeSuffix?_approaches {base base' : TypeExpr} (hbase : Matches base base') :
    x.Approaches begun Matches ⟨fun found => found.isSome, fun _ => True⟩ (r.typeSuffix? base)
      (r'.typeSuffix? base') := by
  refine consume_approaches (by decide) (by decide)
    (finished_approaches _ _ (fun span span' => by simp_all) fun _ _ => rfl) ?_
  refine consume_approaches (by decide) (by decide)
    (finished_approaches _ _ (fun span span' => by simp_all) fun _ _ => rfl) ?_
  refine consume_approaches (by decide) (by decide) ?_ ?_
  · exact .given (h.typeMember_approaches _ _ hbase) (fun _ _ hmember => by simp_all) (fun _ _ => rfl)
      fun _ => False.elim
  refine consume_colon_approaches ?_ ?_ (fun _ _ => trivial) ?_
  · exact h.typeExpr_taken (fun type type' htype => by simp_all) fun _ => trivial
  · refine consumeOperator_approaches _ (h.typeExpr_taken (fun right right' hright => ?_) fun _ => trivial)
      (.pure rfl False.elim)
    have hleft := hbase.unionMembers
    have hmembers := Matches.unionMembers hright
    simp_all
  · exact .bind (.of_reads h.sound.typeExpr) fun _ => .pure _

theorem typeSuffixes_approaches : ∀ {fuel fuel' : Nat}, fuel ≤ fuel' → ∀ {base base' : TypeExpr},
    Matches base base' → x.Approaches True Matches .taking (r.typeSuffixes fuel base)
      (r'.typeSuffixes fuel' base')
  | 0, _, _, _, _, _ => .exhausted
  | fuel + 1, fuel' + 1, hle, base, base', hbase => by
    refine .matched (h.typeSuffix?_approaches hbase) (fun found found' hfound => ?_) (fun _ _ _ => trivial)
      fun found' => ?_
    · cases found <;> cases found' <;> simp at hfound
      · exact .pure hbase nofun
      · exact (typeSuffixes_approaches (Nat.le_of_succ_le_succ hle) hfound).weaken fun _ => trivial
    · cases found' with
      | none => exact .pure _
      | some longer =>
        exact .of_reads (h.sound.typeSuffixes_reads fuel' longer 0 (Nat.zero_le _) (Nat.zero_le _))

theorem typeExprRule_approaches : x.Approaches True Matches .taking r.typeExprRule r'.typeExprRule := by
  refine mark_approaches fun m m' => ?_
  refine .matched (h.typeHead_approaches m m') (fun head head' hhead => ?_) (fun _ _ _ => trivial)
    fun head => ?_
  · exact h.typeSuffixes_approaches h.shadow.rounds_le hhead
  · exact .of_reads (h.sound.typeSuffixes_reads _ head 0 (Nat.zero_le _) (Nat.zero_le _))

end TypesApproach

end ActionSyntax
