import ActionSyntax.Grammar.Definitions
import ActionSyntax.Proofs.Shadows.Expressions

/-!
How definitions are read in the shadow of each other. Nothing has to be known about where they end,
since a definition stands in a block.
-/

namespace ActionSyntax

set_option autoImplicit false

open Parse Rules

namespace Token.Like

variable {t u : Token} (h : t.Like u)
include h

theorem isSoftDefinition : Words.isSoftDefinition t = Words.isSoftDefinition u := by
  unfold Words.isSoftDefinition
  rw [h.isContextKeyword, h.isContextKeyword, h.isContextKeyword]

theorem isStrictDefinition : Words.isStrictDefinition t = Words.isStrictDefinition u := by
  unfold Words.isStrictDefinition
  rw [h.kind_beq rfl, h.text]

theorem modifier? : Words.modifier? t = Words.modifier? u := by
  unfold Words.modifier?
  rw [← h.kind_beq rfl, h.text]
  cases hk : t.kind == .identifier with
  | false => rfl
  | true => rw [h.length (eq_of_beq hk)]

theorem access? : Words.access? t = Words.access? u := by
  unfold Words.access?
  rw [h.kind_beq rfl, h.text]

theorem beginsDefinition : Words.beginsDefinition t = Words.beginsDefinition u := by
  unfold Words.beginsDefinition
  rw [h.isStrictDefinition, h.access?]

theorem beginsDecorated : Words.beginsDecorated t = Words.beginsDecorated u := by
  unfold Words.beginsDecorated
  rw [h.beginsDefinition, h.isSoftDefinition, h.modifier?]

end Token.Like

section Bare

@[simp] def Rules.Heritage.bare (h : Heritage) : Heritage :=
  ⟨h.extended.map TypeExpr.bare, h.implemented.map TypeExpr.bare, h.generics.map Generics.bare⟩

instance : Bare Heritage := ⟨Heritage.bare⟩

@[simp] theorem bare_heritage : (bare : Heritage → Heritage) = Heritage.bare := rfl

variable {name : String} {attributes attributes' : Attributes} {common common' : FunctionCommon}

theorem Rules.isNamed_bare (e : Expr) : isNamed name e.bare = isNamed name e := by
  cases e with
  | identifier id =>
    obtain ⟨span, idName, type⟩ := id
    cases type <;> rfl
  | _ => rfl

theorem Matches.takeDecorator (name : String) (h : Matches attributes attributes') :
    Matches (takeDecorator name attributes) (takeDecorator name attributes') := by
  have hbare : ∀ attributes : Attributes,
      bare (Rules.takeDecorator name attributes) = Rules.takeDecorator name attributes.bare := by
    rintro ⟨decorators, modifiers, access⟩
    cases decorators with
    | none => rfl
    | some decorators =>
      simp [Rules.takeDecorator, List.eraseP_map, Function.comp_def, isNamed_bare]
  have hmatch : attributes.bare = attributes'.bare := h
  show bare _ = bare _
  rw [hbare, hbare, hmatch]

theorem Matches.attributes_iff : Matches attributes attributes' ↔
    Matches attributes.decorators attributes'.decorators ∧
      attributes.modifiers = attributes'.modifiers ∧ attributes.access = attributes'.access := by
  obtain ⟨decorators, modifiers, access⟩ := attributes
  obtain ⟨decorators', modifiers', access'⟩ := attributes'
  simp

theorem Matches.modifiers (h : Matches attributes attributes') :
    attributes.modifiers = attributes'.modifiers := (attributes_iff.mp h).2.1

theorem Matches.isSubstantial (h : Matches attributes attributes') :
    attributes.isSubstantial = attributes'.isSubstantial := by
  have hbare : ∀ attributes : Attributes, attributes.bare.isSubstantial = attributes.isSubstantial := by
    rintro ⟨decorators, modifiers, access⟩
    cases decorators with
    | none => rfl
    | some decorators => cases decorators <;> rfl
  have hmatch : attributes.bare = attributes'.bare := h
  rw [← hbare, hmatch, hbare]

theorem Matches.hasBody (h : Matches common common') :
    common.body.isSome = common'.body.isSome := by
  obtain ⟨_, _, _, _, _, _, _, _, body⟩ := common
  obtain ⟨_, _, _, _, _, _, _, _, body'⟩ := common'
  cases body <;> cases body' <;> simp_all

theorem Matches.uses (h : Matches common common') :
    common.usesAwait = common'.usesAwait ∧ common.usesYield = common'.usesYield := by
  obtain ⟨_, _, _, _, _, _, _, _, _⟩ := common
  obtain ⟨_, _, _, _, _, _, _, _, _⟩ := common'
  simp_all

theorem Matches.hasProxyParameters (op : Operator) (h : Matches common common') :
    hasProxyParameters op common = hasProxyParameters op common' := by
  have hbare : ∀ common : FunctionCommon,
      Rules.hasProxyParameters op common.bare = Rules.hasProxyParameters op common := by
    rintro ⟨_, _, _, params, optional, rest, _, _, _⟩
    cases optional <;> cases rest <;> simp [Rules.hasProxyParameters]
  have hmatch : common.bare = common'.bare := h
  rw [← hbare, hmatch, hbare]

theorem Matches.isPlainName {pattern pattern' : Pattern} (h : Matches pattern pattern') :
    pattern.isPlainName = pattern'.isPlainName := by
  have hbare : ∀ pattern : Pattern, pattern.bare.isPlainName = pattern.isPlainName := by
    intro pattern
    cases pattern with
    | name span name type => cases type <;> rfl
    | _ => rfl
  have hmatch : pattern.bare = pattern'.bare := h
  rw [← hbare, hmatch, hbare]

theorem Matches.name_eq {id id' : Identifier} (h : Matches id id') : id.name = id'.name := by
  obtain ⟨span, name, type⟩ := id
  obtain ⟨span', name', type'⟩ := id'
  simp_all

end Bare

namespace RulesShadow

variable {P : Pairing} {r r' : Rules}

section Checks

variable {tier : Tier}

theorem restrictModifiers_shadows (span span' : Span) (actual : Modifiers)
    (restricted : List Modifier) :
    Shadows P tier Eq (restrictModifiers span actual restricted)
      (restrictModifiers span' actual restricted) := by
  unfold restrictModifiers
  induction actual.toList.filter restricted.contains with
  | nil => exact .pure rfl
  | cons m rest ih =>
    exact .seq (report_shadows _ _ _ _ _) fun _ => ih

theorem checkContext_shadows (allowed : Bool) (span span' : Span) :
    Shadows P tier Eq (checkContext allowed span) (checkContext allowed span') :=
  .ite (verifyError_shadows _ _ _) (.pure rfl)

variable {attributes attributes' : Attributes} {common common' : FunctionCommon}
  {id id' : Identifier} (context : Context)

theorem checkBody_shadows (hattributes : Matches attributes attributes')
    (hcommon : Matches common common') :
    Shadows P tier Eq (checkBody attributes common id) (checkBody attributes' common' id') := by
  have hbody : common.body.isNone = common'.body.isNone := by
    rw [← Option.not_isSome, ← Option.not_isSome, Matches.hasBody hcommon]
  refine .ite_iff (by rw [Matches.modifiers hattributes]) ?_ ?_
  · exact .ite_iff (by rw [Matches.hasBody hcommon]) (syntaxError_shadows _ _ _) (.pure rfl)
  · exact .ite_iff (by rw [hbody]) (syntaxError_shadows _ _ _) (.pure rfl)

theorem checkMethod_shadows (hattributes : Matches attributes attributes')
    (hcommon : Matches common common') :
    Shadows P tier Eq (checkMethod attributes context common id)
      (checkMethod attributes' context common' id') :=
  .ite (.ite_iff (by rw [Matches.isSubstantial hattributes]) (syntaxError_shadows _ _ _) (.pure rfl))
    (checkBody_shadows hattributes hcommon)

theorem checkUses_shadows (mayYield : Bool) (hcommon : Matches common common') :
    Shadows P tier Eq (checkUses common id mayYield) (checkUses common' id' mayYield) := by
  obtain ⟨hawait, hyield⟩ := Matches.uses hcommon
  refine .ite_iff (by rw [hawait]) (syntaxError_shadows _ _ _) ?_
  exact .ite_iff (by rw [hyield]) (syntaxError_shadows _ _ _) (.pure rfl)

theorem checkProxy_shadows (op : Operator) (hattributes : Matches attributes attributes')
    (hcommon : Matches common common') :
    Shadows P tier Eq (checkProxy attributes context common id op)
      (checkProxy attributes' context common' id' op) := by
  have rest : Shadows P tier Eq
      (do
        checkUses common id (op == .iterateKeys || op == .iterateValues)
        restrictModifiers id.span attributes.modifiers [.final, .override, .static]
        if !hasProxyParameters op common then verifyError .proxyHasWrongNumParams id.span)
      (do
        checkUses common' id' (op == .iterateKeys || op == .iterateValues)
        restrictModifiers id'.span attributes'.modifiers [.final, .override, .static]
        if !hasProxyParameters op common' then verifyError .proxyHasWrongNumParams id'.span) := by
    refine .seq (checkUses_shadows _ hcommon) fun _ => ?_
    rw [Matches.modifiers hattributes]
    refine .seq (restrictModifiers_shadows _ _ _ _) fun _ => ?_
    exact .ite_iff (by rw [Matches.hasProxyParameters op hcommon]) (verifyError_shadows _ _ _)
      (.pure rfl)
  exact .ite (.seq (checkBody_shadows hattributes hcommon) fun _ => rest)
    (.seq (checkContext_shadows _ _ _) fun _ => rest)

end Checks

theorem definitionAttributes_shadows (hl : P.layered) : ∀ {fuel fuel' : Nat}, fuel ≤ fuel' →
    ∀ {attributes attributes' : Attributes}, Matches attributes attributes' →
      Shadows P .wide Matches (definitionAttributes fuel attributes)
        (definitionAttributes fuel' attributes')
  | 0, _, _, _, _, _ => exhausted_shadows
  | fuel + 1, fuel' + 1, hle, attributes, attributes', hattributes => by
    refine get_shadows fun s t hst => ?_
    obtain ⟨hdecorators, hmodifiers, haccess⟩ := Matches.attributes_iff.mp hattributes
    refine .optional (by rw [hmodifiers, haccess, (hst.layout hl).1]) (syntaxError_shadows _ _ _) ?_
    rw [← hst.token.like.modifier?, ← hst.token.like.access?]
    split
    · exact .seq next_shadows fun _ =>
        definitionAttributes_shadows hl (Nat.le_of_succ_le_succ hle)
          (Matches.attributes_iff.mpr ⟨hdecorators, by simp only [hmodifiers], haccess⟩)
    · exact .seq next_shadows fun _ =>
        definitionAttributes_shadows hl (Nat.le_of_succ_le_succ hle)
          (Matches.attributes_iff.mpr ⟨hdecorators, hmodifiers, rfl⟩)
    · exact .pure hattributes

variable (h : RulesShadow P r r')
include h

section Definitions

theorem definedBinding_shadows (isVariant : Bool) :
    Shadows P .wide Matches (r.definedBinding isVariant) (r'.definedBinding isVariant) := by
  refine .matched (h.variableBinding_shadows true) fun binding binding' hbinding => ?_
  have hpattern : Matches binding.pattern binding'.pattern := by
    obtain ⟨span, pattern, init⟩ := binding
    obtain ⟨span', pattern', init'⟩ := binding'
    simp_all
  exact .optional (by rw [Matches.isPlainName hpattern]) (verifyError_shadows _ _ _) (.pure hbinding)

variable {attributes attributes' : Attributes} {id id' : Identifier} (context : Context)
  (m m' : Mark)

theorem variableDefinition_shadows (readOnly : Bool) (hattributes : Matches attributes attributes') :
    Shadows P .wide Matches (r.variableDefinition attributes context m readOnly)
      (r'.variableDefinition attributes' context m' readOnly) := by
  have hmodifiers := Matches.modifiers hattributes
  unfold variableDefinition enumVariant
  rw [hmodifiers]
  refine .matched (separated_shadows (Or.inl rfl) (h.definedBinding_shadows _) h.rounds_le)
    fun bindings bindings' hbindings => ?_
  refine .seq (endStatement_shadows h.layered) fun ended => ?_
  refine finish_shadows m m' fun span span' => ?_
  have rest : ∀ _ : Unit, Shadows P .wide Matches
      (do
        restrictModifiers span attributes'.modifiers [.final, .native, .override, .proxy]
        return (Statement.variableDef span attributes readOnly bindings, ended))
      (do
        restrictModifiers span' attributes'.modifiers [.final, .native, .override, .proxy]
        return (Statement.variableDef span' attributes' readOnly bindings', ended)) := fun _ =>
    .seq (restrictModifiers_shadows _ _ _ _) fun _ => .pure (by simp_all)
  exact .ite (.seq (verifyError_shadows _ _ _) rest) (.seq (checkContext_shadows _ _ _) rest)

/-- What is said about a function once its parts have been read. -/
theorem functionRest_shadows {generics generics' : Option Generics} {role : FunctionRole}
    {f f' : FunctionParts → Span → Parse Ended} (hgenerics : Matches generics generics')
    (hf : ∀ parts parts', Matches parts.common parts'.common →
      Matches parts.generics parts'.generics → parts.ended = parts'.ended → ∀ span span',
        Shadows P .wide Matches (f parts span) (f' parts' span')) :
    Shadows P .wide Matches
      (r.functionParts generics role >>= fun parts => finish m >>= f parts)
      (r'.functionParts generics' role >>= fun parts => finish m' >>= f' parts) := by
  refine .matched (h.functionParts_shadows hgenerics (Or.inl rfl))
    fun ⟨common, generics, ended⟩ ⟨common', generics', ended'⟩ hparts => ?_
  obtain ⟨hcommon, hgenerics, hended⟩ :
      Matches common common' ∧ Matches generics generics' ∧ ended = ended' := by simpa using hparts
  exact finish_shadows m m' (hf _ _ hcommon hgenerics hended)

theorem constructorDefinition_shadows (hattributes : Matches attributes attributes')
    (hid : Matches id id') :
    Shadows P .wide Matches (r.constructorDefinition attributes m id)
      (r'.constructorDefinition attributes' m' id') := by
  refine h.functionRest_shadows m m' rfl fun parts parts' hcommon _ hended span span' => ?_
  refine .seq (checkBody_shadows hattributes hcommon) fun _ => ?_
  refine .seq (checkUses_shadows _ hcommon) fun _ => ?_
  rw [Matches.modifiers hattributes]
  exact .seq (restrictModifiers_shadows _ _ _ _) fun _ => .pure (by simp_all)

theorem accessorDefinition_shadows (isGetter : Bool) (hattributes : Matches attributes attributes')
    (hid : Matches id id') :
    Shadows P .wide Matches (r.accessorDefinition attributes context m id isGetter)
      (r'.accessorDefinition attributes' context m' id' isGetter) := by
  refine h.functionRest_shadows m m' rfl fun parts parts' hcommon _ hended span span' => ?_
  refine .seq (checkMethod_shadows context hattributes hcommon) fun _ => ?_
  refine .seq (checkUses_shadows _ hcommon) fun _ => .pure ?_
  cases isGetter <;> simp_all

theorem proxyDefinition_shadows (hattributes : Matches attributes attributes')
    (hid : Matches id id') :
    Shadows P .wide Matches (r.proxyDefinition attributes context m id)
      (r'.proxyDefinition attributes' context m' id') := by
  refine h.functionRest_shadows m m' rfl fun parts parts' hcommon _ hended span span' => ?_
  rw [Matches.name_eq hid]
  cases Words.proxyOperator? id'.name with
  | some op =>
    exact .seq (checkProxy_shadows context op hattributes hcommon) fun _ => .pure (by simp_all)
  | none => exact .seq (report_shadows _ _ _ _ _) fun _ => .pure (by simp_all)

theorem functionDefinition_shadows (hattributes : Matches attributes attributes') :
    Shadows P .wide Matches (r.functionDefinition attributes context m)
      (r'.functionDefinition attributes' context m') := by
  refine .matched identifier_shadows fun id id' hid => ?_
  refine previous_shadows fun word word' hword => ?_
  simp only [hword.isContextKeyword]
  refine .seq (at?_wide _) fun named => ?_
  refine .ite ?_ ?_
  · exact .matched identifier_shadows fun id id' hid =>
      h.accessorDefinition_shadows context m m' _ hattributes hid
  rw [Matches.name_eq hid]
  refine .ite (h.constructorDefinition_shadows m m' hattributes hid) ?_
  rw [Matches.modifiers hattributes]
  refine .ite (h.proxyDefinition_shadows context m m' hattributes hid) ?_
  refine .matched h.optGenerics_shadows fun generics generics' hgenerics => ?_
  refine h.functionRest_shadows m m' hgenerics
    fun parts parts' hcommon hgenerics hended span span' => ?_
  exact .seq (checkMethod_shadows context hattributes hcommon) fun _ => .pure (by simp_all)

theorem namespaceAlias_shadows (hattributes : Matches attributes attributes')
    (hid : Matches id id') :
    Shadows P .wide Matches (r.namespaceAlias attributes context m id)
      (r'.namespaceAlias attributes' context m' id') := by
  refine .matched (h.expr_shadows (Or.inr (Or.inl rfl))) fun e e' he => ?_
  refine .seq (endStatement_shadows h.layered) fun ended => ?_
  refine .seq (checkContext_shadows _ _ _) fun _ => ?_
  rw [Matches.modifiers hattributes]
  exact .seq (restrictModifiers_shadows _ _ _ _) fun _ =>
    finished_shadows m m' fun span span' => by simp_all

theorem namespaceDefinition_shadows (hattributes : Matches attributes attributes') :
    Shadows P .wide Matches (r.namespaceDefinition attributes context m)
      (r'.namespaceDefinition attributes' context m') := by
  refine .matched identifier_shadows fun id id' hid => ?_
  refine .seq (consume_shadows (by decide) (Or.inl rfl)) fun aliased => ?_
  refine .ite (h.namespaceAlias_shadows context m m' hattributes hid) ?_
  refine .matched (h.block .wide _) fun block block' hblock => ?_
  refine .seq (checkContext_shadows _ _ _) fun _ => ?_
  rw [Matches.modifiers hattributes]
  exact .seq (restrictModifiers_shadows _ _ _ _) fun _ =>
    finished_shadows m m' fun span span' => by simp_all

omit h in
theorem heritage_iff {heritage heritage' : Heritage} : Matches heritage heritage' ↔
    Matches heritage.extended heritage'.extended ∧
      Matches heritage.implemented heritage'.implemented ∧
        Matches heritage.generics heritage'.generics := by simp

omit h in
theorem isEmpty_of_matches {α : Type} [Bare α] {items items' : List α}
    (hitems : Matches items items') : items.isEmpty = items'.isEmpty := by
  cases items <;> cases items' <;> simp_all

theorem classHeritage_shadows : ∀ {fuel fuel' : Nat}, fuel ≤ fuel' →
    ∀ {heritage heritage' : Heritage}, Matches heritage heritage' →
      Shadows P .wide Matches (r.classHeritage fuel heritage) (r'.classHeritage fuel' heritage')
  | 0, _, _, _, _, _ => exhausted_shadows
  | fuel + 1, fuel' + 1, hle, heritage, heritage', hheritage => by
    have hsub := Nat.le_of_succ_le_succ hle
    obtain ⟨hextended, himplemented, hgenerics⟩ := heritage_iff.mp hheritage
    refine .seq (consumeKeyword_shadows _) fun extending => .ite ?_ ?_
    · refine .matched (h.typeExpr .wide) fun type type' htype => ?_
      exact .optional (by rw [isEmpty_of_matches hextended]) (syntaxError_shadows _ _ _)
        (classHeritage_shadows hsub (by simp_all))
    refine .seq (consumeKeyword_shadows _) fun implementing => .ite ?_ ?_
    · exact .matched (separated_shadows (Or.inl rfl) (h.typeExpr .wide) h.rounds_le)
        fun types types' htypes => classHeritage_shadows hsub (by simp_all)
    refine .matched (h.boundsClause?_shadows hgenerics) fun found found' hfound => ?_
    cases found <;> cases found' <;> simp at hfound
    · exact .pure hheritage
    · exact classHeritage_shadows hsub (by simp_all)

theorem interfaceHeritage_shadows : ∀ {fuel fuel' : Nat}, fuel ≤ fuel' →
    ∀ {heritage heritage' : Heritage}, Matches heritage heritage' →
      Shadows P .wide Matches (r.interfaceHeritage fuel heritage)
        (r'.interfaceHeritage fuel' heritage')
  | 0, _, _, _, _, _ => exhausted_shadows
  | fuel + 1, fuel' + 1, hle, heritage, heritage', hheritage => by
    have hsub := Nat.le_of_succ_le_succ hle
    obtain ⟨hextended, himplemented, hgenerics⟩ := heritage_iff.mp hheritage
    refine .seq (consumeKeyword_shadows _) fun extending => .ite ?_ ?_
    · exact .matched (separated_shadows (Or.inl rfl) (h.typeExpr .wide) h.rounds_le)
        fun types types' htypes => interfaceHeritage_shadows hsub (by simp_all)
    refine .matched (h.boundsClause?_shadows hgenerics) fun found found' hfound => ?_
    cases found <;> cases found' <;> simp at hfound
    · exact .pure hheritage
    · exact interfaceHeritage_shadows hsub (by simp_all)

theorem classDefinition_shadows (hattributes : Matches attributes attributes') :
    Shadows P .wide Matches (r.classDefinition attributes context m)
      (r'.classDefinition attributes' context m') := by
  have hvalue := Matches.takeDecorator "Value" hattributes
  unfold classDefinition
  generalize takeDecorator "Value" attributes = valued at hvalue
  generalize takeDecorator "Value" attributes' = valued' at hvalue
  obtain ⟨⟨namedValue, attributes⟩, ⟨namedValue', attributes'⟩⟩ := valued, valued'
  obtain ⟨rfl, hattributes⟩ : namedValue = namedValue' ∧ Matches attributes attributes' := by
    simpa using hvalue
  have halgebraic := Matches.takeDecorator "Algebraic" hattributes
  dsimp only
  generalize takeDecorator "Algebraic" attributes = algebraic at halgebraic
  generalize takeDecorator "Algebraic" attributes' = algebraic' at halgebraic
  obtain ⟨⟨isAlgebraic, attributes⟩, ⟨isAlgebraic', attributes'⟩⟩ := algebraic, algebraic'
  obtain ⟨rfl, hattributes⟩ : isAlgebraic = isAlgebraic' ∧ Matches attributes attributes' := by
    simpa using halgebraic
  refine .matched identifier_shadows fun id id' hid => ?_
  refine .matched h.optGenerics_shadows fun generics generics' hgenerics => ?_
  refine .matched (h.classHeritage_shadows h.rounds_le (by simp_all))
    fun heritage heritage' hheritage => ?_
  obtain ⟨hextended, himplemented, hgenerics⟩ := heritage_iff.mp hheritage
  rw [Matches.name_eq hid]
  refine .matched (h.block .wide _) fun block block' hblock => ?_
  refine .seq (checkContext_shadows _ _ _) fun _ => ?_
  refine .optional (by rw [isEmpty_of_matches hextended]) (verifyError_shadows _ _ _) ?_
  refine .optional (by rw [isEmpty_of_matches himplemented]) (verifyError_shadows _ _ _) ?_
  rw [Matches.modifiers hattributes]
  refine .seq (restrictModifiers_shadows _ _ _ _) fun _ =>
    finished_shadows m m' fun span span' => ?_
  have hfirst : heritage.extended.head?.map TypeExpr.bare =
      heritage'.extended.head?.map TypeExpr.bare := by
    rw [← List.head?_map, ← List.head?_map]
    exact congrArg List.head? hextended
  simp_all

theorem interfaceDefinition_shadows (hattributes : Matches attributes attributes') :
    Shadows P .wide Matches (r.interfaceDefinition attributes context m)
      (r'.interfaceDefinition attributes' context m') := by
  refine .matched identifier_shadows fun id id' hid => ?_
  refine .matched h.optGenerics_shadows fun generics generics' hgenerics => ?_
  refine .matched (h.interfaceHeritage_shadows h.rounds_le (by simp_all))
    fun heritage heritage' hheritage => ?_
  refine .matched (h.block .wide _) fun block block' hblock => ?_
  refine .seq (checkContext_shadows _ _ _) fun _ => ?_
  rw [Matches.modifiers hattributes]
  exact .seq (restrictModifiers_shadows _ _ _ _) fun _ =>
    finished_shadows m m' fun span span' => by simp_all

theorem enumDefinition_shadows (hattributes : Matches attributes attributes') :
    Shadows P .wide Matches (r.enumDefinition attributes context m)
      (r'.enumDefinition attributes' context m') := by
  have hflags := Matches.takeDecorator "Flags" hattributes
  unfold enumDefinition
  generalize takeDecorator "Flags" attributes = flags at hflags
  generalize takeDecorator "Flags" attributes' = flags' at hflags
  obtain ⟨⟨isFlags, attributes⟩, ⟨isFlags', attributes'⟩⟩ := flags, flags'
  obtain ⟨rfl, hattributes⟩ : isFlags = isFlags' ∧ Matches attributes attributes' := by
    simpa using hflags
  refine .matched identifier_shadows fun id id' hid => ?_
  refine .matched h.optAnnotation_shadows fun numericType numericType' hnumeric => ?_
  refine .matched (h.block .wide _) fun block block' hblock => ?_
  refine .seq (checkContext_shadows _ _ _) fun _ => ?_
  rw [Matches.modifiers hattributes]
  exact .seq (restrictModifiers_shadows _ _ _ _) fun _ =>
    finished_shadows m m' fun span span' => by simp_all

theorem boundsClauses_shadows : ∀ {fuel fuel' : Nat}, fuel ≤ fuel' →
    ∀ {generics generics' : Option Generics}, Matches generics generics' →
      Shadows P .wide Matches (r.boundsClauses fuel generics) (r'.boundsClauses fuel' generics')
  | 0, _, _, _, _, _ => exhausted_shadows
  | fuel + 1, fuel' + 1, hle, generics, generics', hgenerics => by
    refine .matched (h.boundsClause?_shadows hgenerics) fun found found' hfound => ?_
    cases found <;> cases found' <;> simp at hfound
    · exact .pure hgenerics
    · exact boundsClauses_shadows (Nat.le_of_succ_le_succ hle) (by simpa using hfound)

theorem typeDefinition_shadows (hattributes : Matches attributes attributes') :
    Shadows P .wide Matches (r.typeDefinition attributes context m)
      (r'.typeDefinition attributes' context m') := by
  refine .matched identifier_shadows fun id id' hid => ?_
  refine .matched h.optGenerics_shadows fun first first' hfirst => ?_
  refine .matched (h.boundsClauses_shadows h.rounds_le hfirst) fun generics generics' hgenerics => ?_
  refine .seq (expect_shadows (by decide)) fun _ => ?_
  refine .matched (h.typeExpr .wide) fun type type' htype => ?_
  refine .seq (endStatement_shadows h.layered) fun ended => ?_
  refine .seq (checkContext_shadows _ _ _) fun _ => ?_
  rw [Matches.modifiers hattributes]
  exact .seq (restrictModifiers_shadows _ _ _ _) fun _ =>
    finished_shadows m m' fun span span' => by simp_all

theorem definition_shadows (hattributes : Matches attributes attributes') :
    Shadows P .wide Matches (r.definition attributes context m)
      (r'.definition attributes' context m') := by
  refine previous_shadows fun word word' hword => ?_
  simp only [hword.isKeyword, hword.isContextKeyword]
  refine .ite (h.variableDefinition_shadows context m m' false hattributes) ?_
  refine .ite (h.variableDefinition_shadows context m m' true hattributes) ?_
  refine .ite (h.functionDefinition_shadows context m m' hattributes) ?_
  refine .ite (h.namespaceDefinition_shadows context m m' hattributes) ?_
  refine .ite (h.classDefinition_shadows context m m' hattributes) ?_
  refine .ite (h.interfaceDefinition_shadows context m m' hattributes) ?_
  refine .ite (h.enumDefinition_shadows context m m' hattributes) ?_
  exact .ite (h.typeDefinition_shadows context m m' hattributes) unexpected_shadows

theorem modifiedDefinition_shadows (hattributes : Matches attributes attributes') :
    Shadows P .wide Matches (r.modifiedDefinition attributes context m)
      (r'.modifiedDefinition attributes' context m') := by
  refine .matched (definitionAttributes_shadows h.layered h.rounds_le hattributes)
    fun attributes attributes' hattributes => ?_
  refine token_shadows fun t t' htoken => ?_
  exact .optional (by rw [htoken.like.isStrictDefinition, htoken.like.isSoftDefinition])
    next_shadows (h.definition_shadows context m m' hattributes)

end Definitions

end RulesShadow

end ActionSyntax
