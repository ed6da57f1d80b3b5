import ActionSyntax.Proofs.Respacing.Expressions
import ActionSyntax.Proofs.Shadows.Definitions

/-!
How definitions are read where a gap is exchanged.
-/

namespace ActionSyntax

set_option autoImplicit false

open Parse Rules

namespace Token.Twin

variable {t u : Token} (h : t.Twin u)
include h

theorem isSoftDefinition : Words.isSoftDefinition t = Words.isSoftDefinition u := by
  unfold Words.isSoftDefinition
  rw [h.isContextKeyword, h.isContextKeyword, h.isContextKeyword]

theorem isStrictDefinition : Words.isStrictDefinition t = Words.isStrictDefinition u := by
  unfold Words.isStrictDefinition
  rw [h.kind, h.text]

theorem modifier? : Words.modifier? t = Words.modifier? u := by
  unfold Words.modifier?
  rw [h.kind, h.text, h.length]

theorem access? : Words.access? t = Words.access? u := by
  unfold Words.access?
  rw [h.kind, h.text]

theorem beginsDefinition : Words.beginsDefinition t = Words.beginsDefinition u := by
  unfold Words.beginsDefinition
  rw [h.isStrictDefinition, h.access?]

theorem beginsDecorated : Words.beginsDecorated t = Words.beginsDecorated u := by
  unfold Words.beginsDecorated
  rw [h.beginsDefinition, h.isSoftDefinition, h.modifier?]

end Token.Twin

namespace RulesRespace

variable {F : Fork} {r : Rules}

section Checks

theorem restrictModifiers_respaces (span span' : Span) (actual : Modifiers)
    (restricted : List Modifier) :
    Respaces F Eq (restrictModifiers span actual restricted)
      (restrictModifiers span' actual restricted) := by
  unfold restrictModifiers
  induction actual.toList.filter restricted.contains with
  | nil => exact .pure rfl
  | cons m rest ih =>
    exact .seq (report_respaces _ _ _ _ _) fun _ => ih

theorem checkContext_respaces (allowed : Bool) (span span' : Span) :
    Respaces F Eq (checkContext allowed span) (checkContext allowed span') :=
  .ite (verifyError_respaces _ _ _) (.pure rfl)

variable {attributes attributes' : Attributes} {common common' : FunctionCommon}
  {id id' : Identifier} (context : Context)

theorem checkBody_respaces (hattributes : Matches attributes attributes')
    (hcommon : Matches common common') :
    Respaces F Eq (checkBody attributes common id) (checkBody attributes' common' id') := by
  have hbody : common.body.isNone = common'.body.isNone := by
    rw [← Option.not_isSome, ← Option.not_isSome, Matches.hasBody hcommon]
  refine .ite_iff (by rw [Matches.modifiers hattributes]) ?_ ?_
  · exact .ite_iff (by rw [Matches.hasBody hcommon]) (syntaxError_respaces _ _ _) (.pure rfl)
  · exact .ite_iff (by rw [hbody]) (syntaxError_respaces _ _ _) (.pure rfl)

theorem checkMethod_respaces (hattributes : Matches attributes attributes')
    (hcommon : Matches common common') :
    Respaces F Eq (checkMethod attributes context common id)
      (checkMethod attributes' context common' id') :=
  .ite (.ite_iff (by rw [Matches.isSubstantial hattributes]) (syntaxError_respaces _ _ _) (.pure rfl))
    (checkBody_respaces hattributes hcommon)

theorem checkUses_respaces (mayYield : Bool) (hcommon : Matches common common') :
    Respaces F Eq (checkUses common id mayYield) (checkUses common' id' mayYield) := by
  obtain ⟨hawait, hyield⟩ := Matches.uses hcommon
  refine .ite_iff (by rw [hawait]) (syntaxError_respaces _ _ _) ?_
  exact .ite_iff (by rw [hyield]) (syntaxError_respaces _ _ _) (.pure rfl)

theorem checkProxy_respaces (op : Operator) (hattributes : Matches attributes attributes')
    (hcommon : Matches common common') :
    Respaces F Eq (checkProxy attributes context common id op)
      (checkProxy attributes' context common' id' op) := by
  have rest : Respaces F Eq
      (do
        checkUses common id (op == .iterateKeys || op == .iterateValues)
        restrictModifiers id.span attributes.modifiers [.final, .override, .static]
        if !hasProxyParameters op common then verifyError .proxyHasWrongNumParams id.span)
      (do
        checkUses common' id' (op == .iterateKeys || op == .iterateValues)
        restrictModifiers id'.span attributes'.modifiers [.final, .override, .static]
        if !hasProxyParameters op common' then verifyError .proxyHasWrongNumParams id'.span) := by
    refine .seq (checkUses_respaces _ hcommon) fun _ => ?_
    rw [Matches.modifiers hattributes]
    refine .seq (restrictModifiers_respaces _ _ _ _) fun _ => ?_
    exact .ite_iff (by rw [Matches.hasProxyParameters op hcommon]) (verifyError_respaces _ _ _)
      (.pure rfl)
  exact .ite (.seq (checkBody_respaces hattributes hcommon) fun _ => rest)
    (.seq (checkContext_respaces _ _ _) fun _ => rest)

end Checks

theorem definitionAttributes_respaces : ∀ (fuel : Nat) {attributes attributes' : Attributes},
    Matches attributes attributes' → Respaces F Matches (definitionAttributes fuel attributes)
      (definitionAttributes fuel attributes')
  | 0, _, _, _ => exhausted_respaces
  | fuel + 1, attributes, attributes', hattributes => by
    obtain ⟨hdecorators, hmodifiers, haccess⟩ := Matches.attributes_iff.mp hattributes
    refine get_respaces (fun s s' hview => ?_) fun s t hlike => ?_
    · have htoken : s.token = s'.token := congrArg View.token hview
      have hline : s.onSameLine = s'.onSameLine := (hview ▸ View.Like.refl _ : s.view.Like s'.view).onSameLine
      rw [htoken, hline]
    have htoken : s.token.Twin t.token := hlike.token
    have hline : s.onSameLine = t.onSameLine := hlike.onSameLine
    refine .optional (by rw [hmodifiers, haccess, hline]) (syntaxError_respaces _ _ _) ?_
    rw [htoken.modifier?, htoken.access?]
    split
    · exact .seq next_respaces fun _ => definitionAttributes_respaces fuel
        (Matches.attributes_iff.mpr ⟨hdecorators, by simp only [hmodifiers], haccess⟩)
    · exact .seq next_respaces fun _ => definitionAttributes_respaces fuel
        (Matches.attributes_iff.mpr ⟨hdecorators, hmodifiers, rfl⟩)
    · exact .pure hattributes

variable (h : RulesRespace F r)
include h

section Definitions

theorem definedBinding_respaces (isVariant : Bool) :
    Respaces F Matches (r.definedBinding isVariant) (r.definedBinding isVariant) := by
  refine .matched (h.variableBinding_respaces true) fun binding binding' hbinding => ?_
  have hpattern : Matches binding.pattern binding'.pattern := by
    obtain ⟨span, pattern, init⟩ := binding
    obtain ⟨span', pattern', init'⟩ := binding'
    simp_all
  exact .optional (by rw [Matches.isPlainName hpattern]) (verifyError_respaces _ _ _) (.pure hbinding)

variable {attributes attributes' : Attributes} {id id' : Identifier} (context : Context)
  (m m' : Mark)

theorem variableDefinition_respaces (readOnly : Bool) (hattributes : Matches attributes attributes') :
    Respaces F Matches (r.variableDefinition attributes context m readOnly)
      (r.variableDefinition attributes' context m' readOnly) := by
  have hmodifiers := Matches.modifiers hattributes
  unfold variableDefinition enumVariant
  rw [hmodifiers]
  refine .matched (separated_respaces (h.definedBinding_respaces _) _)
    fun bindings bindings' hbindings => ?_
  refine .seq endStatement_respaces fun ended => ?_
  refine finish_respaces m m' fun span span' => ?_
  have rest : ∀ _ : Unit, Respaces F Matches
      (do
        restrictModifiers span attributes'.modifiers [.final, .native, .override, .proxy]
        return (Statement.variableDef span attributes readOnly bindings, ended))
      (do
        restrictModifiers span' attributes'.modifiers [.final, .native, .override, .proxy]
        return (Statement.variableDef span' attributes' readOnly bindings', ended)) := fun _ =>
    .seq (restrictModifiers_respaces _ _ _ _) fun _ => .pure (by simp_all)
  exact .ite (.seq (verifyError_respaces _ _ _) rest) (.seq (checkContext_respaces _ _ _) rest)

/-- What is said about a function once its parts have been read. -/
theorem functionRest_respaces {generics generics' : Option Generics} {role : FunctionRole}
    {f f' : FunctionParts → Span → Parse Ended} (hgenerics : Matches generics generics')
    (hf : ∀ parts parts', Matches parts.common parts'.common →
      Matches parts.generics parts'.generics → parts.ended = parts'.ended → ∀ span span',
        Respaces F Matches (f parts span) (f' parts' span')) :
    Respaces F Matches
      (r.functionParts generics role >>= fun parts => finish m >>= f parts)
      (r.functionParts generics' role >>= fun parts => finish m' >>= f' parts) := by
  refine .matched (h.functionParts_respaces role hgenerics)
    fun ⟨common, generics, ended⟩ ⟨common', generics', ended'⟩ hparts => ?_
  obtain ⟨hcommon, hgenerics, hended⟩ :
      Matches common common' ∧ Matches generics generics' ∧ ended = ended' := by simpa using hparts
  exact finish_respaces m m' (hf _ _ hcommon hgenerics hended)

theorem constructorDefinition_respaces (hattributes : Matches attributes attributes')
    (hid : Matches id id') :
    Respaces F Matches (r.constructorDefinition attributes m id)
      (r.constructorDefinition attributes' m' id') := by
  refine h.functionRest_respaces m m' rfl fun parts parts' hcommon _ hended span span' => ?_
  refine .seq (checkBody_respaces hattributes hcommon) fun _ => ?_
  refine .seq (checkUses_respaces _ hcommon) fun _ => ?_
  rw [Matches.modifiers hattributes]
  exact .seq (restrictModifiers_respaces _ _ _ _) fun _ => .pure (by simp_all)

theorem accessorDefinition_respaces (isGetter : Bool) (hattributes : Matches attributes attributes')
    (hid : Matches id id') :
    Respaces F Matches (r.accessorDefinition attributes context m id isGetter)
      (r.accessorDefinition attributes' context m' id' isGetter) := by
  refine h.functionRest_respaces m m' rfl fun parts parts' hcommon _ hended span span' => ?_
  refine .seq (checkMethod_respaces context hattributes hcommon) fun _ => ?_
  refine .seq (checkUses_respaces _ hcommon) fun _ => .pure ?_
  cases isGetter <;> simp_all

theorem proxyDefinition_respaces (hattributes : Matches attributes attributes')
    (hid : Matches id id') :
    Respaces F Matches (r.proxyDefinition attributes context m id)
      (r.proxyDefinition attributes' context m' id') := by
  refine h.functionRest_respaces m m' rfl fun parts parts' hcommon _ hended span span' => ?_
  rw [Matches.name_eq hid]
  cases Words.proxyOperator? id'.name with
  | some op =>
    exact .seq (checkProxy_respaces context op hattributes hcommon) fun _ => .pure (by simp_all)
  | none => exact .seq (report_respaces _ _ _ _ _) fun _ => .pure (by simp_all)

theorem functionDefinition_respaces (hattributes : Matches attributes attributes') :
    Respaces F Matches (r.functionDefinition attributes context m)
      (r.functionDefinition attributes' context m') := by
  refine .matched identifier_respaces fun id id' hid => ?_
  refine previous_respaces fun word word' hword => ?_
  simp only [hword.isContextKeyword]
  refine .seq (at?_respaces _) fun named => ?_
  refine .ite ?_ ?_
  · exact .matched identifier_respaces fun id id' hid =>
      h.accessorDefinition_respaces context m m' _ hattributes hid
  rw [Matches.name_eq hid]
  refine .ite (h.constructorDefinition_respaces m m' hattributes hid) ?_
  rw [Matches.modifiers hattributes]
  refine .ite (h.proxyDefinition_respaces context m m' hattributes hid) ?_
  refine .matched optGenerics_respaces fun generics generics' hgenerics => ?_
  refine h.functionRest_respaces m m' hgenerics
    fun parts parts' hcommon hgenerics hended span span' => ?_
  exact .seq (checkMethod_respaces context hattributes hcommon) fun _ => .pure (by simp_all)

theorem namespaceAlias_respaces (hattributes : Matches attributes attributes')
    (hid : Matches id id') :
    Respaces F Matches (r.namespaceAlias attributes context m id)
      (r.namespaceAlias attributes' context m' id') := by
  refine .matched (h.expr_respaces _) fun e e' he => ?_
  refine .seq endStatement_respaces fun ended => ?_
  refine .seq (checkContext_respaces _ _ _) fun _ => ?_
  rw [Matches.modifiers hattributes]
  exact .seq (restrictModifiers_respaces _ _ _ _) fun _ =>
    finished_respaces m m' fun span span' => by simp_all

theorem namespaceDefinition_respaces (hattributes : Matches attributes attributes') :
    Respaces F Matches (r.namespaceDefinition attributes context m)
      (r.namespaceDefinition attributes' context m') := by
  refine .matched identifier_respaces fun id id' hid => ?_
  refine .seq (consume_respaces _) fun aliased => ?_
  refine .ite (h.namespaceAlias_respaces context m m' hattributes hid) ?_
  refine .matched (h.block _) fun block block' hblock => ?_
  refine .seq (checkContext_respaces _ _ _) fun _ => ?_
  rw [Matches.modifiers hattributes]
  exact .seq (restrictModifiers_respaces _ _ _ _) fun _ =>
    finished_respaces m m' fun span span' => by simp_all

theorem classHeritage_respaces : ∀ (fuel : Nat) {heritage heritage' : Heritage}, Matches heritage heritage' →
    Respaces F Matches (r.classHeritage fuel heritage) (r.classHeritage fuel heritage')
  | 0, _, _, _ => exhausted_respaces
  | fuel + 1, heritage, heritage', hheritage => by
    obtain ⟨hextended, himplemented, hgenerics⟩ := RulesShadow.heritage_iff.mp hheritage
    refine .seq (consumeKeyword_respaces _) fun extending => .ite ?_ ?_
    · refine .matched h.typeExpr fun type type' htype => ?_
      exact .optional (by rw [RulesShadow.isEmpty_of_matches hextended]) (syntaxError_respaces _ _ _)
        (classHeritage_respaces fuel (by simp_all))
    refine .seq (consumeKeyword_respaces _) fun implementing => .ite ?_ ?_
    · exact .matched (separated_respaces h.typeExpr _)
        fun types types' htypes => classHeritage_respaces fuel (by simp_all)
    refine .matched (h.boundsClause?_respaces hgenerics) fun found found' hfound => ?_
    cases found <;> cases found' <;> simp at hfound
    · exact .pure hheritage
    · exact classHeritage_respaces fuel (by simp_all)

theorem interfaceHeritage_respaces : ∀ (fuel : Nat) {heritage heritage' : Heritage}, Matches heritage heritage' →
    Respaces F Matches (r.interfaceHeritage fuel heritage) (r.interfaceHeritage fuel heritage')
  | 0, _, _, _ => exhausted_respaces
  | fuel + 1, heritage, heritage', hheritage => by
    obtain ⟨hextended, himplemented, hgenerics⟩ := RulesShadow.heritage_iff.mp hheritage
    refine .seq (consumeKeyword_respaces _) fun extending => .ite ?_ ?_
    · exact .matched (separated_respaces h.typeExpr _)
        fun types types' htypes => interfaceHeritage_respaces fuel (by simp_all)
    refine .matched (h.boundsClause?_respaces hgenerics) fun found found' hfound => ?_
    cases found <;> cases found' <;> simp at hfound
    · exact .pure hheritage
    · exact interfaceHeritage_respaces fuel (by simp_all)

theorem classDefinition_respaces (hattributes : Matches attributes attributes') :
    Respaces F Matches (r.classDefinition attributes context m)
      (r.classDefinition attributes' context m') := by
  have hvalue := Matches.takeDecorator "Value" hattributes
  unfold classDefinition
  generalize takeDecorator "Value" attributes = valued at hvalue
  generalize takeDecorator "Value" attributes' = valued' at hvalue
  obtain ⟨⟨namedValue, attributes⟩, ⟨namedValue', attributes'⟩⟩ := valued, valued'
  obtain ⟨rfl, hattributes⟩ : namedValue = namedValue' ∧ Matches attributes attributes' := by
    simpa using hvalue
  have halgebraic := Matches.takeDecorator "Algebraic" hattributes
  dsimp only
  generalize takeDecorator "Algebraic" attributes = algebraic at halgebraic
  generalize takeDecorator "Algebraic" attributes' = algebraic' at halgebraic
  obtain ⟨⟨isAlgebraic, attributes⟩, ⟨isAlgebraic', attributes'⟩⟩ := algebraic, algebraic'
  obtain ⟨rfl, hattributes⟩ : isAlgebraic = isAlgebraic' ∧ Matches attributes attributes' := by
    simpa using halgebraic
  refine .matched identifier_respaces fun id id' hid => ?_
  refine .matched optGenerics_respaces fun generics generics' hgenerics => ?_
  refine .matched (h.classHeritage_respaces _ (by simp_all))
    fun heritage heritage' hheritage => ?_
  obtain ⟨hextended, himplemented, hgenerics⟩ := RulesShadow.heritage_iff.mp hheritage
  rw [Matches.name_eq hid]
  refine .matched (h.block _) fun block block' hblock => ?_
  refine .seq (checkContext_respaces _ _ _) fun _ => ?_
  refine .optional (by rw [RulesShadow.isEmpty_of_matches hextended]) (verifyError_respaces _ _ _) ?_
  refine .optional (by rw [RulesShadow.isEmpty_of_matches himplemented]) (verifyError_respaces _ _ _) ?_
  rw [Matches.modifiers hattributes]
  refine .seq (restrictModifiers_respaces _ _ _ _) fun _ =>
    finished_respaces m m' fun span span' => ?_
  have hfirst : heritage.extended.head?.map TypeExpr.bare =
      heritage'.extended.head?.map TypeExpr.bare := by
    rw [← List.head?_map, ← List.head?_map]
    exact congrArg List.head? hextended
  simp_all

theorem interfaceDefinition_respaces (hattributes : Matches attributes attributes') :
    Respaces F Matches (r.interfaceDefinition attributes context m)
      (r.interfaceDefinition attributes' context m') := by
  refine .matched identifier_respaces fun id id' hid => ?_
  refine .matched optGenerics_respaces fun generics generics' hgenerics => ?_
  refine .matched (h.interfaceHeritage_respaces _ (by simp_all))
    fun heritage heritage' hheritage => ?_
  refine .matched (h.block _) fun block block' hblock => ?_
  refine .seq (checkContext_respaces _ _ _) fun _ => ?_
  rw [Matches.modifiers hattributes]
  exact .seq (restrictModifiers_respaces _ _ _ _) fun _ =>
    finished_respaces m m' fun span span' => by simp_all

theorem enumDefinition_respaces (hattributes : Matches attributes attributes') :
    Respaces F Matches (r.enumDefinition attributes context m)
      (r.enumDefinition attributes' context m') := by
  have hflags := Matches.takeDecorator "Flags" hattributes
  unfold enumDefinition
  generalize takeDecorator "Flags" attributes = flags at hflags
  generalize takeDecorator "Flags" attributes' = flags' at hflags
  obtain ⟨⟨isFlags, attributes⟩, ⟨isFlags', attributes'⟩⟩ := flags, flags'
  obtain ⟨rfl, hattributes⟩ : isFlags = isFlags' ∧ Matches attributes attributes' := by
    simpa using hflags
  refine .matched identifier_respaces fun id id' hid => ?_
  refine .matched h.optAnnotation_respaces fun numericType numericType' hnumeric => ?_
  refine .matched (h.block _) fun block block' hblock => ?_
  refine .seq (checkContext_respaces _ _ _) fun _ => ?_
  rw [Matches.modifiers hattributes]
  exact .seq (restrictModifiers_respaces _ _ _ _) fun _ =>
    finished_respaces m m' fun span span' => by simp_all

theorem boundsClauses_respaces : ∀ (fuel : Nat) {generics generics' : Option Generics}, Matches generics generics' →
    Respaces F Matches (r.boundsClauses fuel generics) (r.boundsClauses fuel generics')
  | 0, _, _, _ => exhausted_respaces
  | fuel + 1, generics, generics', hgenerics => by
    refine .matched (h.boundsClause?_respaces hgenerics) fun found found' hfound => ?_
    cases found <;> cases found' <;> simp at hfound
    · exact .pure hgenerics
    · exact boundsClauses_respaces fuel (by simpa using hfound)

theorem typeDefinition_respaces (hattributes : Matches attributes attributes') :
    Respaces F Matches (r.typeDefinition attributes context m)
      (r.typeDefinition attributes' context m') := by
  refine .matched identifier_respaces fun id id' hid => ?_
  refine .matched optGenerics_respaces fun first first' hfirst => ?_
  refine .matched (h.boundsClauses_respaces _ hfirst) fun generics generics' hgenerics => ?_
  refine .seq (expect_respaces _) fun _ => ?_
  refine .matched h.typeExpr fun type type' htype => ?_
  refine .seq endStatement_respaces fun ended => ?_
  refine .seq (checkContext_respaces _ _ _) fun _ => ?_
  rw [Matches.modifiers hattributes]
  exact .seq (restrictModifiers_respaces _ _ _ _) fun _ =>
    finished_respaces m m' fun span span' => by simp_all

theorem definition_respaces (hattributes : Matches attributes attributes') :
    Respaces F Matches (r.definition attributes context m)
      (r.definition attributes' context m') := by
  refine previous_respaces fun word word' hword => ?_
  simp only [hword.isKeyword, hword.isContextKeyword]
  refine .ite (h.variableDefinition_respaces context m m' false hattributes) ?_
  refine .ite (h.variableDefinition_respaces context m m' true hattributes) ?_
  refine .ite (h.functionDefinition_respaces context m m' hattributes) ?_
  refine .ite (h.namespaceDefinition_respaces context m m' hattributes) ?_
  refine .ite (h.classDefinition_respaces context m m' hattributes) ?_
  refine .ite (h.interfaceDefinition_respaces context m m' hattributes) ?_
  refine .ite (h.enumDefinition_respaces context m m' hattributes) ?_
  exact .ite (h.typeDefinition_respaces context m m' hattributes) unexpected_respaces

theorem modifiedDefinition_respaces (hattributes : Matches attributes attributes') :
    Respaces F Matches (r.modifiedDefinition attributes context m)
      (r.modifiedDefinition attributes' context m') := by
  refine .matched (definitionAttributes_respaces _ hattributes)
    fun attributes attributes' hattributes => ?_
  refine token_respaces fun t t' htoken => ?_
  exact .optional (by rw [htoken.isStrictDefinition, htoken.isSoftDefinition])
    next_respaces (h.definition_respaces context m m' hattributes)

end Definitions

end RulesRespace

end ActionSyntax

