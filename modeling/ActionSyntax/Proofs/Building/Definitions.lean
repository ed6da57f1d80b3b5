import ActionSyntax.Proofs.Building.Expressions
import ActionSyntax.Proofs.Reads.Statements

/-!
What is built of definitions, and what has been checked of them: where they stand, their modifiers, and
the bodies and the uses of their functions.
-/

namespace ActionSyntax

set_option autoImplicit false

open Parse Setting Setting.Sound Rules

variable {lossy : Prop} {k : Bool} {s t u : ParserState}

section Modifiers

theorem Modifiers.eq_empty {m : Modifiers} (h : m.isEmpty = true) : m = {} := by
  have hall : ∀ modifier, m.contains modifier = false := by
    intro modifier
    rw [← Bool.not_eq_true, ← Modifiers.mem_toList]
    simp [List.isEmpty_iff.mp h]
  have hfields := And.intro (hall .final) (And.intro (hall .native)
    (And.intro (hall .override) (And.intro (hall .proxy) (hall .static))))
  cases m
  simpa [Modifiers.contains] using hfields

theorem Attributes.bare_of {a : Attributes} (h : a.isSubstantial = false) : a.Bare := by
  simp only [Attributes.isSubstantial, Bool.or_eq_false_iff, Bool.not_eq_false'] at h
  obtain ⟨⟨hmodifiers, haccess⟩, hdecorators⟩ := h
  refine ⟨Modifiers.eq_empty hmodifiers, by simpa using haccess, ?_⟩
  cases hd : a.decorators with
  | none => rfl
  | some decorators => simpa [hd] using hdecorators

/-- Nothing in front of the parameters of a constructor depends on where they stand. -/
theorem Attributes.named_inert (a : Attributes) {id : Identifier} :
    ∀ p ∈ a.pieces ++ [.identifier id], p.isInert = true := by
  intro p hp
  rcases List.mem_append.mp hp with hp | hp
  · obtain ⟨e, -, rfl⟩ := List.mem_map.mp hp
    rfl
  · obtain rfl := List.mem_singleton.mp hp
    rfl

end Modifiers

section Checks

theorem Parse.reports_ok {β : Type} {id : ProblemId} {severity : Severity} {span : Span}
    {arguments : β → List (String × Argument)} (aside : id.isAside = true)
    (error : severity ≠ .warning) {items : List β}
    (h : (items.forM fun m => report severity id span (arguments m)) s = .ok () t) :
    Checked lossy (items = []) s t := by
  induction items generalizing s with
  | nil =>
    cases h
    exact .refl rfl _
  | cons m items ih =>
    obtain ⟨_, u, hu, h⟩ := bind_ok h
    exact ((report_checked (q := False) aside hu error).trans (ih h)).imp fun hno => hno.1.elim

namespace Rules

theorem restrictModifiers_ok {span : Span} {a : Attributes} {restricted : List Modifier}
    (h : restrictModifiers span a.modifiers restricted s = .ok () t) :
    Checked lossy (a.Lacks restricted) s t := by
  refine (reports_ok rfl (by decide) h).imp fun hnone m hm => ?_
  rw [List.filter_eq_nil_iff] at hnone
  rw [← Bool.not_eq_true, ← Modifiers.mem_toList]
  exact fun hmem => hnone m hmem (List.contains_iff_mem.mpr hm)

theorem checkContext_ok {allowed : Bool} {span : Span}
    (h : checkContext allowed span s = .ok () t) : Checked lossy (allowed = true) s t :=
  (reportIf_ok rfl h (by decide)).imp (by simp)

theorem checkBody_ok {a : Attributes} {f : FunctionCommon} {id : Identifier}
    (h : checkBody a f id s = .ok () t) : Checked lossy (f.Bodied a) s t := by
  unfold checkBody at h
  split at h
  · rename_i hnative
    exact (reportIf_ok rfl h (by decide)).imp fun hno => by simpa [FunctionCommon.Bodied, hnative] using hno
  · rename_i hnative
    exact (reportIf_ok rfl h (by decide)).imp fun hno => by
      simpa [FunctionCommon.Bodied, hnative, Option.isSome_iff_ne_none] using hno

theorem checkMethod_ok {around : Situation} {c : Context} (agrees : around.Agrees c) {a : Attributes}
    {f : FunctionCommon} {id : Identifier} (h : checkMethod a c f id s = .ok () t) :
    Checked lossy (f.MethodIn around a) s t := by
  unfold checkMethod at h
  split at h
  · rename_i hinterface
    refine (reportIf_ok rfl h (by decide)).imp fun hno => ⟨fun _ => Attributes.bare_of (by simpa using hno), ?_⟩
    exact fun hother => (hother (agrees.isInterface.mp hinterface)).elim
  · rename_i hother
    exact (checkBody_ok h).imp fun hbody =>
      ⟨fun hinterface => (hother (agrees.isInterface.mpr hinterface)).elim, fun _ => hbody⟩

theorem checkUses_ok {f : FunctionCommon} {id : Identifier} {mayYield : Bool}
    (h : checkUses f id mayYield s = .ok () t) :
    Checked lossy (f.usesAwait = false ∧ (f.usesYield = true → mayYield = true)) s t := by
  unfold checkUses at h
  split at h
  · exact report_checked rfl h (by decide)
  · rename_i hawait
    exact (reportIf_ok rfl h (by decide)).imp fun hno => by simpa [hawait] using hno

theorem definitionAttributes_ok {fuel : Nat} {a after : Attributes}
    (h : definitionAttributes fuel a s = .ok after t) :
    Builds lossy false s [] t ∧ after.decorators = a.decorators := by
  induction fuel generalizing a s with
  | zero => exact (exhausted_ok h).elim
  | succ fuel ih =>
    unfold definitionAttributes at h
    rw [get_bind] at h
    obtain ⟨u, hu, h⟩ := bind_report lossy rfl h (by decide)
    cases hmodifier : Words.modifier? s.token with
    | some m =>
      rw [hmodifier] at h
      obtain ⟨v, hv, h⟩ := bind_next lossy (hu.token ▸ modifier?_proper hmodifier) h
      obtain ⟨hmore, hsame⟩ := ih h
      exact ⟨(hu.builds.skip (hv.builds.skip hmore)).loose, hsame⟩
    | none =>
      cases haccess : Words.access? s.token with
      | some access =>
        rw [hmodifier, haccess] at h
        obtain ⟨v, hv, h⟩ := bind_next lossy (hu.token ▸ access?_proper haccess) h
        obtain ⟨hmore, hsame⟩ := ih h
        exact ⟨(hu.builds.skip (hv.builds.skip hmore)).loose, hsame⟩
      | none =>
        rw [hmodifier, haccess] at h
        cases h
        exact ⟨hu.builds, rfl⟩

/-- Decorators that are taken out hold nothing of interest. -/
theorem takeDecorator_ok (name : String) (a : Attributes) :
    Reworks a.pieces (takeDecorator name a).2.pieces := by
  unfold Attributes.pieces takeDecorator
  cases a.decorators with
  | none => exact .refl []
  | some decorators => exact .eraseNamed name decorators

end Rules

end Checks

section Heritages

namespace Rules.Heritage

/-- The pieces of the clauses. -/
def pieces (h : Heritage) : List Piece :=
  h.generics.toList.map .generics ++ h.extended.map .type ++ h.implemented.map .type

theorem extending_pieces (h : Heritage) (type : TypeExpr) :
    Reworks (h.pieces ++ [.type type]) ({ h with extended := [type] } : Heritage).pieces := by
  have herase : Reworks (h.extended.map .type) [] := .eraseTypal (by simp [Piece.isTypal])
  have hall := ((Reworks.refl (h.generics.toList.map .generics)).append herase).append
    (Reworks.of_perm (List.perm_append_singleton (Piece.type type) (h.implemented.map .type)))
  simpa [pieces] using hall

/-- A class keeps the type that it extends, the last one that was written. -/
theorem single_pieces (h : Heritage) :
    Reworks h.pieces (h.generics.toList.map .generics ++ h.extended.head?.toList.map .type ++
      h.implemented.map .type) := by
  refine ((Reworks.refl _).append ?_).append (.refl _)
  cases h.extended with
  | nil => exact .refl _
  | cons type rest => exact .cons (.refl _) (.eraseTypal (by simp [Piece.isTypal]))

end Rules.Heritage

theorem Rules.heritageStart_ok {r : Rules} {generics : Option Generics}
    (h : r.optGenerics s = .ok generics t) :
    Builds lossy false s ({ generics } : Heritage).pieces t := by
  simpa [Heritage.pieces] using (optGenerics_ok h : Builds lossy false s _ t)

theorem Rules.heritageBounds_ok {before : Heritage} {generics : Generics}
    (h : Gathers lossy true s (before.generics.toList.map .generics) [.generics generics] t) :
    Gathers lossy true s before.pieces
      ({ before with generics := some generics } : Heritage).pieces t := by
  simpa [Heritage.pieces] using h.beside (before.extended.map .type ++ before.implemented.map .type)

end Heritages

/-- Words that introduce a definition are no end of the text. -/
theorem Words.definition_proper {w : Token}
    (h : (isStrictDefinition w || isSoftDefinition w) = true) : w.kind ≠ .endOfProgram := by
  rintro hend
  simp [isStrictDefinition, isSoftDefinition, Token.isContextKeyword, hend] at h

section Places

variable {around : Situation} {c : Context} (agrees : around.Agrees c)
include agrees

theorem Situation.Agrees.enumVariant {a : Attributes} :
    enumVariant c a = true ↔ around.directly = .enum ∧ a.modifiers.static = false := by
  rw [← agrees.container]
  simp [Rules.enumVariant, Context.isEnum]

theorem Situation.Agrees.notInterface : (!c.isInterface) = true ↔ around.directly ≠ .interface := by
  rw [← agrees.container]
  simp [Context.isInterface]

theorem Situation.Agrees.allowsTypeDefinitions :
    c.allowsTypeDefinitions = true ↔ around.directly ≠ .plain := by
  rw [← agrees.container]
  simp [Context.allowsTypeDefinitions]

theorem Situation.Agrees.allowsNamespaces :
    c.allowsNamespaces = true ↔ around.directly ∈ [Container.topLevel, .package, .namespace] := by
  rw [← agrees.container]
  unfold Context.allowsNamespaces
  cases c.container <;> simp

theorem Situation.Agrees.allowsProxies :
    c.allowsProxies = true ↔ around.directly = .enum ∨ ∃ name, around.directly = .class name := by
  rw [← agrees.container]
  unfold Context.allowsProxies
  cases c.container <;> simp

theorem Situation.Agrees.className {name : String} (h : c.className? = some name) :
    around.directly = .class name := by
  rw [← agrees.container]
  unfold Context.className? at h
  cases hc : c.container <;> simp_all

end Places

/-- A definition that has been read, and then checked. -/
theorem Checked.defines {around : Situation} {statement : Statement}
    (hc : Checked lossy (statement.LegalIn around) u t)
    (hread : BuildsIn lossy ((Piece.statement around statement).bearing k) true s
      (statement.children around) u)
    (ends : some statement.span = some (s.token.span.«to» t.previous.span))
    (plain : (Piece.statement around statement).isPlain = true) :
    BuildsIn lossy k true s [.statement around statement] t :=
  .checked (hread.aside hc.builds) ends plain hc.holds fun _ => trivial

namespace Rules.Builder

variable {r : Rules} (R : r.Builder lossy)
include R

section Variables

theorem definedBinding_ok {isVariant : Bool} {binding : VariableBinding}
    (h : r.definedBinding isVariant s = .ok binding t) :
    Builds lossy true s [.binding binding] t ∧
      (t.script.isValid = true → isVariant = true → binding.pattern.isPlainName = true) := by
  obtain ⟨found, u, hu, h⟩ := bind_ok h
  obtain ⟨v, hv, h⟩ := bind_report lossy rfl h (by decide)
  cases h
  refine ⟨(R.variableBinding_ok hu).builds.close hv.builds, fun hvalid hvariant => ?_⟩
  simpa [hvariant] using hv.holds hvalid

theorem definedBindings_ok {isVariant : Bool} {bindings : List VariableBinding}
    (h : separated (r.definedBinding isVariant) r.rounds s = .ok bindings t) :
    Builds lossy true s (bindings.map .binding) t ∧
      (t.script.isValid = true → ∀ b ∈ bindings, isVariant = true → b.pattern.isPlainName = true) :=
  ⟨separated_each (fun h => (R.definedBinding_ok h).1) h,
    separated_holds (f := fun b => [.binding b]) (fun h => R.definedBinding_ok h) h⟩

end Variables

variable {around : Situation} {c : Context} (agrees : around.Agrees c) {a : Attributes}
include agrees

theorem variableDefinition_ok {readOnly ended : Bool} {statement : Statement}
    (hu : Builds lossy false s a.pieces u)
    (h : r.variableDefinition a c (Mark.ofSpan s.token.span) readOnly u = .ok (statement, ended) t) :
    BuildsIn lossy k true s [.statement around statement] t := by
  obtain ⟨bindings, v, hv, h⟩ := bind_ok h
  obtain ⟨ended, w, hw, h⟩ := bind_ok h
  rw [finish_bind] at h
  obtain ⟨_, x, hx, h⟩ := bind_either h
  obtain ⟨_, y, hy, h⟩ := bind_ok h
  cases h
  obtain ⟨hbindings, hnames⟩ := R.definedBindings_ok hv
  have hended : Builds lossy false _ [] _ := endStatement_ok hw
  have hplace : Checked lossy ((enumVariant c a && !readOnly) = false ∧ (!c.isInterface) = true) w x := by
    rcases hx with ⟨-, hx⟩ | ⟨hno, hx⟩
    · exact report_checked rfl hx (by decide)
    · exact (checkContext_ok hx).imp fun hplace => ⟨by simpa using hno, hplace⟩
  have hchecks := hplace.trans (restrictModifiers_ok hy)
  refine .checked ((hu.seq (hbindings.close hended)).aside hchecks.builds) (hchecks.span_to _) rfl ?_
    fun _ => trivial
  intro hvalid
  obtain ⟨⟨hconst, hinterface⟩, hlacks⟩ := hchecks.holds hvalid
  refine ⟨agrees.notInterface.mp hinterface, hlacks, fun henum hstatic => ?_⟩
  have hvariant := agrees.enumVariant.mpr ⟨henum, hstatic⟩
  refine ⟨by simpa [hvariant] using hconst, fun b hb => ?_⟩
  exact hnames ((hended.skip hchecks.builds).grows.valid hvalid) b hb hvariant

section Functions

omit agrees in
theorem constructorDefinition_ok {id : Identifier} {ended : Bool} {statement : Statement}
    (hplace : around.directly = .class id.name)
    (hu : Builds lossy true s (a.pieces ++ [.identifier id]) u)
    (h : r.constructorDefinition a (Mark.ofSpan s.token.span) id u = .ok (statement, ended) t) :
    BuildsIn lossy k true s [.statement around statement] t := by
  obtain ⟨parts, v, hv, h⟩ := bind_ok h
  rw [finish_bind] at h
  obtain ⟨_, w, hw, h⟩ := bind_ok h
  obtain ⟨_, x, hx, h⟩ := bind_ok h
  obtain ⟨_, y, hy, h⟩ := bind_ok h
  cases h
  have hchecks := (checkBody_ok hw : Checked lossy _ _ _).trans ((checkUses_ok hx).trans
    (restrictModifiers_ok hy))
  have hnamed : BuildsIn lossy true true s (a.pieces ++ [.identifier id]) u :=
    hu.anywhere a.named_inert
  have hread : BuildsIn lossy true true s (a.pieces ++ [.identifier id, .function parts.common]) v := by
    simpa using hnamed.seq (R.plainParts_ok hv)
  refine (hchecks.imp ?_).defines hread (hchecks.span_to _) rfl
  rintro ⟨hbody, ⟨hawait, hyield⟩, hlacks⟩
  exact ⟨hplace, hbody, hawait, by simpa using hyield, hlacks⟩

theorem accessorDefinition_ok {id : Identifier} {isGetter ended : Bool} {statement : Statement}
    (hu : Builds lossy true s (a.pieces ++ [.identifier id]) u)
    (h : r.accessorDefinition a c (Mark.ofSpan s.token.span) id isGetter u =
      .ok (statement, ended) t) : BuildsIn lossy k true s [.statement around statement] t := by
  obtain ⟨parts, v, hv, h⟩ := bind_ok h
  rw [finish_bind] at h
  obtain ⟨_, w, hw, h⟩ := bind_ok h
  obtain ⟨_, x, hx, h⟩ := bind_ok h
  cases h
  have hread : Builds lossy true s (a.pieces ++ [.identifier id, .function parts.common]) v := by
    simpa using hu.seq (R.plainParts_ok hv)
  have hchecks := (checkMethod_ok agrees hw : Checked lossy _ _ _).trans (checkUses_ok hx)
  cases isGetter with
  | true =>
    refine (hchecks.imp ?_).defines hread (hchecks.span_to _) rfl
    rintro ⟨hmethod, hawait, hyield⟩
    exact ⟨hmethod, hawait, by simpa using hyield⟩
  | false =>
    refine (hchecks.imp ?_).defines hread (hchecks.span_to _) rfl
    rintro ⟨hmethod, hawait, hyield⟩
    exact ⟨hmethod, hawait, by simpa using hyield⟩

omit R in
theorem checkProxy_ok {f : FunctionCommon} {id : Identifier} {op : Operator}
    (hop : Words.proxyOperator? id.name = some op) (h : checkProxy a c f id op s = .ok () t) :
    Checked lossy (f.ProxyIn around a id.name op) s t := by
  obtain ⟨_, u, hu, h⟩ := bind_either h
  obtain ⟨_, v, hv, h⟩ := bind_ok h
  obtain ⟨_, w, hw, h⟩ := bind_ok h
  have hplace : Checked lossy (c.allowsProxies = true ∧ f.Bodied a) s u := by
    rcases hu with ⟨hallowed, hu⟩ | ⟨-, hu⟩
    · exact (checkBody_ok hu).imp fun hbody => ⟨hallowed, hbody⟩
    · exact (checkContext_ok hu).imp nofun
  have hchecks := hplace.trans ((checkUses_ok hv).trans ((restrictModifiers_ok hw).trans
    (reportIf_ok rfl h (by decide))))
  refine hchecks.imp ?_
  rintro ⟨⟨hallowed, hbody⟩, ⟨hawait, hyield⟩, hlacks, hparams⟩
  simp only [hasProxyParameters, Bool.not_eq_true', Bool.not_eq_false, Bool.and_eq_true,
    Option.isNone_iff_eq_none, List.isEmpty_iff, beq_iff_eq] at hparams
  exact
    { place := agrees.allowsProxies.mp hallowed
      bodied := hbody
      awaits := hawait
      yields := fun hused => by simpa using hyield hused
      operator := hop
      params := hparams.2
      optional := hparams.1.2
      rest := hparams.1.1
      modifiers := hlacks }

theorem proxyDefinition_ok {id : Identifier} {ended : Bool} {statement : Statement}
    (hu : Builds lossy true s (a.pieces ++ [.identifier id]) u)
    (h : r.proxyDefinition a c (Mark.ofSpan s.token.span) id u = .ok (statement, ended) t) :
    BuildsIn lossy k true s [.statement around statement] t := by
  obtain ⟨parts, v, hv, h⟩ := bind_ok h
  rw [finish_bind] at h
  have hread : Builds lossy true s (a.pieces ++ [.identifier id, .function parts.common]) v := by
    simpa using hu.seq (R.plainParts_ok hv)
  cases hop : Words.proxyOperator? id.name with
  | some op =>
    rw [hop] at h
    obtain ⟨_, w, hw, h⟩ := bind_ok h
    cases h
    have hcheck : Checked lossy _ _ _ := checkProxy_ok agrees hop hw
    exact hcheck.defines hread (hcheck.span_to _) rfl
  | none =>
    rw [hop] at h
    obtain ⟨_, w, hw, h⟩ := bind_ok h
    cases h
    have hcheck : Checked lossy False v t := report_checked rfl hw (by decide)
    exact (hcheck.imp False.elim).defines hread (hcheck.span_to _) rfl

theorem functionDefinition_ok {ended : Bool} {statement : Statement}
    (hu : Builds lossy false s a.pieces u)
    (h : r.functionDefinition a c (Mark.ofSpan s.token.span) u = .ok (statement, ended) t) :
    BuildsIn lossy k true s [.statement around statement] t := by
  obtain ⟨id, v, hv, h⟩ := bind_ok h
  have hid : Whole lossy _ _ _ := identifier_ok hv
  have hnamed : Builds lossy true s (a.pieces ++ [.identifier id]) v := hu.seq hid.builds
  rw [previous_bind, at?_bind] at h
  split at h
  · -- The word before the name tells which accessor it is.
    obtain ⟨name, w, hw, h⟩ := bind_ok h
    have hword : Builds lossy true s a.pieces v :=
      hu.close (hid.builds.rework (.eraseTypal (by simp [Piece.isTypal])))
    exact R.accessorDefinition_ok agrees (hword.seq (identifier_ok hw).builds) h
  split at h
  · rename_i hclass
    exact R.constructorDefinition_ok (agrees.className (eq_of_beq hclass)) hnamed h
  split at h
  · exact R.proxyDefinition_ok agrees hnamed h
  obtain ⟨generics, w, hw, h⟩ := bind_ok h
  obtain ⟨parts, x, hx, h⟩ := bind_ok h
  rw [finish_bind] at h
  obtain ⟨_, y, hy, h⟩ := bind_ok h
  cases h
  obtain ⟨bounds, hparts, hbounds⟩ := R.functionParts_ok (by decide) hx
  have hgenerics : Gathers lossy true w (generics.toList.map .generics)
      (parts.generics.toList.map .generics ++ [.function parts.common]) x := by
    refine ⟨_, hparts, .trans (.of_perm ?_) (hbounds.append (.refl [.function parts.common]))⟩
    rw [List.append_assoc]
    exact (List.perm_append_singleton _ _).symm.append_left _
  have hcheck : Checked lossy _ _ _ := checkMethod_ok agrees hy
  have hread : Builds lossy true s (a.pieces ++ .identifier id :: parts.generics.toList.map .generics ++
      [.function parts.common]) x := by
    simpa using hnamed.seq (hgenerics.onto (optGenerics_ok hw))
  exact hcheck.defines hread (hcheck.span_to _) rfl

end Functions

section Blocks

theorem namespaceAlias_ok {id : Identifier} {ended : Bool} {statement : Statement}
    (hu : Builds lossy true s (a.pieces ++ [.identifier id]) u)
    (h : r.namespaceAlias a c (Mark.ofSpan s.token.span) id u = .ok (statement, ended) t) :
    BuildsIn lossy k true s [.statement around statement] t := by
  obtain ⟨e, v, hv, h⟩ := bind_ok h
  obtain ⟨ended, w, hw, h⟩ := bind_ok h
  obtain ⟨_, x, hx, h⟩ := bind_ok h
  obtain ⟨_, y, hy, h⟩ := bind_ok h
  cases h
  have hread : Builds lossy true s (a.pieces ++ [.identifier id, .expr e]) w := by
    simpa using hu.seq ((R.expr_ok hv).builds.close (endStatement_ok hw))
  have hchecks := (checkContext_ok hx : Checked lossy _ _ _).trans (restrictModifiers_ok hy)
  refine (hchecks.imp ?_).defines hread rfl rfl
  rintro ⟨hplace, hlacks⟩
  exact ⟨agrees.notInterface.mp hplace, hlacks⟩

theorem namespaceDefinition_ok {ended : Bool} {statement : Statement}
    (hu : Builds lossy false s a.pieces u)
    (h : r.namespaceDefinition a c (Mark.ofSpan s.token.span) u = .ok (statement, ended) t) :
    BuildsIn lossy k true s [.statement around statement] t := by
  obtain ⟨id, v, hv, h⟩ := bind_ok h
  have hnamed : Builds lossy true s (a.pieces ++ [.identifier id]) v :=
    hu.seq (identifier_ok hv).builds
  rcases bind_if lossy (proper_kind (by decide)) h with ⟨w, hw, -, h⟩ | h
  · exact R.namespaceAlias_ok agrees (hnamed.close hw.builds) h
  obtain ⟨block, w, hw, h⟩ := bind_ok h
  obtain ⟨_, x, hx, h⟩ := bind_ok h
  obtain ⟨_, y, hy, h⟩ := bind_ok h
  cases h
  have hread : Builds lossy true s (a.pieces ++ [.identifier id, .block ⟨.namespace, []⟩ block]) w := by
    simpa using hnamed.seq (R.block (.ofContainer .namespace) hw).builds
  have hchecks := (checkContext_ok hx : Checked lossy _ _ _).trans (restrictModifiers_ok hy)
  refine (hchecks.imp ?_).defines hread rfl rfl
  rintro ⟨hplace, hlacks⟩
  exact ⟨agrees.allowsNamespaces.mp hplace, hlacks⟩

omit agrees in
theorem classHeritage_ok {fuel : Nat} {before after : Heritage}
    (h : r.classHeritage fuel before s = .ok after t) :
    Gathers lossy false s before.pieces after.pieces t := by
  induction fuel generalizing before s with
  | zero => exact (exhausted_ok h).elim
  | succ fuel ih =>
    rcases bind_if lossy (proper_keyword _) h with ⟨u, hu, -, h⟩ | h
    · obtain ⟨type, v, hv, h⟩ := bind_ok h
      obtain ⟨w, hw, h⟩ := bind_report lossy rfl h (by decide)
      have hone : Gathers lossy true s before.pieces ({ before with extended := [type] } : Heritage).pieces w :=
        ⟨_, hu.builds.skip ((R.typeExpr hv).builds.close hw.builds), before.extending_pieces type⟩
      exact (hone.trans (ih h)).loose
    rcases bind_if lossy (proper_keyword _) h with ⟨u, hu, -, h⟩ | h
    · obtain ⟨types, v, hv, h⟩ := bind_ok h
      have htypes := separated_each (fun h => (R.typeExpr h).builds) hv
      have hone : Gathers lossy true s before.pieces
          ({ before with implemented := before.implemented ++ types } : Heritage).pieces v := by
        refine ⟨_, hu.builds.skip htypes, ?_⟩
        simpa [Heritage.pieces] using Reworks.refl _
      exact (hone.trans (ih h)).loose
    obtain ⟨found, u, hu, hgo⟩ := bind_ok h
    have hfound := R.boundsClause?_ok hu
    cases found with
    | some generics =>
      exact ((heritageBounds_ok hfound).trans (ih hgo)).loose
    | none =>
      cases hgo
      rw [hfound]
      exact .refl _ _

omit agrees in
theorem interfaceHeritage_ok {fuel : Nat} {before after : Heritage}
    (h : r.interfaceHeritage fuel before s = .ok after t) :
    Gathers lossy false s before.pieces after.pieces t := by
  induction fuel generalizing before s with
  | zero => exact (exhausted_ok h).elim
  | succ fuel ih =>
    rcases bind_if lossy (proper_keyword _) h with ⟨u, hu, -, h⟩ | h
    · obtain ⟨types, v, hv, h⟩ := bind_ok h
      have htypes := separated_each (fun h => (R.typeExpr h).builds) hv
      have hone : Gathers lossy true s before.pieces
          ({ before with extended := before.extended ++ types } : Heritage).pieces v := by
        refine ⟨_, hu.builds.skip htypes, .of_perm ?_⟩
        simpa [Heritage.pieces] using (List.perm_append_comm.append_left _).append_left _
      exact (hone.trans (ih h)).loose
    obtain ⟨found, u, hu, hgo⟩ := bind_ok h
    have hfound := R.boundsClause?_ok hu
    cases found with
    | some generics =>
      exact ((heritageBounds_ok hfound).trans (ih hgo)).loose
    | none =>
      cases hgo
      rw [hfound]
      exact .refl _ _

theorem classDefinition_ok {ended : Bool} {statement : Statement}
    (hu : Builds lossy false s a.pieces u)
    (h : r.classDefinition a c (Mark.ofSpan s.token.span) u = .ok (statement, ended) t) :
    BuildsIn lossy k true s [.statement around statement] t := by
  obtain ⟨id, v, hv, h⟩ := bind_ok h
  obtain ⟨generics, w, hw, h⟩ := bind_ok h
  obtain ⟨heritage, x, hx, h⟩ := bind_ok h
  obtain ⟨block, y, hy, h⟩ := bind_ok h
  obtain ⟨_, y₁, hplace, h⟩ := bind_ok h
  obtain ⟨y₂, hextends, h⟩ := bind_report lossy rfl h (by decide)
  obtain ⟨y₃, himplements, h⟩ := bind_report lossy rfl h (by decide)
  obtain ⟨_, y₄, hlacks, h⟩ := bind_ok h
  cases h
  have hattributes := (hu.rework (takeDecorator_ok "Value" a)).rework (takeDecorator_ok "Algebraic" _)
  have hheritage := ((R.classHeritage_ok hx).onto (heritageStart_ok hw)).rework heritage.single_pieces
  have hblock := (R.block (.ofContainer (.class id.name)) hy).builds
  have hchecks := (checkContext_ok hplace : Checked lossy _ _ _).trans
    (hextends.trans (himplements.trans (restrictModifiers_ok hlacks)))
  have hread : Builds lossy true s ((takeDecorator "Algebraic" (takeDecorator "Value" a).2).2.pieces ++
      .identifier id :: heritage.generics.toList.map .generics ++
      heritage.extended.head?.toList.map .type ++ heritage.implemented.map .type ++
      [.block ⟨.class id.name, []⟩ block]) y := by
    simpa using hattributes.seq ((identifier_ok hv).builds.seq (hheritage.seq hblock))
  refine (hchecks.imp ?_).defines hread rfl rfl
  rintro ⟨hplace, hextends, himplements, hlacks⟩
  refine ⟨agrees.allowsTypeDefinitions.mp hplace, hlacks, fun halgebraic => ?_, fun hvalue => ?_⟩
  · rw [halgebraic, Bool.or_true]
  · rw [hvalue] at hextends himplements
    exact ⟨by simpa using hextends, by simpa using himplements⟩

theorem interfaceDefinition_ok {ended : Bool} {statement : Statement}
    (hu : Builds lossy false s a.pieces u)
    (h : r.interfaceDefinition a c (Mark.ofSpan s.token.span) u = .ok (statement, ended) t) :
    BuildsIn lossy k true s [.statement around statement] t := by
  obtain ⟨id, v, hv, h⟩ := bind_ok h
  obtain ⟨generics, w, hw, h⟩ := bind_ok h
  obtain ⟨heritage, x, hx, h⟩ := bind_ok h
  obtain ⟨block, y, hy, h⟩ := bind_ok h
  obtain ⟨_, z, hz, h⟩ := bind_ok h
  obtain ⟨_, z', hz', h⟩ := bind_ok h
  cases h
  have hheritage := ((R.interfaceHeritage_ok hx).onto (heritageStart_ok hw)).rework
    ((Reworks.refl _).append (.eraseTypal (by simp [Piece.isTypal])))
  have hblock := (R.block (.ofContainer .interface) hy).builds
  have hchecks := (checkContext_ok hz : Checked lossy _ _ _).trans (restrictModifiers_ok hz')
  refine (hchecks.imp ?_).defines ?_ rfl rfl
  · rintro ⟨hplace, hlacks⟩
    exact ⟨agrees.allowsTypeDefinitions.mp hplace, hlacks⟩
  · simpa [Statement.children] using
      hu.seq ((identifier_ok hv).builds.seq (hheritage.seq hblock))

theorem enumDefinition_ok {ended : Bool} {statement : Statement}
    (hu : Builds lossy false s a.pieces u)
    (h : r.enumDefinition a c (Mark.ofSpan s.token.span) u = .ok (statement, ended) t) :
    BuildsIn lossy k true s [.statement around statement] t := by
  obtain ⟨id, v, hv, h⟩ := bind_ok h
  obtain ⟨type, w, hw, h⟩ := bind_ok h
  obtain ⟨block, x, hx, h⟩ := bind_ok h
  obtain ⟨_, y, hy, h⟩ := bind_ok h
  obtain ⟨_, z, hz, h⟩ := bind_ok h
  cases h
  have hattributes := hu.rework (takeDecorator_ok "Flags" a)
  have hchecks := (checkContext_ok hy : Checked lossy _ _ _).trans (restrictModifiers_ok hz)
  have hread : Builds lossy true s ((takeDecorator "Flags" a).2.pieces ++ .identifier id ::
      type.toList.map .type ++ [.block ⟨.enum, []⟩ block]) x := by
    simpa using hattributes.seq ((identifier_ok hv).builds.seq
      ((R.optAnnotation_ok hw).seq (R.block (.ofContainer .enum) hx).builds))
  refine (hchecks.imp ?_).defines hread rfl rfl
  rintro ⟨hplace, hlacks⟩
  exact ⟨agrees.allowsTypeDefinitions.mp hplace, hlacks⟩

omit agrees in
theorem boundsClauses_ok {fuel : Nat} {before after : Option Generics}
    (h : r.boundsClauses fuel before s = .ok after t) :
    Gathers lossy false s (before.toList.map .generics) (after.toList.map .generics) t := by
  induction fuel generalizing before s with
  | zero => exact (exhausted_ok h).elim
  | succ fuel ih =>
    obtain ⟨found, u, hu, hgo⟩ := bind_ok h
    have hfound := R.boundsClause?_ok hu
    cases found with
    | some longer => exact (hfound.trans (ih hgo)).loose
    | none =>
      cases hgo
      rw [hfound]
      exact .refl _ _

theorem typeDefinition_ok {ended : Bool} {statement : Statement}
    (hu : Builds lossy false s a.pieces u)
    (h : r.typeDefinition a c (Mark.ofSpan s.token.span) u = .ok (statement, ended) t) :
    BuildsIn lossy k true s [.statement around statement] t := by
  obtain ⟨id, v, hv, h⟩ := bind_ok h
  obtain ⟨first, w, hw, h⟩ := bind_ok h
  obtain ⟨generics, x, hx, h⟩ := bind_ok h
  obtain ⟨y, hy, -, h⟩ := bind_expect lossy (proper_kind (by decide)) h
  obtain ⟨type, z, hz, h⟩ := bind_ok h
  obtain ⟨ended, z₁, hz₁, h⟩ := bind_ok h
  obtain ⟨_, z₂, hz₂, h⟩ := bind_ok h
  obtain ⟨_, z₃, hz₃, h⟩ := bind_ok h
  cases h
  have hgenerics := (R.boundsClauses_ok hx).onto (optGenerics_ok hw)
  have htype := hy.builds.skip ((R.typeExpr hz).builds.close (endStatement_ok hz₁))
  have hchecks := (checkContext_ok hz₂ : Checked lossy _ _ _).trans (restrictModifiers_ok hz₃)
  have hread : Builds lossy true s (a.pieces ++ .identifier id :: generics.toList.map .generics ++
      [.type type]) z₁ := by
    simpa using hu.seq ((identifier_ok hv).builds.seq (hgenerics.seq htype))
  refine (hchecks.imp ?_).defines hread rfl rfl
  rintro ⟨hplace, hlacks⟩
  exact ⟨agrees.notInterface.mp hplace, hlacks⟩

end Blocks

theorem definition_ok {ended : Bool} {statement : Statement} (hu : Builds lossy false s a.pieces u)
    (h : r.definition a c (Mark.ofSpan s.token.span) u = .ok (statement, ended) t) :
    BuildsIn lossy k true s [.statement around statement] t := by
  unfold definition at h
  rw [previous_bind] at h
  split at h
  · exact R.variableDefinition_ok agrees hu h
  split at h
  · exact R.variableDefinition_ok agrees hu h
  split at h
  · exact R.functionDefinition_ok agrees hu h
  split at h
  · exact R.namespaceDefinition_ok agrees hu h
  split at h
  · exact R.classDefinition_ok agrees hu h
  split at h
  · exact R.interfaceDefinition_ok agrees hu h
  split at h
  · exact R.enumDefinition_ok agrees hu h
  split at h
  · exact R.typeDefinition_ok agrees hu h
  · exact (unexpected_ok h).elim

theorem modifiedDefinition_ok {ended : Bool} {statement : Statement}
    (hu : Builds lossy false s a.pieces u)
    (h : r.modifiedDefinition a c (Mark.ofSpan s.token.span) u = .ok (statement, ended) t) :
    BuildsIn lossy k true s [.statement around statement] t := by
  obtain ⟨after, v, hv, h⟩ := bind_ok h
  obtain ⟨hattributes, hdecorators⟩ : Builds lossy false _ [] _ ∧ _ := definitionAttributes_ok hv
  have hpieces : after.pieces = a.pieces := by rw [Attributes.pieces, hdecorators]; rfl
  have hread : Builds lossy false s after.pieces v := hpieces ▸ hu.close hattributes
  rw [token_bind] at h
  split at h
  · rename_i hword
    obtain ⟨w, hw, h⟩ := bind_next lossy (Words.definition_proper hword) h
    exact R.definition_ok agrees (hread.close hw.builds).loose h
  · exact R.definition_ok agrees hread h

end Rules.Builder

end ActionSyntax
