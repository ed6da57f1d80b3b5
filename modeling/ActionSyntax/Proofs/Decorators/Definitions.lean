import ActionSyntax.Proofs.Building.Levels
import ActionSyntax.Proofs.Decorators.Brackets

/-!
Decorators of a definition. A definition is read in the same way with and without them; they only add to its
attributes, less those that it takes for flags, and to the problems that are reported behind it.
-/

namespace ActionSyntax

set_option autoImplicit false

open Parse Rules

/-- The state, whatever problems have been found. -/
def ParserState.cleared (s : ParserState) : ParserState :=
  { s with scanner := { s.scanner with script := { s.scanner.script with problems := #[], valid := true } } }

theorem ParserState.cleared_collect (s : ParserState) (p : Problem) : (s.collect p).cleared = s.cleared := rfl

theorem ParserState.previous_eq {s t : ParserState} (h : s.cleared = t.cleared) : s.previous = t.previous := by
  show s.cleared.previous = t.cleared.previous
  rw [h]

namespace Statement

/-- The definition with decorators. A class and an enumeration take some of them for flags. -/
def decorated (items : List Expr) : Statement → Statement
  | .namespaceDef span a id body => .namespaceDef span { a with decorators := some items } id body
  | .namespaceAlias span a id e => .namespaceAlias span { a with decorators := some items } id e
  | .variableDef span a readOnly bindings =>
    .variableDef span { a with decorators := some items } readOnly bindings
  | .functionDef span a id generics common =>
    .functionDef span { a with decorators := some items } id generics common
  | .constructorDef span a id common => .constructorDef span { a with decorators := some items } id common
  | .getterDef span a id common => .getterDef span { a with decorators := some items } id common
  | .setterDef span a id common => .setterDef span { a with decorators := some items } id common
  | .proxyDef span a id op common => .proxyDef span { a with decorators := some items } id op common
  | .classDef span a id _ _ generics extended implemented body =>
    .classDef span { a with decorators := some ((items.eraseP (isNamed "Value")).eraseP (isNamed "Algebraic")) }
      id (items.any (isNamed "Value") || items.any (isNamed "Algebraic")) (items.any (isNamed "Algebraic"))
      generics extended implemented body
  | .interfaceDef span a id generics extended body =>
    .interfaceDef span { a with decorators := some items } id generics extended body
  | .enumDef span a id _ numericType body =>
    .enumDef span { a with decorators := some (items.eraseP (isNamed "Flags")) } id
      (items.any (isNamed "Flags")) numericType body
  | .typeDef span a id generics type => .typeDef span { a with decorators := some items } id generics type
  | other => other

/-- The names that a definition takes out of its decorators. -/
def flags : Statement → List String
  | .classDef .. => ["Value", "Algebraic"]
  | .enumDef .. => ["Flags"]
  | _ => []

/-- A decorated definition has the decorators less the first of each name that it takes out. -/
theorem decorators_decorated {definition : Statement} (h : definition.attributes?.isSome = true)
    (items : List Expr) : (definition.decorated items).attributes?.bind (·.decorators) =
      some (definition.flags.foldl (fun items name => items.eraseP (isNamed name)) items) := by
  cases definition
  case classDef | enumDef => rfl
  case namespaceDef | namespaceAlias | variableDef | functionDef | constructorDef | getterDef | setterDef |
    proxyDef | interfaceDef | typeDef => rfl
  all_goals cases h

end Statement

section Reports

/-- Nothing but problems are reported, if anything. -/
def Reports (x : Parse Unit) : Prop := ∀ s, ∃ t, x s = .ok () t ∧ t.cleared = s.cleared

namespace Reports

variable {x y : Parse Unit}

theorem none : Reports (pure ()) := fun s => ⟨s, rfl, rfl⟩

theorem report (severity : Severity) (id : ProblemId) (span : Span) (arguments : List (String × Argument)) :
    Reports (Parse.report severity id span arguments) := fun s => ⟨_, rfl, s.cleared_collect _⟩

theorem seq (hx : Reports x) (hy : Reports y) : Reports (x >>= fun _ => y) := by
  intro s
  obtain ⟨t, hread, ht⟩ := hx s
  obtain ⟨u, hread', hu⟩ := hy t
  refine ⟨u, ?_, hu.trans ht⟩
  rw [bind_of_ok hread]
  exact hread'

theorem ite {condition : Prop} {_ : Decidable condition} (hx : Reports x) (hy : Reports y) :
    Reports (if condition then x else y) := by
  split
  · exact hx
  · exact hy

theorem forM {β : Type} {step : β → Parse Unit} (h : ∀ b, Reports (step b)) : ∀ items : List β,
    Reports (items.forM step)
  | [] => none
  | b :: items => (h b).seq (forM h items)

variable {a : Attributes} {context : Context} {common : FunctionCommon} {id : Identifier} {span : Span}

theorem restrictModifiers (actual : Modifiers) (restricted : List Modifier) :
    Reports (Rules.restrictModifiers span actual restricted) := forM (fun _ => report _ _ _ _) _

theorem checkContext (allowed : Bool) : Reports (Rules.checkContext allowed span) :=
  ite (report _ _ _ _) none

theorem checkBody : Reports (Rules.checkBody a common id) :=
  ite (ite (report _ _ _ _) none) (ite (report _ _ _ _) none)

theorem checkMethod : Reports (Rules.checkMethod a context common id) :=
  ite (ite (report _ _ _ _) none) checkBody

theorem checkUses (mayYield : Bool) : Reports (Rules.checkUses common id mayYield) :=
  ite (report _ _ _ _) (ite (report _ _ _ _) none)

theorem checkProxy (op : Operator) : Reports (Rules.checkProxy a context common id op) := by
  refine ite (checkBody.seq ?_) ((checkContext false).seq ?_)
  all_goals exact (checkUses _).seq ((restrictModifiers _ _).seq (ite (report _ _ _ _) none))

end Reports

end Reports

/-- From states that differ in problems only, both end with a definition, the second one with the decorators
added. -/
def Closes (items : List Expr) (x y : Parse Ended) : Prop :=
  ∀ s t, s.cleared = t.cleared → ∃ definition ended u v, x s = .ok (definition, ended) u ∧
    definition.attributes?.isSome = true ∧ y t = .ok (definition.decorated items, ended) v ∧
    u.cleared = v.cleared

namespace Closes

variable {items : List Expr} {x y : Parse Ended} {f g : Span → Parse Ended}

theorem pure (definition : Statement) (hdefinition : definition.attributes?.isSome = true) (ended : Bool) :
    Closes items (Pure.pure (definition, ended)) (Pure.pure (definition.decorated items, ended)) := fun s t h =>
  ⟨definition, ended, s, t, rfl, hdefinition, rfl, h⟩

theorem finish (m : Mark) (h : ∀ span, Closes items (f span) (g span)) :
    Closes items (Parse.finish m >>= f) (Parse.finish m >>= g) := by
  intro s t hst
  rw [finish_bind, finish_bind, ← ParserState.previous_eq hst]
  exact h _ s t hst

/-- Reports make no difference to what is read. -/
theorem reports {a b : Parse Unit} (ha : Reports a) (hb : Reports b) (h : Closes items x y) :
    Closes items (a >>= fun _ => x) (b >>= fun _ => y) := by
  intro s t hst
  obtain ⟨s', hs, hcleared⟩ := ha s
  obtain ⟨t', ht, hcleared'⟩ := hb t
  rw [bind_of_ok hs, bind_of_ok ht]
  exact h s' t' (hcleared.trans (hst.trans hcleared'.symm))

/-- Whether anything is reported may depend on the decorators. -/
theorem optional {condition condition' : Prop} {_ : Decidable condition} {_ : Decidable condition'}
    {a b : Parse Unit} (ha : Reports a) (hb : Reports b) (h : Closes items x y) :
    Closes items (if condition then a >>= fun _ => x else x) (if condition' then b >>= fun _ => y else y) := by
  have hnone : ∀ z : Parse Ended, (Pure.pure () >>= fun _ => z : Parse Ended) = z := fun z => pure_bind () _
  split <;> split
  · exact reports ha hb h
  · exact hnone y ▸ reports ha .none h
  · exact hnone x ▸ reports .none hb h
  · exact h

theorem branch {condition : Prop} {_ : Decidable condition} {a a' b b' : Parse Unit} (ha : Reports a)
    (ha' : Reports a') (hb : Reports b) (hb' : Reports b') (h : Closes items x y) :
    Closes items (if condition then a >>= fun _ => x else a' >>= fun _ => x)
      (if condition then b >>= fun _ => y else b' >>= fun _ => y) := by
  split
  · exact reports ha hb h
  · exact reports ha' hb' h

end Closes

/-- What the first one reads is a definition, and the second one reads the same with the decorators added. -/
def Decorates (items : List Expr) (x y : Parse Ended) : Prop :=
  ∀ s definition ended u, x s = .ok (definition, ended) u → definition.attributes?.isSome = true ∧
    ∃ v, y s = .ok (definition.decorated items, ended) v ∧ u.cleared = v.cleared

namespace Decorates

variable {items : List Expr} {α : Type} {x y : Parse Ended} {f g : α → Parse Ended}

theorem seq (z : Parse α) (h : ∀ a, Decorates items (f a) (g a)) : Decorates items (z >>= f) (z >>= g) := by
  intro s definition ended u hread
  obtain ⟨a, t, ht, hrest⟩ := bind_ok hread
  obtain ⟨hdefinition, v, hv, hcleared⟩ := h a t definition ended u hrest
  exact ⟨hdefinition, v, (bind_of_ok ht g).trans hv, hcleared⟩

theorem ite {condition : Prop} {_ : Decidable condition} {x' y' : Parse Ended} (h : Decorates items x y)
    (h' : Decorates items x' y') :
    Decorates items (if condition then x else x') (if condition then y else y') := by
  split
  · exact h
  · exact h'

theorem of_closes (h : Closes items x y) : Decorates items x y := by
  intro s definition ended u hread
  obtain ⟨definition', ended', u', v, hread', hdefinition, hv, hcleared⟩ := h s s rfl
  cases hread.symm.trans hread'
  exact ⟨hdefinition, v, hv, hcleared⟩

theorem unexpected : Decorates items Parse.unexpected Parse.unexpected := by
  intro s definition ended u hread
  obtain ⟨_, _, -, h⟩ := bind_ok hread
  obtain ⟨_, _, -, h⟩ := bind_ok h
  cases h

end Decorates

section Definitions

open Decorates

variable (r : Rules) (items : List Expr) (a : Attributes) (context : Context) (m : Mark)

/-- The attributes with the decorators. -/
abbrev Attributes.decorated : Attributes := { a with decorators := some items }

theorem variableDefinition_decorates (readOnly : Bool) :
    Decorates items (r.variableDefinition a context m readOnly)
      (r.variableDefinition (a.decorated items) context m readOnly) := by
  refine .seq _ fun bindings => .seq _ fun ended => .of_closes (.finish m fun span => ?_)
  refine .branch (.report _ _ _ _) (.checkContext _) (.report _ _ _ _) (.checkContext _) ?_
  exact .reports (.restrictModifiers _ _) (.restrictModifiers _ _) (.pure _ rfl ended)

theorem constructorDefinition_decorates (id : Identifier) :
    Decorates items (r.constructorDefinition a m id) (r.constructorDefinition (a.decorated items) m id) := by
  refine .seq _ fun parts => .of_closes (.finish m fun span => ?_)
  refine .reports .checkBody .checkBody (.reports (.checkUses _) (.checkUses _) ?_)
  exact .reports (.restrictModifiers _ _) (.restrictModifiers _ _) (.pure _ rfl parts.ended)

theorem accessorDefinition_decorates (id : Identifier) (isGetter : Bool) :
    Decorates items (r.accessorDefinition a context m id isGetter)
      (r.accessorDefinition (a.decorated items) context m id isGetter) := by
  refine .seq _ fun parts => .of_closes (.finish m fun span => ?_)
  refine .reports .checkMethod .checkMethod (.reports (.checkUses _) (.checkUses _) ?_)
  cases isGetter with
  | false => exact .pure (.setterDef span a id parts.common) rfl parts.ended
  | true => exact .pure (.getterDef span a id parts.common) rfl parts.ended

theorem proxyDefinition_decorates (id : Identifier) :
    Decorates items (r.proxyDefinition a context m id)
      (r.proxyDefinition (a.decorated items) context m id) := by
  refine .seq _ fun parts => .of_closes (.finish m fun span => ?_)
  cases Words.proxyOperator? id.name with
  | some op => exact .reports (.checkProxy op) (.checkProxy op) (.pure _ rfl parts.ended)
  | none => exact .reports (.report _ _ _ _) (.report _ _ _ _) (.pure _ rfl parts.ended)

theorem functionDefinition_decorates :
    Decorates items (r.functionDefinition a context m)
      (r.functionDefinition (a.decorated items) context m) := by
  refine .seq _ fun id => .seq _ fun word => .seq _ fun accessor => ?_
  refine .ite (.seq _ fun id => accessorDefinition_decorates r items a context m id _) ?_
  refine .ite (constructorDefinition_decorates r items a m id) ?_
  refine .ite (proxyDefinition_decorates r items a context m id) ?_
  refine .seq _ fun generics => .seq _ fun parts => .of_closes (.finish m fun span => ?_)
  exact .reports .checkMethod .checkMethod (.pure _ rfl parts.ended)

theorem namespaceDefinition_decorates :
    Decorates items (r.namespaceDefinition a context m)
      (r.namespaceDefinition (a.decorated items) context m) := by
  refine .seq _ fun id => .seq _ fun aliased => .ite ?_ ?_
  · refine .seq _ fun e => .seq _ fun ended => .of_closes ?_
    refine .reports (.checkContext _) (.checkContext _) ?_
    refine .reports (.restrictModifiers _ _) (.restrictModifiers _ _) ?_
    exact .finish m fun span => .pure _ rfl ended
  · refine .seq _ fun block => .of_closes ?_
    refine .reports (.checkContext _) (.checkContext _) ?_
    refine .reports (.restrictModifiers _ _) (.restrictModifiers _ _) ?_
    exact .finish m fun span => .pure _ rfl true

theorem isNamed_other {name other : String} (hne : name ≠ other) {e : Expr} (h : isNamed name e = true) :
    isNamed other e = false := by
  cases e with
  | identifier id =>
    simp only [isNamed, Bool.and_eq_true, beq_iff_eq] at h
    simp [isNamed, h.1, hne]
  | _ => cases h

/-- What is taken out by one name is not named otherwise. -/
theorem any_eraseP {name other : String} (hne : name ≠ other) (items : List Expr) :
    (items.eraseP (isNamed name)).any (isNamed other) = items.any (isNamed other) := by
  induction items with
  | nil => rfl
  | cons e rest ih =>
    rw [List.eraseP_cons]
    cases hnamed : isNamed name e with
    | false => simp [ih]
    | true => simp [isNamed_other hne hnamed]

theorem classDefinition_decorates :
    Decorates items (r.classDefinition a context m) (r.classDefinition (a.decorated items) context m) := by
  refine .seq _ fun id => .seq _ fun generics => .seq _ fun heritage => .seq _ fun block => .of_closes ?_
  refine .reports (.checkContext _) (.checkContext _) ?_
  refine .optional (.report _ _ _ _) (.report _ _ _ _) (.optional (.report _ _ _ _) (.report _ _ _ _) ?_)
  refine .reports (.restrictModifiers _ _) (.restrictModifiers _ _) (.finish m fun span => ?_)
  have hsame : ∀ (b c : Bool), Closes items
      (pure (.classDef span (takeDecorator "Algebraic" (takeDecorator "Value" a).2).2 id b c heritage.generics
        heritage.extended.head? heritage.implemented block, true))
      (pure (.classDef span (takeDecorator "Algebraic" (takeDecorator "Value" (a.decorated items)).2).2 id
        (items.any (isNamed "Value") || (items.eraseP (isNamed "Value")).any (isNamed "Algebraic"))
        ((items.eraseP (isNamed "Value")).any (isNamed "Algebraic")) heritage.generics
        heritage.extended.head? heritage.implemented block, true)) := by
    intro b c
    rw [any_eraseP (by decide)]
    exact .pure _ rfl true
  exact hsame _ _

theorem interfaceDefinition_decorates :
    Decorates items (r.interfaceDefinition a context m)
      (r.interfaceDefinition (a.decorated items) context m) := by
  refine .seq _ fun id => .seq _ fun generics => .seq _ fun heritage => .seq _ fun block => .of_closes ?_
  refine .reports (.checkContext _) (.checkContext _) ?_
  exact .reports (.restrictModifiers _ _) (.restrictModifiers _ _) (.finish m fun span => .pure _ rfl true)

theorem enumDefinition_decorates :
    Decorates items (r.enumDefinition a context m) (r.enumDefinition (a.decorated items) context m) := by
  refine .seq _ fun id => .seq _ fun type => .seq _ fun block => .of_closes ?_
  refine .reports (.checkContext _) (.checkContext _) ?_
  exact .reports (.restrictModifiers _ _) (.restrictModifiers _ _) (.finish m fun span => .pure _ rfl true)

theorem typeDefinition_decorates :
    Decorates items (r.typeDefinition a context m) (r.typeDefinition (a.decorated items) context m) := by
  refine .seq _ fun id => .seq _ fun first => .seq _ fun generics => .seq _ fun _ => .seq _ fun type => ?_
  refine .seq _ fun ended => .of_closes (.reports (.checkContext _) (.checkContext _) ?_)
  exact .reports (.restrictModifiers _ _) (.restrictModifiers _ _) (.finish m fun span => .pure _ rfl ended)

/-- A definition is read in the same way with decorators. -/
theorem definition_decorates :
    Decorates items (r.definition a context m) (r.definition (a.decorated items) context m) := by
  refine .seq _ fun keyword => ?_
  refine .ite (variableDefinition_decorates r items a context m false) ?_
  refine .ite (variableDefinition_decorates r items a context m true) ?_
  refine .ite (functionDefinition_decorates r items a context m) ?_
  refine .ite (namespaceDefinition_decorates r items a context m) ?_
  refine .ite (classDefinition_decorates r items a context m) ?_
  refine .ite (interfaceDefinition_decorates r items a context m) ?_
  refine .ite (enumDefinition_decorates r items a context m) ?_
  exact .ite (typeDefinition_decorates r items a context m) .unexpected

theorem definitionWord_decorated {fuel : Nat}
    (ih : ∀ a : Attributes, definitionAttributes fuel (a.decorated items) =
      (definitionAttributes fuel a >>= fun a => pure (a.decorated items)))
    (a : Attributes) (s : ParserState) :
    (match Words.modifier? s.token, Words.access? s.token with
      | some modifier, _ => do
        next
        definitionAttributes fuel { a.decorated items with modifiers := a.modifiers.insert modifier }
      | none, some access => do
        next
        definitionAttributes fuel { a.decorated items with access := some access }
      | none, none => pure (a.decorated items) : Parse Attributes) =
    (match Words.modifier? s.token, Words.access? s.token with
      | some modifier, _ => do
        next
        definitionAttributes fuel { a with modifiers := a.modifiers.insert modifier }
      | none, some access => do
        next
        definitionAttributes fuel { a with access := some access }
      | none, none => pure a) >>= fun a => pure (a.decorated items) := by
  cases Words.modifier? s.token with
  | some modifier =>
    have hrest := ih { a with modifiers := a.modifiers.insert modifier }
    exact (bind_congr fun _ => hrest).trans (bind_assoc _ _ _).symm
  | none =>
    cases Words.access? s.token with
    | some access =>
      have hrest := ih { a with access := some access }
      exact (bind_congr fun _ => hrest).trans (bind_assoc _ _ _).symm
    | none => exact (pure_bind _ _).symm

/-- Modifiers are read in the same way with decorators. -/
theorem definitionAttributes_decorated (fuel : Nat) (a : Attributes) :
    definitionAttributes fuel (a.decorated items) =
      (definitionAttributes fuel a >>= fun a => pure (a.decorated items)) := by
  induction fuel generalizing a with
  | zero => rfl
  | succ fuel ih =>
    have hstep := definitionWord_decorated items ih a
    unfold definitionAttributes
    rw [bind_assoc]
    refine bind_congr fun s => ?_
    by_cases hbegun : ((!a.modifiers.isEmpty || a.access.isSome) && !s.onSameLine) = true
    · show (if _ then _ else _) = (if _ then _ else _) >>= _
      rw [if_pos hbegun, if_pos hbegun, bind_assoc]
      exact bind_congr fun _ => hstep s
    · show (if _ then _ else _) = (if _ then _ else _) >>= _
      rw [if_neg hbegun, if_neg hbegun]
      exact hstep s

theorem modifiedDefinition_decorates :
    Decorates items (r.modifiedDefinition a context m)
      (r.modifiedDefinition (a.decorated items) context m) := by
  unfold modifiedDefinition
  rw [definitionAttributes_decorated, bind_assoc]
  refine .seq _ fun a => ?_
  rw [pure_bind]
  refine .seq _ fun t => .ite (.seq _ fun _ => ?_) ?_
  all_goals exact definition_decorates r items a context m

/-- The word in front of a definition is none that an expression ends with. -/
theorem modifiedDefinition_begins {r : Rules} {context : Context} {m : Mark} {s t : ParserState} {found : Ended}
    (hbehind : s.previous.kind = .rightBracket) (h : r.modifiedDefinition {} context m s = .ok found t) :
    Words.beginsDecorated s.token = true := by
  rw [← Bool.not_eq_false]
  intro hplain
  simp only [Words.beginsDecorated, Words.beginsDefinition, Bool.or_eq_false_iff, Option.isSome_eq_false_iff,
    Option.isNone_iff_eq_none] at hplain
  obtain ⟨⟨⟨hstrict, haccess⟩, hsoft⟩, hmodifier⟩ := hplain
  obtain ⟨a, u, hattributes, h⟩ := bind_ok h
  obtain ⟨-, rfl⟩ : a = {} ∧ s = u := by
    cases hrounds : r.rounds with
    | zero => rw [hrounds] at hattributes; cases hattributes
    | succ fuel =>
      rw [hrounds, definitionAttributes, get_bind] at hattributes
      simp only [hmodifier, haccess] at hattributes
      cases hattributes
      exact ⟨rfl, rfl⟩
  rw [token_bind, hstrict, hsoft] at h
  have hword : ∀ word, s.previous.isKeyword word = false ∧ s.previous.isContextKeyword word = false := by
    intro word
    simp [Token.isKeyword, Token.isContextKeyword, hbehind]
  have hnone : Parse.unexpected s = .ok found t := by
    simpa [definition, hword] using h
  exact Yields.unexpected (p := fun _ => False) hnone |>.elim

end Definitions

section Statements

open Decorators (Brackets)

variable {host : Host} {k n : Nat} {s t u : ParserState} {groups : List (List Expr)}

/-- The last bracket stands right in front of what follows. -/
theorem Decorators.Brackets.previous (h : Brackets (host.level k) s groups t) (hgroups : groups ≠ []) :
    t.previous.kind = .rightBracket := by
  induction h with
  | nil => exact absurd rfl hgroups
  | cons _ _ hitems hclose hrest ih =>
    cases hrest with
    | nil =>
      rw [(next_inv hclose).2]
      exact hitems.kind
    | cons => exact ih (List.cons_ne_nil _ _)

/-- The decorators of a definition are what the brackets in front of it hold, in the order of the text and
however the brackets are laid out, less those that the definition takes for flags. Apart from that it is read as
without any brackets. -/
theorem Rules.statementRule_decorated {context : Context} {definition : Statement} {ended : Bool}
    (hs : s.Sound) (hleft : s.left ≤ n) (hlevel : k + 2 ≤ n) (hgroups : groups ≠ [])
    (hbrackets : Brackets (host.level k) s groups t)
    (hdefinition : (host.level n).modifiedDefinition {} context (Mark.ofSpan s.token.span) t =
      .ok (definition, ended) u) :
    ∃ v, (host.level n).statementRule context s = .ok (definition.decorated groups.flatten, ended) v ∧
      v.cleared = u.cleared ∧ (definition.decorated groups.flatten).attributes?.bind (·.decorators) =
        some (definition.flags.foldl (fun items name => items.eraseP (isNamed name)) groups.flatten) := by
  have hopen : s.token.kind = .leftBracket := by
    cases hbrackets with
    | nil => exact absurd rfl hgroups
    | cons hopen => exact hopen
  have hbegins : Words.beginsDecorated t.token = true :=
    modifiedDefinition_begins (hbrackets.previous hgroups) hdefinition
  obtain ⟨k, rfl⟩ : ∃ j, k = j + 1 := by
    obtain _ | j := k
    · cases hbrackets with
      | nil => exact absurd rfl hgroups
      | cons _ _ hitems => cases hitems with
        | last he => cases he
        | more he => cases he
    · exact ⟨j, rfl⟩
  obtain ⟨n, rfl⟩ : ∃ j, n = j + 2 := ⟨n - 2, by omega⟩
  obtain ⟨hknown, v, hread, hcleared⟩ :=
    modifiedDefinition_decorates (host.level (n + 2)) groups.flatten {} context (Mark.ofSpan s.token.span) t
      definition ended u hdefinition
  have hstatement : (host.level (n + 2)).optStatement context s =
      (some <$> (host.level (n + 2)).bracketStatement context (Mark.ofSpan s.token.span)) s := by
    unfold optStatement
    rw [mark_bind, token_bind, hopen]
  refine ⟨v, ?_, hcleared.symm, Statement.decorators_decorated hknown _⟩
  rw [statementRule_of_found hstatement, hbrackets.bracketStatement (by omega) hs hopen hbegins hleft]
  exact hread

/-- Whether something is read that passes the check. -/
def Parse.passes {α : Type} (p : α → Bool) (x : Parse α) (s : ParserState) : Bool :=
  match x s with
  | .ok a _ => p a
  | .error .. => false

theorem Parse.ok_of_passes {α : Type} {p : α → Bool} {x : Parse α} (h : Parse.passes p x s = true) :
    ∃ a, p a = true ∧ x s = .ok a (lastState (x s)) := by
  unfold Parse.passes at h
  split at h
  · rename_i a v hread
    exact ⟨a, h, by rw [hread]; rfl⟩
  · cases h

/-- Of three brackets, the second one goes on with the first, and one of the items is a flag. -/
theorem Rules.statementRule_decorated_class : ∃ a b c value definition ended v,
    isNamed "A" a = true ∧ isNamed "B" b = true ∧ isNamed "C" c = true ∧ isNamed "Value" value = true ∧
    ((Host.ofFiles []).level 31).statementRule {} (Parser.ofScript (Host.ofFiles [])
      (Script.ofSource "/m.es" "[A][B]\n[C, Value] class D \x7b\x7d")).state =
        .ok (Statement.decorated [a, b, c, value] definition, ended) v ∧
    (definition.decorated [a, b, c, value]).attributes?.bind (·.decorators) = some [a, b, c] := by
  let host := Host.ofFiles []
  let s₀ := (Parser.ofScript host (Script.ofSource "/m.es" "[A][B]\n[C, Value] class D \x7b\x7d")).state
  let r := host.level 4
  let s₁ := lastState (Parse.next s₀)
  let s₂ := lastState (r.assignmentExpr true s₁)
  let s₃ := lastState (Parse.next s₂)
  let s₄ := lastState (Parse.next s₃)
  let s₅ := lastState (r.assignmentExpr true s₄)
  let s₆ := lastState (Parse.next s₅)
  let s₇ := lastState (Parse.next s₆)
  let s₈ := lastState (r.assignmentExpr true s₇)
  let s₉ := lastState (Parse.next s₈)
  let s₁₀ := lastState (r.assignmentExpr true s₉)
  let s₁₁ := lastState (Parse.next s₁₀)
  have next : ∀ s, Parse.passes (fun _ => true) Parse.next s = true →
      Parse.next s = .ok () (lastState (Parse.next s)) := fun s h => (ok_of_passes h).choose_spec.2
  obtain ⟨a, ha, hreadA⟩ : ∃ a, isNamed "A" a = true ∧ r.assignmentExpr true s₁ = .ok a s₂ :=
    ok_of_passes (by decide +kernel)
  obtain ⟨b, hb, hreadB⟩ : ∃ b, isNamed "B" b = true ∧ r.assignmentExpr true s₄ = .ok b s₅ :=
    ok_of_passes (by decide +kernel)
  obtain ⟨c, hc, hreadC⟩ : ∃ c, isNamed "C" c = true ∧ r.assignmentExpr true s₇ = .ok c s₈ :=
    ok_of_passes (by decide +kernel)
  obtain ⟨value, hvalue, hreadValue⟩ : ∃ value, isNamed "Value" value = true ∧
      r.assignmentExpr true s₉ = .ok value s₁₀ := ok_of_passes (by decide +kernel)
  have hbrackets : Brackets r s₀ [[a], [b], [c, value]] s₁₁ := by
    refine .cons (by decide +kernel) (next s₀ (by decide +kernel)) (.last hreadA (by decide +kernel))
      (next s₂ (by decide +kernel)) ?_
    refine .cons (by decide +kernel) (next s₃ (by decide +kernel)) (.last hreadB (by decide +kernel))
      (next s₅ (by decide +kernel)) ?_
    exact .cons (by decide +kernel) (next s₆ (by decide +kernel))
      (.more hreadC (by decide +kernel) (next s₈ (by decide +kernel)) (.last hreadValue (by decide +kernel)))
      (next s₁₀ (by decide +kernel)) (.nil s₁₁)
  obtain ⟨⟨definition, ended⟩, hflags, hdefinition⟩ :=
    ok_of_passes (p := fun found => found.1.flags == ["Value", "Algebraic"]) (s := s₁₁)
      (x := (host.level 31).modifiedDefinition {} {} (Mark.ofSpan s₀.token.span)) (by decide +kernel)
  obtain ⟨v, hread, -, hdecorators⟩ := statementRule_decorated (Parser.ofScript_sound host _ _)
    (by decide +kernel) (by decide) (List.cons_ne_nil _ _) hbrackets hdefinition
  refine ⟨a, b, c, value, definition, ended, v, ha, hb, hc, hvalue, hread, hdecorators.trans ?_⟩
  rw [eq_of_beq hflags]
  simp [isNamed_other _ ha, isNamed_other _ hb, isNamed_other _ hc, hvalue]

end Statements

end ActionSyntax
