import ActionSyntax.Proofs.Follows.Contract

/-!
Patterns and the expressions that spell them. Every pattern can be written as an expression, taking an
expression for a pattern undoes exactly that, and an expression that spells none is refused at the
first part, in the order of the source, that stands in the way.
-/

namespace ActionSyntax

set_option autoImplicit false

section Traversal

variable {α β : Type} {f : α → Except Span β} {bad : Span}

theorem map_eq_ok_iff {γ : Type} {g : β → γ} {x : Except Span β} {c : γ} :
    g <$> x = .ok c ↔ ∃ b, x = .ok b ∧ g b = c := by
  cases x <;> simp [Functor.map, Except.map]

theorem map_ok_iff {γ : Type} {g : β → γ} {x : Except Span β} :
    (∃ c, g <$> x = .ok c) ↔ ∃ b, x = .ok b := by
  cases x <;> simp [Functor.map, Except.map]

theorem map_eq_error_iff {γ : Type} {g : β → γ} {x : Except Span β} :
    g <$> x = .error bad ↔ x = .error bad := by
  cases x <;> simp [Functor.map, Except.map]

/-- What a step undoes at each item, a traversal undoes on the list. -/
theorem mapM_eq_ok_iff_map {g : β → α} {xs : List α} {ys : List β}
    (h : ∀ x ∈ xs, ∀ y, f x = .ok y ↔ g y = x) : xs.mapM f = .ok ys ↔ ys.map g = xs := by
  induction xs generalizing ys with
  | nil => cases ys <;> simp [pure, Except.pure]
  | cons x xs ih =>
    have ih' : ∀ ys, xs.mapM f = .ok ys ↔ ys.map g = xs := fun ys =>
      ih fun x hx => h x (List.mem_cons_of_mem _ hx)
    rw [List.mapM_cons]
    constructor
    · intro hok
      obtain ⟨y, hx, hok⟩ := ok_of_bind hok
      obtain ⟨rest, hxs, hok⟩ := ok_of_bind hok
      cases hok
      rw [List.map_cons, (h x List.mem_cons_self y).mp hx, (ih' rest).mp hxs]
    · intro hmap
      cases ys with
      | nil => cases hmap
      | cons y rest =>
        obtain ⟨hy, hrest⟩ := List.cons.inj hmap
        rw [(h x List.mem_cons_self y).mpr hy, (ih' rest).mpr hrest]
        rfl

/-- A traversal succeeds exactly if its step succeeds at every item. -/
theorem mapM_ok_iff_forall {xs : List α} :
    (∃ ys, xs.mapM f = .ok ys) ↔ ∀ x ∈ xs, ∃ y, f x = .ok y := by
  induction xs with
  | nil => simp [pure, Except.pure]
  | cons x xs ih =>
    rw [List.forall_mem_cons, ← ih, List.mapM_cons]
    constructor
    · rintro ⟨ys, hok⟩
      obtain ⟨y, hx, hok⟩ := ok_of_bind hok
      obtain ⟨rest, hxs, -⟩ := ok_of_bind hok
      exact ⟨⟨y, hx⟩, ⟨rest, hxs⟩⟩
    · rintro ⟨⟨y, hx⟩, ⟨rest, hxs⟩⟩
      rw [hx, hxs]
      exact ⟨y :: rest, rfl⟩

/-- A traversal fails at the first item at which its step fails. -/
theorem mapM_eq_error_iff {xs : List α} :
    xs.mapM f = .error bad ↔ ∃ before x after, xs = before ++ x :: after ∧
      (∀ y ∈ before, ∃ z, f y = .ok z) ∧ f x = .error bad := by
  constructor
  · intro h
    induction xs with
    | nil => cases h
    | cons x xs ih =>
      rw [List.mapM_cons] at h
      cases hx : f x with
      | error e =>
        rw [hx] at h
        cases h
        exact ⟨[], x, xs, rfl, by simp, hx⟩
      | ok y =>
        have hrest : xs.mapM f = .error bad := by
          rw [hx] at h
          change (xs.mapM f >>= fun ys => pure (y :: ys)) = _ at h
          rcases error_of_bind h with h | ⟨_, h⟩
          · exact h
          · cases h
        obtain ⟨before, first, after, rfl, hbefore, hfirst⟩ := ih hrest
        refine ⟨x :: before, first, after, rfl, ?_, hfirst⟩
        exact List.forall_mem_cons.mpr ⟨⟨y, hx⟩, hbefore⟩
  · rintro ⟨before, x, after, rfl, hbefore, hx⟩
    obtain ⟨ys, hys⟩ := mapM_ok_iff_forall.mpr hbefore
    rw [List.mapM_append, hys, List.mapM_cons, hx]
    rfl

end Traversal

mutual

/-- The expression that spells a pattern. -/
def Pattern.toExpr : Pattern → Expr
  | .name span word type => .identifier { span, name := word, type }
  | .object span fields type => .object span (Pattern.fieldsToExpr fields) type
  | .array span items type => .array span (Pattern.itemsToExpr items) type

def Pattern.itemsToExpr : List PatternItem → List (Option Expr)
  | [] => []
  | .hole :: rest => none :: Pattern.itemsToExpr rest
  | .pattern p :: rest => some p.toExpr :: Pattern.itemsToExpr rest
  | .spread span p :: rest => some (.spread span p.toExpr) :: Pattern.itemsToExpr rest

def Pattern.fieldsToExpr : List PatternField → List ObjectItem
  | [] => []
  | { span, key, pattern := none } :: rest => .field span key none :: Pattern.fieldsToExpr rest
  | { span, key, pattern := some p } :: rest =>
    .field span key (some p.toExpr) :: Pattern.fieldsToExpr rest

end

def PatternItem.toItem : PatternItem → Option Expr
  | .hole => none
  | .pattern p => some p.toExpr
  | .spread span p => some (.spread span p.toExpr)

def PatternField.toItem (field : PatternField) : ObjectItem :=
  .field field.span field.key (field.pattern.map Pattern.toExpr)

theorem Pattern.itemsToExpr_eq_map (items : List PatternItem) :
    Pattern.itemsToExpr items = items.map PatternItem.toItem := by
  induction items with
  | nil => rfl
  | cons item rest ih =>
    cases item <;> simp only [Pattern.itemsToExpr, ih, List.map_cons, PatternItem.toItem]

theorem Pattern.fieldsToExpr_eq_map (fields : List PatternField) :
    Pattern.fieldsToExpr fields = fields.map PatternField.toItem := by
  induction fields with
  | nil => rfl
  | cons field rest ih =>
    obtain ⟨span, key, value⟩ := field
    cases value <;>
      simp only [Pattern.fieldsToExpr, ih, List.map_cons, PatternField.toItem, Option.map]

/-- What is spread, or the expression itself. -/
def Expr.unspread : Expr → Expr
  | .spread _ e => e
  | e => e

/-- The item of an array pattern that an item of an array becomes with its pattern. -/
def Expr.patternItem : Expr → Pattern → PatternItem
  | .spread span _ => .spread span
  | _ => .pattern

/-- Whether an expression has the form of a pattern, whatever its parts are. -/
def Expr.hasPatternForm : Expr → Bool
  | .identifier _ | .array .. | .object .. => true
  | _ => false

/-- An item of an array as an item of a pattern. -/
def Pattern.ofItem : Option Expr → Except Span PatternItem
  | none => .ok .hole
  | some e => e.patternItem <$> Pattern.ofExpr e.unspread

/-- An item of an object as a field of a pattern. -/
def Pattern.ofField : ObjectItem → Except Span PatternField
  | .spread span _ => .error span
  | .field span key none => .ok { span, key, pattern := none }
  | .field span key (some value) =>
    (fun p => { span, key, pattern := some p }) <$> Pattern.ofExpr value

theorem Pattern.ofItems_eq_mapM (items : List (Option Expr)) :
    Pattern.ofItems items = items.mapM Pattern.ofItem := by
  induction items with
  | nil => rfl
  | cons item rest ih =>
    rw [List.mapM_cons, ← ih]
    cases item with
    | none => rfl
    | some e =>
      rw [Pattern.ofItem, bind_map_left]
      cases e <;> rfl

theorem Pattern.ofFields_eq_mapM (fields : List ObjectItem) :
    Pattern.ofFields fields = fields.mapM Pattern.ofField := by
  induction fields with
  | nil => rfl
  | cons field rest ih =>
    rw [List.mapM_cons, ← ih]
    cases field with
    | spread span e => rfl
    | field span key value =>
      cases value with
      | none => rfl
      | some value =>
        rw [Pattern.ofField, bind_map_left]
        rfl

namespace Pattern

theorem ofExpr_array (span : Span) (items : List (Option Expr)) (type : Option TypeExpr) :
    ofExpr (.array span items type) = (.array span · type) <$> items.mapM ofItem := by
  rw [← ofItems_eq_mapM, map_eq_pure_bind]
  rfl

theorem ofExpr_object (span : Span) (fields : List ObjectItem) (type : Option TypeExpr) :
    ofExpr (.object span fields type) = (.object span · type) <$> fields.mapM ofField := by
  rw [← ofFields_eq_mapM, map_eq_pure_bind]
  rfl

theorem ofExpr_other {e : Expr} (h : e.hasPatternForm = false) : ofExpr e = .error e.span := by
  cases e <;> first | rfl | cases h

end Pattern

theorem Expr.sizeOf_unspread_le (e : Expr) : sizeOf e.unspread ≤ sizeOf e := by
  cases e with
  | spread span e =>
    rw [Expr.spread.sizeOf_spec]
    exact Nat.le_add_left _ _
  | _ => exact Nat.le_refl _

/-- Induction over the parts of an expression that may spell the parts of a pattern. -/
@[elab_as_elim]
theorem Expr.pattern_induction {motive : Expr → Prop}
    (identifier : ∀ id, motive (.identifier id))
    (array : ∀ span items type, (∀ e, some e ∈ items → motive e.unspread) →
      motive (.array span items type))
    (object : ∀ span fields type,
      (∀ span key value, .field span key (some value) ∈ fields → motive value) →
      motive (.object span fields type))
    (other : ∀ e : Expr, e.hasPatternForm = false → motive e) (e : Expr) : motive e := by
  induction hsize : sizeOf e using Nat.strong_induction_on generalizing e with
  | _ n ih =>
    subst hsize
    cases e with
    | identifier id => exact identifier id
    | array span items type =>
      apply array
      intro part hmem
      have hitem := List.sizeOf_lt_of_mem hmem
      have hpart := part.sizeOf_unspread_le
      rw [Option.some.sizeOf_spec] at hitem
      refine ih _ ?_ _ rfl
      rw [Expr.array.sizeOf_spec]
      omega
    | object span fields type =>
      apply object
      intro span key value hmem
      have hfield := List.sizeOf_lt_of_mem hmem
      rw [ObjectItem.field.sizeOf_spec, Option.some.sizeOf_spec] at hfield
      refine ih _ ?_ _ rfl
      rw [Expr.object.sizeOf_spec]
      omega
    | _ => exact other _ rfl

namespace Pattern

theorem toExpr_hasPatternForm (p : Pattern) : p.toExpr.hasPatternForm = true := by
  cases p <;> rfl

theorem unspread_of_toExpr {p : Pattern} {e : Expr} (h : p.toExpr = e) :
    e.unspread = e ∧ e.patternItem = .pattern := by
  subst h
  cases p <;> exact ⟨rfl, rfl⟩

/-- Taking an item for a pattern undoes spelling it if that holds of its expression. -/
theorem ofItem_eq_ok_iff {item : Option Expr}
    (h : ∀ e, item = some e → ∀ p, ofExpr e.unspread = .ok p ↔ p.toExpr = e.unspread)
    (taken : PatternItem) : ofItem item = .ok taken ↔ taken.toItem = item := by
  cases item with
  | none => cases taken <;> simp [ofItem, PatternItem.toItem]
  | some e =>
    rw [ofItem, map_eq_ok_iff]
    simp only [h e rfl]
    constructor
    · rintro ⟨p, hp, rfl⟩
      cases e <;> simp_all [Expr.patternItem, Expr.unspread, PatternItem.toItem]
    · intro htaken
      cases taken with
      | hole => cases htaken
      | pattern p =>
        have hp : p.toExpr = e := Option.some.inj htaken
        obtain ⟨hself, hitem⟩ := unspread_of_toExpr hp
        exact ⟨p, hp.trans hself.symm, by rw [hitem]⟩
      | spread span p =>
        cases htaken
        exact ⟨p, rfl, rfl⟩

theorem ofField_eq_ok_iff {field : ObjectItem}
    (h : ∀ span key value, field = .field span key (some value) →
      ∀ p, ofExpr value = .ok p ↔ p.toExpr = value)
    (taken : PatternField) : ofField field = .ok taken ↔ taken.toItem = field := by
  obtain ⟨span', key', pattern⟩ := taken
  cases field with
  | spread span e => simp [ofField, PatternField.toItem]
  | field span key value =>
    cases value with
    | none => cases pattern <;> simp [ofField, PatternField.toItem, eq_comm]
    | some value =>
      rw [ofField, map_eq_ok_iff]
      simp only [h span key value rfl]
      constructor
      · rintro ⟨p, rfl, htaken⟩
        cases htaken
        rfl
      · intro htaken
        cases pattern with
        | none => cases htaken
        | some p =>
          cases htaken
          exact ⟨p, rfl, rfl⟩

/-- Taking an expression for a pattern is the inverse of spelling a pattern. -/
theorem ofExpr_eq_ok_iff (e : Expr) (p : Pattern) : ofExpr e = .ok p ↔ p.toExpr = e := by
  induction e using Expr.pattern_induction generalizing p with
  | identifier id =>
    constructor
    · rintro ⟨⟩
      cases id
      rfl
    · intro h
      cases p <;> cases h
      rfl
  | array span items type ih =>
    rw [ofExpr_array, map_eq_ok_iff]
    simp only [mapM_eq_ok_iff_map fun item hmem => ofItem_eq_ok_iff fun e he => ih e (he ▸ hmem)]
    constructor
    · rintro ⟨taken, rfl, rfl⟩
      rw [toExpr, itemsToExpr_eq_map]
    · intro h
      cases p <;> cases h
      exact ⟨_, (itemsToExpr_eq_map _).symm, rfl⟩
  | object span fields type ih =>
    rw [ofExpr_object, map_eq_ok_iff]
    simp only [mapM_eq_ok_iff_map fun item hmem =>
      ofField_eq_ok_iff fun span key value he => ih span key value (he ▸ hmem)]
    constructor
    · rintro ⟨taken, rfl, rfl⟩
      rw [toExpr, fieldsToExpr_eq_map]
    · intro h
      cases p <;> cases h
      exact ⟨_, (fieldsToExpr_eq_map _).symm, rfl⟩
  | other e h =>
    rw [ofExpr_other h]
    constructor
    · rintro ⟨⟩
    · rintro rfl
      rw [p.toExpr_hasPatternForm] at h
      cases h

end Pattern

/-- An expression that spells a pattern: an identifier, an array of holes, of such expressions and of
such expressions spread, or an object of fields that have no value or such a value. -/
inductive Expr.SpellsPattern : Expr → Prop where
  | identifier (id : Identifier) : SpellsPattern (.identifier id)
  | array {span : Span} {items : List (Option Expr)} {type : Option TypeExpr}
    (each : ∀ e, some e ∈ items → SpellsPattern e.unspread) : SpellsPattern (.array span items type)
  | object {span : Span} {fields : List ObjectItem} {type : Option TypeExpr}
    (noSpread : ∀ at' e, .spread at' e ∉ fields)
    (each : ∀ at' key value, .field at' key (some value) ∈ fields → SpellsPattern value) :
    SpellsPattern (.object span fields type)

/-- The part with this range is the first one, in the order of the source, that keeps an expression
from spelling a pattern. Everything before it spells one. -/
inductive Expr.FirstFault : Expr → Span → Prop where
  | form {e : Expr} (other : e.hasPatternForm = false) : FirstFault e e.span
  | item {span bad : Span} {before after : List (Option Expr)} {e : Expr} {type : Option TypeExpr}
    (fine : (Expr.array span before type).SpellsPattern) (fault : FirstFault e.unspread bad) :
    FirstFault (.array span (before ++ some e :: after) type) bad
  | value {span at' bad : Span} {before after : List ObjectItem} {key value : Expr}
    {type : Option TypeExpr} (fine : (Expr.object span before type).SpellsPattern)
    (fault : FirstFault value bad) :
    FirstFault (.object span (before ++ .field at' key (some value) :: after) type) bad
  | spread {span bad : Span} {before after : List ObjectItem} {e : Expr} {type : Option TypeExpr}
    (fine : (Expr.object span before type).SpellsPattern) :
    FirstFault (.object span (before ++ .spread bad e :: after) type) bad

namespace Pattern

theorem ofItem_ok_iff {item : Option Expr} : (∃ taken, ofItem item = .ok taken) ↔
    ∀ e, item = some e → ∃ p, ofExpr e.unspread = .ok p := by
  cases item with
  | none => simp [ofItem]
  | some e => simp only [ofItem, map_ok_iff, Option.some.injEq, forall_eq']

theorem ofField_ok_iff {field : ObjectItem} : (∃ taken, ofField field = .ok taken) ↔
    (∀ span e, field ≠ .spread span e) ∧
      ∀ span key value, field = .field span key (some value) → ∃ p, ofExpr value = .ok p := by
  cases field with
  | spread span e => simp [ofField]
  | field span key value => cases value <;> simp [ofField, map_ok_iff]

theorem ofItem_eq_error_iff {item : Option Expr} {bad : Span} : ofItem item = .error bad ↔
    ∃ e, item = some e ∧ ofExpr e.unspread = .error bad := by
  cases item with
  | none => simp [ofItem]
  | some e => simp [ofItem, map_eq_error_iff]

theorem ofField_eq_error_iff {field : ObjectItem} {bad : Span} : ofField field = .error bad ↔
    (∃ e, field = .spread bad e) ∨
      ∃ span key value, field = .field span key (some value) ∧ ofExpr value = .error bad := by
  cases field with
  | spread span e => simp [ofField, eq_comm]
  | field span key value => cases value <;> simp [ofField, map_eq_error_iff, and_assoc]

/-- An expression can be taken for a pattern exactly if it spells one. -/
theorem ofExpr_ok_iff (e : Expr) : (∃ p, ofExpr e = .ok p) ↔ e.SpellsPattern := by
  induction e using Expr.pattern_induction with
  | identifier id => exact ⟨fun _ => .identifier id, fun _ => ⟨_, rfl⟩⟩
  | array span items type ih =>
    rw [ofExpr_array, map_ok_iff, mapM_ok_iff_forall]
    constructor
    · intro h
      exact .array fun e hmem => (ih e hmem).mp (ofItem_ok_iff.mp (h _ hmem) e rfl)
    · rintro (_ | each) item hmem
      apply ofItem_ok_iff.mpr
      rintro e rfl
      exact (ih e hmem).mpr (each e hmem)
  | object span fields type ih =>
    rw [ofExpr_object, map_ok_iff, mapM_ok_iff_forall]
    constructor
    · intro h
      apply Expr.SpellsPattern.object
      · intro at' e hmem
        exact (ofField_ok_iff.mp (h _ hmem)).1 at' e rfl
      · intro at' key value hmem
        exact (ih at' key value hmem).mp ((ofField_ok_iff.mp (h _ hmem)).2 at' key value rfl)
    · rintro (_ | _ | ⟨noSpread, each⟩) field hmem
      apply ofField_ok_iff.mpr
      constructor
      · rintro at' e rfl
        exact noSpread at' e hmem
      · rintro at' key value rfl
        exact (ih at' key value hmem).mpr (each at' key value hmem)
  | other e h =>
    rw [ofExpr_other h]
    constructor
    · rintro ⟨_, ⟨⟩⟩
    · intro hspells
      cases hspells <;> cases h

/-- The items of an array are taken up to one exactly if they spell a pattern by themselves. -/
theorem ofItems_ok_iff {span : Span} {items : List (Option Expr)} {type : Option TypeExpr} :
    (∀ item ∈ items, ∃ taken, ofItem item = .ok taken) ↔
      (Expr.array span items type).SpellsPattern := by
  rw [← ofExpr_ok_iff, ofExpr_array, map_ok_iff, mapM_ok_iff_forall]

theorem ofFields_ok_iff {span : Span} {fields : List ObjectItem} {type : Option TypeExpr} :
    (∀ field ∈ fields, ∃ taken, ofField field = .ok taken) ↔
      (Expr.object span fields type).SpellsPattern := by
  rw [← ofExpr_ok_iff, ofExpr_object, map_ok_iff, mapM_ok_iff_forall]

/-- An expression is refused at its first fault. -/
theorem ofExpr_eq_error_iff (e : Expr) (bad : Span) :
    ofExpr e = .error bad ↔ e.FirstFault bad := by
  constructor
  · induction e using Expr.pattern_induction with
    | identifier id => rintro ⟨⟩
    | array span items type ih =>
      rw [ofExpr_array, map_eq_error_iff, mapM_eq_error_iff]
      rintro ⟨before, item, after, rfl, hbefore, hitem⟩
      obtain ⟨e, rfl, hfault⟩ := ofItem_eq_error_iff.mp hitem
      exact .item (ofItems_ok_iff.mp hbefore) (ih e (by simp) hfault)
    | object span fields type ih =>
      rw [ofExpr_object, map_eq_error_iff, mapM_eq_error_iff]
      rintro ⟨before, field, after, rfl, hbefore, hfield⟩
      rcases ofField_eq_error_iff.mp hfield with ⟨e, rfl⟩ | ⟨at', key, value, rfl, hfault⟩
      · exact .spread (ofFields_ok_iff.mp hbefore)
      · exact .value (ofFields_ok_iff.mp hbefore) (ih at' key value (by simp) hfault)
    | other e h =>
      rw [ofExpr_other h]
      rintro ⟨⟩
      exact .form h
  · intro h
    induction h with
    | form other => exact ofExpr_other other
    | item fine _ ih =>
      rw [ofExpr_array, map_eq_error_iff, mapM_eq_error_iff]
      exact ⟨_, _, _, rfl, ofItems_ok_iff.mpr fine, ofItem_eq_error_iff.mpr ⟨_, rfl, ih⟩⟩
    | value fine _ ih =>
      rw [ofExpr_object, map_eq_error_iff, mapM_eq_error_iff]
      exact ⟨_, _, _, rfl, ofFields_ok_iff.mpr fine,
        ofField_eq_error_iff.mpr (Or.inr ⟨_, _, _, rfl, ih⟩)⟩
    | spread fine =>
      rw [ofExpr_object, map_eq_error_iff, mapM_eq_error_iff]
      exact ⟨_, _, _, rfl, ofFields_ok_iff.mpr fine, ofField_eq_error_iff.mpr (Or.inl ⟨_, rfl⟩)⟩

end Pattern

/-- The problem at a part that is no pattern. -/
def Problem.noTarget (bad : Span) : Problem where
  id := .invalidDestructuringAssignmentTarget
  severity := .syntaxError
  span := bad

namespace Rules

theorem asPattern_of_ok {e : Expr} {p : Pattern} (h : Pattern.ofExpr e = .ok p) (s : ParserState) :
    asPattern e s = .ok p s := by
  unfold asPattern
  rw [h]
  rfl

theorem asPattern_of_error {e : Expr} {bad : Span} (h : Pattern.ofExpr e = .error bad)
    (s : ParserState) :
    asPattern e s = .error (.problem (.noTarget bad)) (s.collect (.noTarget bad)) := by
  unfold asPattern
  rw [h]
  rfl

/-- Taking an expression for a pattern succeeds exactly on those that spell one, gives the pattern
that is spelled by just this expression, and changes nothing. All others have one first fault, and the
only problem is recorded there. -/
theorem asPattern_inverts_toExpr (e : Expr) (s : ParserState) :
    (∀ p t, asPattern e s = .ok p t ↔ p.toExpr = e ∧ t = s) ∧
    ((∃ p t, asPattern e s = .ok p t) ↔ e.SpellsPattern) ∧
    (∀ stop t, asPattern e s = .error stop t ↔ ∃ bad, e.FirstFault bad ∧
      stop = .problem (.noTarget bad) ∧ t = s.collect (.noTarget bad)) ∧
    (¬ e.SpellsPattern ↔ ∃! bad, e.FirstFault bad) := by
  simp only [← Pattern.ofExpr_eq_ok_iff, ← Pattern.ofExpr_ok_iff, ← Pattern.ofExpr_eq_error_iff]
  cases h : Pattern.ofExpr e with
  | ok p =>
    rw [asPattern_of_ok h]
    simp [eq_comm, ExistsUnique]
  | error bad =>
    rw [asPattern_of_error h]
    simp [eq_comm]

end Rules

end ActionSyntax
