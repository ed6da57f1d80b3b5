import ActionSyntax.Grammar.Jumps
import ActionSyntax.Proofs.Elementary
import ActionSyntax.Proofs.Places.Errors
import ActionSyntax.Tree.Destructuring

/-!
Two readings of the same text, side by side. They differ only in that the second goes on where the
first may give up, as on an inclusion. Both walk through the text, the values they give lie where they
are said to be, and until the first one gives up they do the same.
-/

namespace ActionSyntax

set_option autoImplicit false

section Ranges

mutual

/-- The ranges of an expression that a problem may be reported at: its own, and those of its parts if
it is taken for a pattern or a parameter. -/
def Expr.spans : Expr → List Span
  | .array span items _ => span :: Expr.itemSpans items
  | .object span fields _ => span :: Expr.fieldSpans fields
  | .spread span e => span :: e.spans
  | .assignment span (.expression left) _ right => span :: right.span :: left.spans
  | e => [e.span]

def Expr.itemSpans : List (Option Expr) → List Span
  | [] => []
  | none :: rest => Expr.itemSpans rest
  | some e :: rest => e.spans ++ Expr.itemSpans rest

def Expr.fieldSpans : List ObjectItem → List Span
  | [] => []
  | .spread span _ :: rest => span :: Expr.fieldSpans rest
  | .field _ _ none :: rest => Expr.fieldSpans rest
  | .field _ _ (some value) :: rest => value.spans ++ Expr.fieldSpans rest

end

/-- The ranges of a type that a problem may be reported at, also if it is taken for a parameter. -/
def TypeExpr.spans : TypeExpr → List Span
  | .typed span base _ => span :: base.spans
  | .nullable span base => span :: base.spans
  | type => [type.span]

theorem Expr.span_mem_spans (e : Expr) : e.span ∈ e.spans := by
  unfold Expr.spans
  split <;> simp [Expr.span]

theorem TypeExpr.span_mem_spans (type : TypeExpr) : type.span ∈ type.spans := by
  cases type <;> simp [TypeExpr.spans, TypeExpr.span]

theorem error_of_bind {α β : Type} {x : Except Span α} {f : α → Except Span β} {bad : Span}
    (h : (x >>= f) = .error bad) : x = .error bad ∨ ∃ a, f a = .error bad := by
  cases x with
  | error e => cases h; exact Or.inl rfl
  | ok a => exact Or.inr ⟨a, h⟩

/-- A part that is no pattern is one that a problem may be reported at. -/
theorem Pattern.ofExpr_error {e : Expr} {bad : Span} :
    Pattern.ofExpr e = .error bad → bad ∈ e.spans := by
  have all := Pattern.ofExpr.mutual_induct
    (fun e => ∀ bad, Pattern.ofExpr e = .error bad → bad ∈ e.spans)
    (fun fields => ∀ bad, Pattern.ofFields fields = .error bad → bad ∈ Expr.fieldSpans fields)
    (fun items => ∀ bad, Pattern.ofItems items = .error bad → bad ∈ Expr.itemSpans items)
  refine (all ?identifier ?array ?object ?other ?noFields ?spreadField ?plainField ?valueField
    ?noItems ?hole ?spreadItem ?item).1 e bad
  case identifier => intro id bad h; cases h
  case array =>
    intro span items type ih bad h
    rcases error_of_bind h with h | ⟨_, h⟩
    · exact List.mem_cons_of_mem _ (ih bad h)
    · cases h
  case object =>
    intro span fields type ih bad h
    rcases error_of_bind h with h | ⟨_, h⟩
    · exact List.mem_cons_of_mem _ (ih bad h)
    · cases h
  case other =>
    intro e hid harray hobject bad h
    have hspan : Pattern.ofExpr e = .error e.span := by
      unfold Pattern.ofExpr
      split
      · exact (hid _ rfl).elim
      · exact (harray _ _ _ rfl).elim
      · exact (hobject _ _ _ rfl).elim
      · rfl
    rw [hspan] at h
    cases h
    exact e.span_mem_spans
  case noFields => intro bad h; cases h
  case spreadField =>
    intro span e rest bad h
    cases h
    exact List.mem_cons_self
  case plainField =>
    intro span key rest ih bad h
    rcases error_of_bind h with h | ⟨_, h⟩
    · exact ih bad h
    · cases h
  case valueField =>
    intro span key value rest hvalue hrest bad h
    rcases error_of_bind h with h | ⟨_, h⟩
    · exact List.mem_append_left _ (hvalue bad h)
    · rcases error_of_bind h with h | ⟨_, h⟩
      · exact List.mem_append_right _ (hrest bad h)
      · cases h
  case noItems => intro bad h; cases h
  case hole =>
    intro rest ih bad h
    rcases error_of_bind h with h | ⟨_, h⟩
    · exact ih bad h
    · cases h
  case spreadItem =>
    intro span e rest hitem hrest bad h
    rcases error_of_bind h with h | ⟨_, h⟩
    · exact List.mem_append_left _ (List.mem_cons_of_mem _ (hitem bad h))
    · rcases error_of_bind h with h | ⟨_, h⟩
      · exact List.mem_append_right _ (hrest bad h)
      · cases h
  case item =>
    intro e rest hspread hitem hrest bad h
    rw [Pattern.ofItems.eq_def] at h
    split at h
    · cases ‹some e :: rest = []›
    · cases ‹some e :: rest = none :: _›
    · cases ‹some e :: rest = some _ :: _›
      exact (hspread _ _ rfl).elim
    · cases ‹some e :: rest = some _ :: _›
      rcases error_of_bind h with h | ⟨_, h⟩
      · exact List.mem_append_left _ (hitem bad h)
      · rcases error_of_bind h with h | ⟨_, h⟩
        · exact List.mem_append_right _ (hrest bad h)
        · cases h

end Ranges

/-- A line and an offset. -/
abbrev Place := Nat × Nat

/-- The places that a problem may be reported at once a value has been read. -/
class Located (α : Type) where
  places : α → List Place

export Located (places)

namespace Located

variable {α β : Type}

/-- Most values have none. -/
instance (priority := low) nowhere : Located α := ⟨fun _ => []⟩

instance : Located Span := ⟨fun span => [(span.firstLine, span.start), (span.lastLine, span.stop)]⟩

instance : Located Mark := ⟨fun m => [(m.line, m.start)]⟩

instance : Located Token := ⟨fun t => places t.span⟩

instance : Located ParserState := ⟨fun s => places s.token ++ places s.previous⟩

instance : Located Identifier := ⟨fun id => places id.span⟩

instance : Located TypeExpr := ⟨fun type => type.spans.flatMap places⟩

instance : Located Expr := ⟨fun e => e.spans.flatMap places⟩

instance : Located VariableBinding := ⟨fun binding => places binding.span⟩

instance : Located VariableDeclaration := ⟨fun declaration => places declaration.span⟩

instance : Located Rules.Jump := ⟨fun j => places j.span⟩

instance [Located α] : Located (Option α) := ⟨fun a => a.toList.flatMap places⟩

instance [Located α] : Located (List α) := ⟨fun items => items.flatMap places⟩

instance [Located α] [Located β] : Located (α × β) := ⟨fun pair => places pair.1 ++ places pair.2⟩

instance : Located ForBinding where
  places
    | .variable declaration => places declaration
    | .expression e => places e

instance : Located AssignmentTarget where
  places
    | .expression e => places e
    | .pattern _ => []

instance : Located ObjectItem where
  places
    | .field _ _ value => places value
    | .spread span _ => places span

end Located

section Places

variable {α β : Type} [Located α] [Located β]

@[simp, grind =] theorem places_unit (a : Unit) : places a = [] := rfl

@[simp, grind =] theorem places_bool (b : Bool) : places b = [] := rfl

@[simp, grind =] theorem places_string (text : String) : places text = [] := rfl

@[simp, grind =] theorem places_mark (m : Mark) : places m = [(m.line, m.start)] := rfl

@[simp, grind =] theorem places_ofSpan (span : Span) :
    places (Mark.ofSpan span) = [(span.firstLine, span.start)] := rfl

@[grind .] theorem first_mem_places (span : Span) :
    (span.firstLine, span.start) ∈ places span := List.mem_cons_self

@[grind .] theorem last_mem_places (span : Span) : (span.lastLine, span.stop) ∈ places span :=
  List.mem_cons_of_mem _ List.mem_cons_self

@[simp, grind =] theorem places_to (a b : Span) :
    places (a.«to» b) = [(a.firstLine, a.start), (b.lastLine, b.stop)] := rfl

@[simp, grind =] theorem places_markTo (m : Mark) (span : Span) :
    places (m.«to» span) = [(m.line, m.start), (span.lastLine, span.stop)] := rfl

@[simp, grind =] theorem places_token (t : Token) : places t = places t.span := rfl

@[simp, grind =] theorem places_state (s : ParserState) :
    places s = places s.token.span ++ places s.previous.span := rfl

@[simp, grind =] theorem places_identifier (id : Identifier) : places id = places id.span := rfl

@[simp, grind =] theorem places_binding (binding : VariableBinding) :
    places binding = places binding.span := rfl

@[simp, grind =] theorem places_declaration (declaration : VariableDeclaration) :
    places declaration = places declaration.span := rfl

@[simp, grind =] theorem places_jump (j : Rules.Jump) : places j = places j.span := rfl

@[simp, grind =] theorem places_variable (declaration : VariableDeclaration) :
    places (ForBinding.variable declaration) = places declaration := rfl

@[simp, grind =] theorem places_expression (e : Expr) :
    places (ForBinding.expression e) = places e := rfl

@[simp, grind =] theorem places_target (e : Expr) :
    places (AssignmentTarget.expression e) = places e := rfl

@[simp, grind =] theorem places_field (span : Span) (key : Expr) (value : Option Expr) :
    places (ObjectItem.field span key value) = places value := rfl

@[simp, grind =] theorem places_spreadField (span : Span) (e : Expr) :
    places (ObjectItem.spread span e) = places span := rfl

@[simp, grind =] theorem places_none : places (none : Option α) = [] := rfl

@[simp, grind =] theorem places_some (a : α) : places (some a) = places a :=
  List.append_nil _

@[simp, grind =] theorem places_nil : places ([] : List α) = [] := rfl

@[simp, grind =] theorem places_cons (a : α) (items : List α) :
    places (a :: items) = places a ++ places items := rfl

@[simp, grind =] theorem places_append (items more : List α) :
    places (items ++ more) = places items ++ places more := List.flatMap_append

@[simp, grind =] theorem places_pair (a : α) (b : β) : places (a, b) = places a ++ places b := rfl

theorem places_type (type : TypeExpr) : places type = type.spans.flatMap places := rfl

theorem places_expr (e : Expr) : places e = e.spans.flatMap places := rfl

@[grind →] theorem mem_places_type {type : TypeExpr} {place : Place}
    (h : place ∈ places type.span) : place ∈ places type :=
  List.mem_flatMap.mpr ⟨_, type.span_mem_spans, h⟩

@[grind →] theorem mem_places_expr {e : Expr} {place : Place} (h : place ∈ places e.span) :
    place ∈ places e := List.mem_flatMap.mpr ⟨_, e.span_mem_spans, h⟩

@[grind .] theorem first_mem_places_type (type : TypeExpr) :
    (type.span.firstLine, type.span.start) ∈ places type := mem_places_type (first_mem_places _)

@[grind .] theorem last_mem_places_type (type : TypeExpr) :
    (type.span.lastLine, type.span.stop) ∈ places type := mem_places_type (last_mem_places _)

@[grind .] theorem first_mem_places_expr (e : Expr) :
    (e.span.firstLine, e.span.start) ∈ places e := mem_places_expr (first_mem_places _)

@[grind .] theorem last_mem_places_expr (e : Expr) :
    (e.span.lastLine, e.span.stop) ∈ places e := mem_places_expr (last_mem_places _)

@[simp, grind =] theorem places_name (span : Span) (name : String) :
    places (TypeExpr.name span name) = places span := rfl

@[simp, grind =] theorem places_union (span : Span) (members : List TypeExpr) :
    places (TypeExpr.union span members) = places span := rfl

@[simp, grind =] theorem places_identifierExpr (id : Identifier) :
    places (Expr.identifier id) = places id := rfl

@[simp, grind =] theorem places_unary (span : Span) (operator : Operator) (operand : Expr) :
    places (Expr.unary span operator operand) = places span := rfl

theorem itemSpans_places (items : List (Option Expr)) :
    (Expr.itemSpans items).flatMap places = places items := by
  induction items with
  | nil => rfl
  | cons item rest ih => cases item <;> simp [Expr.itemSpans, places_expr, ih]

theorem fieldSpans_places (fields : List ObjectItem) :
    (Expr.fieldSpans fields).flatMap places = places fields := by
  induction fields with
  | nil => rfl
  | cons field rest ih =>
    rcases field with ⟨_, _, _ | value⟩ | _
    · exact ih
    · simp [Expr.fieldSpans, places_expr, ih]
    · simp [Expr.fieldSpans, ih]

@[simp, grind =] theorem places_array (span : Span) (items : List (Option Expr))
    (type : Option TypeExpr) : places (Expr.array span items type) = places span ++ places items := by
  rw [places_expr, Expr.spans, List.flatMap_cons, itemSpans_places]

@[simp, grind =] theorem places_object (span : Span) (fields : List ObjectItem)
    (type : Option TypeExpr) :
    places (Expr.object span fields type) = places span ++ places fields := by
  rw [places_expr, Expr.spans, List.flatMap_cons, fieldSpans_places]

@[simp, grind =] theorem places_spread (span : Span) (e : Expr) :
    places (Expr.spread span e) = places span ++ places e := by
  rw [places_expr, Expr.spans, List.flatMap_cons, places_expr]

@[simp, grind =] theorem places_assignment (span : Span) (left right : Expr)
    (compound : Option Operator) :
    places (Expr.assignment span (.expression left) compound right) =
      places span ++ (places right.span ++ places left) := by
  rw [places_expr, Expr.spans, List.flatMap_cons, List.flatMap_cons, places_expr left]

@[simp, grind =] theorem places_assignmentTo (span : Span) (pattern : Pattern)
    (compound : Option Operator) (right : Expr) :
    places (Expr.assignment span (.pattern pattern) compound right) = places span := rfl

@[simp, grind =] theorem places_nullable (span : Span) (base : TypeExpr) :
    places (TypeExpr.nullable span base) = places span ++ places base := by
  rw [places_type, TypeExpr.spans, List.flatMap_cons, places_type]

@[simp, grind =] theorem places_typed (span : Span) (base type : TypeExpr) :
    places (TypeExpr.typed span base type) = places span ++ places base := by
  rw [places_type, TypeExpr.spans, List.flatMap_cons, places_type]

end Places

/-- The places are places of the text, and they have been passed. -/
def ParserState.Knows (s : ParserState) (known : List Place) : Prop :=
  ∀ place ∈ known, Lines.At s.script.content s.limit place.1 place.2

/-- A reading strides through the text, and what it gives lies where it has passed. -/
def Lands {α : Type} [Located α] (s : ParserState) : EStateM.Result Stop ParserState α → Prop
  | .ok a t => Strides s t ∧ t.Knows (places a)
  | .error _ t => Strides s t

/-- Where a reading came to an end. -/
def lastState {α : Type} : EStateM.Result Stop ParserState α → ParserState
  | .ok _ t => t
  | .error _ t => t

section Follows

variable (refused : ParserState → Prop)

/-- The state has been come to by way of one that is refused. -/
def Refuses (s : ParserState) : Prop := ∃ t, Walk t s ∧ refused t

/-- Two outcomes from one state. The second lands, and the first is the same unless it gave up, and
the second has come by a state that is refused then. -/
structure Meets {α : Type} [Located α] (s : ParserState)
    (p q : EStateM.Result Stop ParserState α) : Prop where
  lands : Lands s q
  agree : p = q ∨ (∃ t, p = .error .exhausted t) ∧ Refuses refused (lastState q)

/-- The first reading does what the second does, unless it gives up, wherever the places known have
been passed. -/
def Follows {α : Type} [Located α] (known : List Place) (x y : Parse α) : Prop :=
  ∀ s, s.Sound → s.Knows known → Meets refused s (x s) (y s)

end Follows

variable {refused : ParserState → Prop} {known : List Place} {s t : ParserState}
  {α β : Type}

namespace ParserState.Knows

theorem walk (h : s.Knows known) (hs : s.Sound) (hwalk : Walk s t) : t.Knows known := by
  intro place hplace
  rw [hwalk.content_eq]
  exact (h place hplace).mono (hwalk.sound hs).2

theorem append {more : List Place} (h : s.Knows more) (hknown : s.Knows known) :
    s.Knows (more ++ known) := fun place hplace =>
  (List.mem_append.mp hplace).elim (h place) (hknown place)

theorem subset {more : List Place} (h : s.Knows known) (hsub : more ⊆ known) : s.Knows more :=
  fun place hplace => h place (hsub hplace)

theorem of_ranges {span : Span} (h : s.Ranges span) : s.Knows (places span) := by
  simp only [Knows, places, List.forall_mem_cons]
  exact ⟨h.1, h.2, nofun⟩

theorem ranges {span : Span} (h : s.Knows (places span)) : s.Ranges span :=
  ⟨h (span.firstLine, span.start) (by simp [places]), h (span.lastLine, span.stop) (by simp [places])⟩

theorem state (hs : s.Sound) : s.Knows (places s) :=
  (of_ranges hs.token).append (of_ranges hs.previous)

end ParserState.Knows

theorem Refuses.walk (h : Refuses refused s) (hwalk : Walk s t) : Refuses refused t := by
  obtain ⟨u, hu, hrefused⟩ := h
  exact ⟨u, hu.trans hwalk, hrefused⟩

theorem Lands.strides [Located α] {q : EStateM.Result Stop ParserState α} (h : Lands s q) :
    Strides s (lastState q) := by
  cases q with
  | ok a t => exact h.1
  | error stop t => exact h

theorem Meets.of_lands [Located α] {q : EStateM.Result Stop ParserState α} (h : Lands s q) :
    Meets refused s q q := ⟨h, Or.inl rfl⟩

namespace Follows

variable [Located α] [Located β] {x y : Parse α} {f g : α → Parse β}

/-- Behind a value that has been read, only what may follow it has to be looked at. -/
theorem bind_meets (hs : s.Sound) (hx : Meets refused s (x s) (y s))
    (hf : ∀ a t, y s = .ok a t → Walk s t → t.Sound → t.Knows (places a) →
      Meets refused t (f a t) (g a t)) :
    Meets refused s ((x >>= f) s) ((y >>= g) s) := by
  show Meets refused s (EStateM.bind x f s) (EStateM.bind y g s)
  unfold EStateM.bind
  obtain ⟨hlands, hagree⟩ := hx
  cases hys : y s with
  | error stop t =>
    rw [hys] at hlands hagree
    refine ⟨hlands, ?_⟩
    rcases hagree with heq | ⟨⟨u, hu⟩, hrefuses⟩
    · rw [heq]
      exact Or.inl rfl
    · rw [hu]
      exact Or.inr ⟨⟨u, rfl⟩, hrefuses⟩
  | ok a t =>
    rw [hys] at hlands hagree
    obtain ⟨hstrides, hknows⟩ := hlands
    obtain ⟨hland, hgoes⟩ := hf a t hys hstrides.walk (hstrides.walk.sound hs).1 hknows
    refine ⟨?_, ?_⟩
    · dsimp only
      cases hgt : g a t with
      | ok b u =>
        rw [hgt] at hland
        exact ⟨hstrides.trans hland.1, hland.2⟩
      | error stop u =>
        rw [hgt] at hland
        exact hstrides.trans hland
    · rcases hagree with heq | ⟨⟨u, hu⟩, hrefuses⟩
      · rw [heq]
        exact hgoes
      · rw [hu]
        exact Or.inr ⟨⟨u, rfl⟩, hrefuses.walk hland.strides.walk⟩

theorem seq (hx : Follows refused known x y)
    (hf : ∀ a, Follows refused (places a ++ known) (f a) (g a)) :
    Follows refused known (x >>= f) (y >>= g) := fun s hs hknown =>
  bind_meets hs (hx s hs hknown) fun a t _ hwalk ht ha =>
    hf a t ht (ha.append (hknown.walk hs hwalk))

theorem pure (a : α) (ha : places a ⊆ known) :
    Follows refused known (Pure.pure a) (Pure.pure a) := fun s _ hknown =>
  .of_lands ⟨.refl s, hknown.subset ha⟩

omit [Located β] in
/-- What gives up at once may do so in the place of any reading, if every state is refused. -/
theorem exhausted (hx : Follows refused known x y) (hall : ∀ s, refused s) :
    Follows refused known Parse.exhausted y := fun s hs hknown =>
  ⟨(hx s hs hknown).lands, Or.inr ⟨⟨s, rfl⟩, _, .refl _, hall _⟩⟩

theorem ite {condition : Prop} {_ : Decidable condition} {x' y' : Parse α}
    (hx : Follows refused known x y) (hx' : Follows refused known x' y') :
    Follows refused known (if condition then x else x') (if condition then y else y') := by
  split
  · exact hx
  · exact hx'

/-- One of two readings, whose value is taken on in the same way. -/
theorem branch {condition : Prop} {_ : Decidable condition} {x' y' : Parse α}
    (hx : Follows refused known x y) (hx' : Follows refused known x' y')
    (hf : ∀ a, Follows refused (places a ++ known) (f a) (g a)) :
    Follows refused known (if condition then x >>= f else x' >>= f)
      (if condition then y >>= g else y' >>= g) := .ite (.seq hx hf) (.seq hx' hf)

/-- A reading that is left out unless a condition holds. -/
theorem optional {condition : Prop} {_ : Decidable condition} {x y : Parse Unit}
    {f g : Unit → Parse β} (hx : Follows refused known x y)
    (hf : Follows refused known (f ()) (g ())) :
    Follows refused known (if condition then x >>= f else f ())
      (if condition then y >>= g else g ()) := .ite (.seq hx fun _ => hf) hf

theorem map {h : α → β} (hx : Follows refused known x y)
    (hh : ∀ a, places (h a) ⊆ places a ++ known) :
    Follows refused known (h <$> x) (h <$> y) := by
  simp only [map_eq_pure_bind]
  exact .seq hx fun a => .pure _ (hh a)

theorem subset {more : List Place} (hx : Follows refused known x y) (hsub : known ⊆ more) :
    Follows refused more x y := fun s hs hknown => hx s hs (hknown.subset hsub)

omit [Located β] in
theorem forM {step : β → Parse Unit} (hstep : ∀ b, Follows refused known (step b) (step b)) :
    ∀ items : List β, Follows refused known (items.forM step) (items.forM step)
  | [] => .pure () (List.nil_subset _)
  | b :: items => .seq (hstep b) fun _ => (forM hstep items).subset (by simp)

end Follows

section Loops

variable [Located α] [Located β]

/-- A reading for each item. -/
theorem Follows.foldlM {γ : Type} [Located γ] {step : β → γ → Parse β} :
    ∀ {known : List Place} (items : List γ) (start : β), places items ⊆ known → places start ⊆ known →
      (∀ b, ∀ c ∈ items, ∀ more, places b ⊆ more → places c ⊆ more →
        Follows refused more (step b c) (step b c)) →
      Follows refused known (items.foldlM step start) (items.foldlM step start)
  | _, [], start, _, hstart, _ => .pure start hstart
  | known, c :: items, start, hitems, hstart, hstep => by
    have hsplit : places c ⊆ known ∧ places items ⊆ known := by
      simpa [places, List.flatMap_cons] using hitems
    refine .seq (hstep start c (by simp) known hstart hsplit.1) fun next => ?_
    refine foldlM items next (List.subset_append_of_subset_right _ hsplit.2) (by simp) ?_
    exact fun b c hc more => hstep b c (List.mem_cons_of_mem _ hc) more

end Loops

end ActionSyntax
