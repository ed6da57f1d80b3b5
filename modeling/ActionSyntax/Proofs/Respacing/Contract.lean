import ActionSyntax.Proofs.Elementary
import ActionSyntax.Proofs.Shadows.Bare

/-!
Two texts that part at a gap, and a third one that ends with the gap of the first. Until the gap is passed
the three are read alike. Behind it the first two are read alike, but for the places, whether the reading
goes on or stops; the third one is at its end there, and tells by that whether the gap has been passed.
-/

namespace ActionSyntax

set_option autoImplicit false

section Bare

/-- What has been found, but not where. -/
@[simp] def Problem.bare (p : Problem) : Problem := { p with span := default }

@[simp] def Stop.bare : Stop → Stop
  | .problem p => .problem p.bare
  | .exhausted => .exhausted

instance : Bare Problem := ⟨Problem.bare⟩

instance : Bare Stop := ⟨Stop.bare⟩

@[simp] theorem bare_problem : (bare : Problem → Problem) = Problem.bare := rfl

@[simp] theorem bare_stop : (bare : Stop → Stop) = Stop.bare := rfl

theorem Problem.isWarning_of_matches {p q : Problem} (h : Matches p q) : p.isWarning = q.isWarning := by
  obtain ⟨id, severity, span, arguments⟩ := p
  obtain ⟨id', severity', span', arguments'⟩ := q
  simp at h
  simp [isWarning, h]

end Bare

/-- The same has been found in both scripts, and both include the same. -/
structure Script.Alike (s t : Script) : Prop where
  problems : Matches s.problems.toList t.problems.toList
  valid : s.valid = t.valid
  included : s.included = t.included

namespace Script.Alike

variable {s t : Script}

theorem collect {p q : Problem} (h : s.Alike t) (hpq : Matches p q) :
    (s.collect p).Alike (t.collect q) where
  problems := by
    have hproblems := h.problems
    simp_all [Script.collect]
  valid := by
    simp only [Script.collect, h.valid, Problem.isWarning_of_matches hpq]
  included := h.included

theorem addIncluded (h : s.Alike t) (child : Script) :
    (s.addIncluded child).Alike (t.addIncluded child) :=
  ⟨h.problems, h.valid, by simp only [Script.addIncluded, h.included]⟩

end Script.Alike

/-- Two tokens that say the same on the same lines, and are equally long. -/
structure Token.Twin (t u : Token) : Prop where
  lexeme : t.toLexeme = u.toLexeme
  firstLine : t.span.firstLine = u.span.firstLine
  lastLine : t.span.lastLine = u.span.lastLine
  length : t.rawLength = u.rawLength

namespace Token.Twin

variable {t u : Token}

theorem refl (t : Token) : t.Twin t := ⟨rfl, rfl, rfl, rfl⟩

variable (h : t.Twin u)
include h

theorem kind : t.kind = u.kind := congrArg Lexeme.kind h.lexeme

theorem text : t.text = u.text := congrArg Lexeme.text h.lexeme

theorem number : t.number = u.number := congrArg Lexeme.number h.lexeme

theorem flags : t.flags = u.flags := congrArg Lexeme.flags h.lexeme

theorem operator : t.operator = u.operator := congrArg Lexeme.operator h.lexeme

theorem isKeyword (word : String) : t.isKeyword word = u.isKeyword word := by
  unfold Token.isKeyword
  rw [h.kind, h.text]

theorem isOperator (op : Operator) : t.isOperator op = u.isOperator op := by
  unfold Token.isOperator
  rw [h.kind, h.operator]

theorem isCompoundAssignment (op : Operator) :
    t.isCompoundAssignment op = u.isCompoundAssignment op := by
  unfold Token.isCompoundAssignment
  rw [h.kind, h.operator]

theorem isContextKeyword (word : String) : t.isContextKeyword word = u.isContextKeyword word := by
  unfold Token.isContextKeyword
  rw [h.kind, h.text, h.length]

theorem isWord : Parse.isWord t = Parse.isWord u := by
  unfold Parse.isWord
  rw [h.kind]

theorem afterGreater? : Parse.afterGreater? t = Parse.afterGreater? u := by
  unfold Parse.afterGreater?
  rw [h.kind, h.operator]

theorem argument : Argument.ofToken t = Argument.ofToken u := by
  unfold Argument.ofToken
  rw [h.kind, h.operator, h.text]

end Token.Twin

/-- What the rules of the grammar see of a state. -/
structure View where
  token : Token
  previous : Token
  functions : List FunctionUse
  superFound : Bool
  path : String
  indentedFurther : Bool

namespace View

def onSameLine (v : View) : Bool := v.previous.span.lastLine == v.token.span.firstLine

def continues (v : View) : Bool :=
  v.previous.span.firstLine == v.token.span.firstLine || v.indentedFurther

def endsStatement (v : View) : Bool :=
  v.previous.kind == .rightBrace || (!v.onSameLine && !v.indentedFurther)

/-- Two views differ in places only. -/
structure Like (v w : View) : Prop where
  token : v.token.Twin w.token
  previous : v.previous.Twin w.previous
  functions : v.functions = w.functions
  superFound : v.superFound = w.superFound
  path : v.path = w.path
  indentedFurther : v.indentedFurther = w.indentedFurther

namespace Like

variable {v w : View}

theorem refl (v : View) : v.Like v := ⟨.refl _, .refl _, rfl, rfl, rfl, rfl⟩

variable (h : v.Like w)
include h

theorem onSameLine : v.onSameLine = w.onSameLine := by
  unfold View.onSameLine
  rw [h.previous.lastLine, h.token.firstLine]

theorem continues : v.continues = w.continues := by
  unfold View.continues
  rw [h.previous.firstLine, h.token.firstLine, h.indentedFurther]

theorem endsStatement : v.endsStatement = w.endsStatement := by
  unfold View.endsStatement
  rw [h.previous.kind, h.onSameLine, h.indentedFurther]

end Like

end View

def ParserState.view (s : ParserState) : View where
  token := s.token
  previous := s.previous
  functions := s.functions
  superFound := s.superFound
  path := s.script.path
  indentedFurther := s.indentedFurther

section Outcomes

variable {α β : Type}

/-- Both readings go on, with values that go together and states that are near each other, or both stop
at the same problem with the same found before. -/
inductive EndAlike (near : ParserState → ParserState → Prop) (goes : α → β → Prop) :
    EStateM.Result Stop ParserState α → EStateM.Result Stop ParserState β → Prop
  | ok {a : α} {b : β} {s t : ParserState} (value : goes a b) (close : near s t) :
      EndAlike near goes (.ok a s) (.ok b t)
  | stopped {stop stop' : Stop} {s t : ParserState} (same : Matches stop stop')
      (scripts : s.script.Alike t.script) : EndAlike near goes (.error stop s) (.error stop' t)

/-- The reading has gone astray, or stopped before it arrived. -/
inductive Strays (astray arrived : ParserState → Prop) : EStateM.Result Stop ParserState α → Prop
  | ok {a : α} {s : ParserState} (gone : astray s) : Strays astray arrived (.ok a s)
  | stopped {stop : Stop} {s : ParserState} (short : ¬ arrived s) :
      Strays astray arrived (.error stop s)

/-- What becomes of three readings in front of the gap. -/
inductive PartAlike (before : ParserState → ParserState → ParserState → Prop)
    (beyond : ParserState → ParserState → Prop) (astray arrived : ParserState → Prop)
    (goes : α → β → Prop) : EStateM.Result Stop ParserState α →
      EStateM.Result Stop ParserState α → EStateM.Result Stop ParserState β → Prop
  /-- All of them are still in front of it. -/
  | kept {a : α} {b : β} {c s t : ParserState} (value : goes a b) (close : before c s t) :
      PartAlike before beyond astray arrived goes (.ok a c) (.ok a s) (.ok b t)
  /-- The two texts that go on are read behind it. -/
  | past {p q : EStateM.Result Stop ParserState α} {r : EStateM.Result Stop ParserState β}
      (ends : EndAlike beyond goes q r) : PartAlike before beyond astray arrived goes p q r
  /-- The gap is no gap between tokens. -/
  | astray {p q : EStateM.Result Stop ParserState α} {r : EStateM.Result Stop ParserState β}
      (gone : Strays astray arrived p) : PartAlike before beyond astray arrived goes p q r

end Outcomes

/-- Which states go together in front of a gap and behind it. The state of the text that ends with the gap
comes first. It has arrived if the gap turned out to be one; a state that has gone astray never will. -/
structure Fork where
  before : ParserState → ParserState → ParserState → Prop
  beyond : ParserState → ParserState → Prop
  astray : ParserState → Prop
  arrived : ParserState → Prop
  before_short : ∀ {c s t}, before c s t → ¬ arrived c
  before_proper : ∀ {c s t}, before c s t → c.token.kind ≠ .endOfProgram
  astray_short : ∀ {c}, astray c → ¬ arrived c
  before_view : ∀ {c s t}, before c s t → c.view = s.view ∧ s.view.Like t.view
  beyond_view : ∀ {s t}, beyond s t → s.view.Like t.view
  beyond_alike : ∀ {s t}, beyond s t → s.script.Alike t.script
  before_next : ∀ {c s t}, before c s t →
    PartAlike before beyond astray arrived Eq (Parse.next c) (Parse.next s) (Parse.next t)
  beyond_next : ∀ {s t}, beyond s t → EndAlike beyond Eq (Parse.next s) (Parse.next t)
  astray_next : ∀ {c}, astray c → Strays astray arrived (Parse.next c)
  before_regular : ∀ {c s t}, before c s t → PartAlike before beyond astray arrived Eq
    (Parse.scan Scanner.readRegularExpression c) (Parse.scan Scanner.readRegularExpression s)
    (Parse.scan Scanner.readRegularExpression t)
  beyond_regular : ∀ {s t}, beyond s t → EndAlike beyond Eq
    (Parse.scan Scanner.readRegularExpression s) (Parse.scan Scanner.readRegularExpression t)
  astray_regular : ∀ {c}, astray c →
    Strays astray arrived (Parse.scan Scanner.readRegularExpression c)
  before_split : ∀ {c s t kind operator}, before c s t →
    Parse.afterGreater? c.token = some (kind, operator) →
    before (c.split kind operator) (s.split kind operator) (t.split kind operator)
  beyond_split : ∀ {s t kind operator}, beyond s t →
    Parse.afterGreater? s.token = some (kind, operator) →
    beyond (s.split kind operator) (t.split kind operator)
  astray_split : ∀ {c kind operator}, astray c →
    Parse.afterGreater? c.token = some (kind, operator) → astray (c.split kind operator)
  before_collect : ∀ {c s t p q}, before c s t → Matches p q →
    before (c.collect p) (s.collect p) (t.collect q)
  beyond_collect : ∀ {s t p q}, beyond s t → Matches p q → beyond (s.collect p) (t.collect q)
  astray_collect : ∀ {c}, astray c → ∀ p, astray (c.collect p)
  before_functions : ∀ {c s t}, before c s t → ∀ functions,
    before { c with functions } { s with functions } { t with functions }
  beyond_functions : ∀ {s t}, beyond s t → ∀ functions,
    beyond { s with functions } { t with functions }
  astray_functions : ∀ {c}, astray c → ∀ functions, astray { c with functions }
  before_superFound : ∀ {c s t}, before c s t → ∀ superFound,
    before { c with superFound } { s with superFound } { t with superFound }
  beyond_superFound : ∀ {s t}, beyond s t → ∀ superFound,
    beyond { s with superFound } { t with superFound }
  astray_superFound : ∀ {c}, astray c → ∀ superFound, astray { c with superFound }
  arrived_superFound : ∀ {c superFound}, arrived { c with superFound } → arrived c
  before_addIncluded : ∀ {c s t}, before c s t → ∀ child,
    before (c.addIncluded child) (s.addIncluded child) (t.addIncluded child)
  beyond_addIncluded : ∀ {s t}, beyond s t → ∀ child,
    beyond (s.addIncluded child) (t.addIncluded child)
  astray_addIncluded : ∀ {c}, astray c → ∀ child, astray (c.addIncluded child)

/-- The second reading of a text with another gap goes like the first one. -/
structure Respaces (F : Fork) {α β : Type} (goes : α → β → Prop) (x : Parse α) (y : Parse β) : Prop where
  before : ∀ {c s t}, F.before c s t →
    PartAlike F.before F.beyond F.astray F.arrived goes (x c) (x s) (y t)
  beyond : ∀ {s t}, F.beyond s t → EndAlike F.beyond goes (x s) (y t)
  astray : ∀ {c}, F.astray c → Strays F.astray F.arrived (x c)

namespace Respaces

open Parse

variable {F : Fork} {α α' β β' : Type} {R : α → α' → Prop} {S : β → β' → Prop}
  {x : Parse α} {x' : Parse α'} {f : α → Parse β} {f' : α' → Parse β'}

theorem pure {a : α} {a' : α'} (h : R a a') : Respaces F R (Pure.pure a) (Pure.pure a') :=
  ⟨fun hcst => .kept h hcst, fun hst => .ok h hst, fun hc => .ok hc⟩

section Bind

variable {p q : EStateM.Result Stop ParserState α} {r : EStateM.Result Stop ParserState α'}

/-- What is read on from an outcome. -/
def onward (f : α → Parse β) : EStateM.Result Stop ParserState α → EStateM.Result Stop ParserState β
  | .ok a s => f a s
  | .error stop s => .error stop s

theorem bind_apply (x : Parse α) (f : α → Parse β) (s : ParserState) : (x >>= f) s = onward f (x s) := by
  show EStateM.bind x f s = _
  unfold EStateM.bind
  cases x s <;> rfl

theorem endAlike_onward (h : EndAlike F.beyond R q r)
    (hf : ∀ a b, R a b → Respaces F S (f a) (f' b)) :
    EndAlike F.beyond S (onward f q) (onward f' r) := by
  cases h with
  | ok value close => exact (hf _ _ value).beyond close
  | stopped same scripts => exact .stopped same scripts

theorem strays_onward (h : Strays F.astray F.arrived p)
    (hf : ∀ a c, F.astray c → Strays F.astray F.arrived (f a c)) :
    Strays F.astray F.arrived (onward f p) := by
  cases h with
  | ok gone => exact hf _ _ gone
  | stopped short => exact .stopped short

theorem partAlike_onward (h : PartAlike F.before F.beyond F.astray F.arrived R p q r)
    (hf : ∀ a b, R a b → Respaces F S (f a) (f' b))
    (hastray : ∀ a c, F.astray c → Strays F.astray F.arrived (f a c)) :
    PartAlike F.before F.beyond F.astray F.arrived S (onward f p) (onward f q) (onward f' r) := by
  cases h with
  | kept value close => exact (hf _ _ value).before close
  | past ends => exact .past (endAlike_onward ends hf)
  | astray gone => exact .astray (strays_onward gone hastray)

end Bind

theorem bind (hx : Respaces F R x x') (total : ∀ a, ∃ b, R a b)
    (hf : ∀ a b, R a b → Respaces F S (f a) (f' b)) : Respaces F S (x >>= f) (x' >>= f') := by
  have hastray : ∀ a c, F.astray c → Strays F.astray F.arrived (f a c) := by
    intro a c hc
    obtain ⟨b, hab⟩ := total a
    exact (hf a b hab).astray hc
  refine ⟨fun hcst => ?_, fun hst => ?_, fun hc => ?_⟩
  · rw [bind_apply, bind_apply, bind_apply]
    exact partAlike_onward (hx.before hcst) hf hastray
  · rw [bind_apply, bind_apply]
    exact endAlike_onward (hx.beyond hst) hf
  · rw [bind_apply]
    exact strays_onward (hx.astray hc) hastray

theorem seq {x x' : Parse α} {f : α → Parse β} {f' : α → Parse β'} (hx : Respaces F Eq x x')
    (hf : ∀ a, Respaces F S (f a) (f' a)) : Respaces F S (x >>= f) (x' >>= f') :=
  .bind hx (fun a => ⟨a, rfl⟩) fun a _ hab => hab ▸ hf a

/-- Values that match are gone on with. -/
theorem matched [Bare α] {x x' : Parse α} {f : α → Parse β} {f' : α → Parse β'}
    (hx : Respaces F Matches x x')
    (hf : ∀ a b, Matches a b → Respaces F S (f a) (f' b)) : Respaces F S (x >>= f) (x' >>= f') :=
  .bind hx (fun a => ⟨a, .refl a⟩) hf

theorem ite {condition : Prop} {_ : Decidable condition} {y : Parse α} {y' : Parse α'}
    (hx : Respaces F R x x') (hy : Respaces F R y y') :
    Respaces F R (if condition then x else y) (if condition then x' else y') := by
  split
  · exact hx
  · exact hy

/-- Two conditions that say the same. -/
theorem ite_iff {c c' : Prop} {_ : Decidable c} {_ : Decidable c'} {y : Parse α} {y' : Parse α'}
    (hc : c ↔ c') (hx : Respaces F R x x') (hy : Respaces F R y y') :
    Respaces F R (if c then x else y) (if c' then x' else y') := by
  by_cases h : c
  · rw [if_pos h, if_pos (hc.mp h)]
    exact hx
  · rw [if_neg h, if_neg fun h' => h (hc.mpr h')]
    exact hy

/-- A reading that is left out unless a condition holds. -/
theorem optional {c c' : Prop} {_ : Decidable c} {_ : Decidable c'} {y y' : Parse Unit}
    {f : Unit → Parse β} {f' : Unit → Parse β'} (hc : c ↔ c') (hy : Respaces F Eq y y')
    (hf : Respaces F S (f ()) (f' ())) :
    Respaces F S (if c then y >>= f else f ()) (if c' then y' >>= f' else f' ()) :=
  .ite_iff hc (.seq hy fun _ => hf) hf

theorem map {g : α → β} {g' : α' → β'} (hx : Respaces F R x x') (total : ∀ a, ∃ b, R a b)
    (hg : ∀ a b, R a b → S (g a) (g' b)) : Respaces F S (g <$> x) (g' <$> x') := by
  simp only [map_eq_pure_bind]
  exact .bind hx total fun a b hab => .pure (hg a b hab)

/-- A reading for each item. -/
theorem foldlM {γ : Type} [Bare β] [Bare γ] {step step' : β → γ → Parse β}
    (hstep : ∀ b b', Matches b b' → ∀ c c', Matches c c' →
      Respaces F Matches (step b c) (step' b' c')) :
    ∀ items items' : List γ, Matches items items' → ∀ start start', Matches start start' →
      Respaces F Matches (items.foldlM step start) (items'.foldlM step' start')
  | [], [], _, start, start', hstart => .pure hstart
  | [], _ :: _, h, _, _, _ => by simp at h
  | _ :: _, [], h, _, _, _ => by simp at h
  | c :: items, c' :: items', h, start, start', hstart => by
    obtain ⟨hc, hitems⟩ : Matches c c' ∧ Matches items items' := by simpa using h
    exact .matched (hstep _ _ hstart _ _ hc) fun next next' hnext =>
      foldlM hstep items items' hitems next next' hnext

end Respaces

end ActionSyntax
