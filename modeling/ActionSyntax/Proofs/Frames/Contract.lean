import ActionSyntax.Proofs.Chains.Reading
import ActionSyntax.Proofs.Problems

/-!
Readings with one more function around all others. As long as there are functions at all, what is read
does not depend on how many there are. Outside of functions, `await` is not noted and `yield` is a problem,
so there the same is read unless the script turns out not to be valid. No reading leaves more functions
than it has entered, outside of statements none tells whether the super constructor has been called, and
types have nothing to do with functions at all.
-/

namespace ActionSyntax

set_option autoImplicit false

open Parse

/-- With one more function around all others. -/
def ParserState.around (s : ParserState) (use : FunctionUse) : ParserState :=
  { s with functions := s.functions ++ [use] }

/-- What a reading is part of. -/
inductive Layer where
  | type | expression | body | statement
deriving DecidableEq

/-- There are functions in the layer. -/
class Layer.Above (layer : Layer) : Prop where
  ne : layer ≠ .type

instance : Layer.Above .expression := ⟨by decide⟩

instance : Layer.Above .body := ⟨by decide⟩

instance : Layer.Above .statement := ⟨by decide⟩

/-- What a reading of the layer keeps. -/
structure Layer.Keeps (layer : Layer) (s t : ParserState) : Prop where
  height : s.functions.length ≤ t.functions.length
  valid : t.script.valid = true → s.script.valid = true
  superFound : layer ≠ .statement → t.superFound = s.superFound
  functions : layer = .type → t.functions = s.functions

namespace Layer.Keeps

variable {layer : Layer} {s t u : ParserState}

theorem refl (s : ParserState) : layer.Keeps s s := ⟨Nat.le_refl _, id, fun _ => rfl, fun _ => rfl⟩

theorem trans (hst : layer.Keeps s t) (htu : layer.Keeps t u) : layer.Keeps s u :=
  ⟨hst.height.trans htu.height, hst.valid ∘ htu.valid,
    fun hl => (htu.superFound hl).trans (hst.superFound hl),
    fun hl => (htu.functions hl).trans (hst.functions hl)⟩

theorem nil (h : layer.Keeps s t) (ht : t.functions = []) : s.functions = [] := by
  have hheight := h.height
  rw [ht] at hheight
  exact List.length_eq_zero_iff.mp (Nat.le_zero.mp hheight)

end Layer.Keeps

namespace Ending

variable {α : Type}

/-- The state in which a reading ends or stops. -/
def state : EStateM.Result Stop ParserState α → ParserState
  | .ok _ t => t
  | .error _ t => t

/-- The same outcome with one more function around all others. -/
def around (use : FunctionUse) :
    EStateM.Result Stop ParserState α → EStateM.Result Stop ParserState α
  | .ok a t => .ok a (t.around use)
  | .error stop t => .error stop (t.around use)

/-- The second outcome is the first one with one more function around all others, which has used no
`yield`; only where there are no functions, and the script is not valid in the end, it may be another. -/
def Framed (s : ParserState) (p q : EStateM.Result Stop ParserState α) : Prop :=
  (∃ use, use.usesYield = false ∧ q = around use p) ∨
    (s.functions = [] ∧ (state p).script.valid = false)

end Ending

/-- The reading goes the same way with one more function around all others. Outside of expressions, there
are functions already. -/
class Framed (layer : Layer) {α : Type} (x : Parse α) : Prop where
  keeps : ∀ s, layer.Keeps s (Ending.state (x s))
  framed : ∀ s use, (layer = .expression ∨ s.functions ≠ []) → use.usesYield = false →
    Ending.Framed s (x s) (x (s.around use))

namespace Framed

variable {layer : Layer} {α β : Type} {x : Parse α} {f : α → Parse β} {s : ParserState}

/-- What is read on from an outcome. -/
theorem bind_outcome (x : Parse α) (f : α → Parse β) (s : ParserState) :
    (∃ stop t, x s = .error stop t ∧ (x >>= f) s = .error stop t) ∨
      ∃ a t, x s = .ok a t ∧ (x >>= f) s = f a t := by
  cases hread : x s with
  | ok a t => exact Or.inr ⟨a, t, rfl, bind_of_ok hread f⟩
  | error stop t =>
    refine Or.inl ⟨stop, t, rfl, ?_⟩
    show EStateM.bind x f s = _
    unfold EStateM.bind
    rw [hread]

instance seq [p : Framed layer x] [q : ∀ a, Framed layer (f a)] : Framed layer (x >>= f) where
  keeps s := by
    have hkeeps := p.keeps s
    rcases bind_outcome x f s with ⟨stop, t, hread, hbind⟩ | ⟨a, t, hread, hbind⟩
    · rw [hread] at hkeeps
      rwa [hbind]
    · rw [hread] at hkeeps
      rw [hbind]
      exact hkeeps.trans ((q a).keeps t)
  framed s use hs huse := by
    have hkeeps := p.keeps s
    have hframed := p.framed s use hs huse
    rcases bind_outcome x f s with ⟨stop, t, hread, hbind⟩ | ⟨a, t, hread, hbind⟩
    · rw [hread] at hframed
      rw [hbind]
      refine hframed.imp_left ?_
      rintro ⟨use', hquiet, hread'⟩
      refine ⟨use', hquiet, ?_⟩
      show EStateM.bind x f _ = _
      unfold EStateM.bind
      rw [hread']
      rfl
    · rw [hread] at hkeeps hframed
      rw [hbind]
      rcases hframed with ⟨use', hquiet, hread'⟩ | ⟨hnil, hspoiled⟩
      · rw [bind_of_ok hread' f]
        have ht : layer = .expression ∨ t.functions ≠ [] := hs.imp_right fun hne hnil => hne (hkeeps.nil hnil)
        exact ((q a).framed t use' ht hquiet).imp_right (And.imp_left hkeeps.nil)
      · refine Or.inr ⟨hnil, ?_⟩
        rw [Bool.eq_false_iff] at hspoiled ⊢
        exact fun hvalid => hspoiled (((q a).keeps t).valid hvalid)

/-- A reading that may find nothing, and what is read on from it. -/
theorem option {x : Parse (Option α)} {f : Option α → Parse β} [Framed layer x]
    (hsome : ∀ a, Framed layer (f (some a))) (hnone : Framed layer (f none)) : Framed layer (x >>= f) :=
  seq (q := fun
    | some a => hsome a
    | none => hnone)

/-- A reading that has nothing to do with functions. -/
theorem of_blind (hkeeps : ∀ s, layer.Keeps s (Ending.state (x s)))
    (hframed : ∀ s use, x (s.around use) = Ending.around use (x s)) : Framed layer x :=
  ⟨hkeeps, fun s use _ huse => Or.inl ⟨use, huse, hframed s use⟩⟩

/-- A reading that looks at the state. -/
theorem get {g : ParserState → Parse β} (hblind : ∀ s use, g (s.around use) = g s)
    (hg : ∀ s, Framed layer (g s)) : Framed layer (MonadState.get >>= g) where
  keeps s := (hg s).keeps s
  framed s use hs huse := by
    have hget : (MonadState.get >>= g : Parse β) (s.around use) = g s (s.around use) :=
      congrFun (hblind s use) _
    rw [hget]
    exact (hg s).framed s use hs huse

section Elementary

instance pure {a : α} : Framed layer (Pure.pure a : Parse α) :=
  of_blind .refl fun _ _ => rfl

instance ite {condition : Prop} {_ : Decidable condition} {y : Parse α} [p : Framed layer x]
    [q : Framed layer y] : Framed layer (if condition then x else y) := by
  split <;> infer_instance

instance map {g : α → β} [Framed layer x] : Framed layer (g <$> x) := by
  rw [map_eq_pure_bind]
  infer_instance

instance exhausted : Framed layer (Parse.exhausted : Parse α) := of_blind .refl fun _ _ => rfl

instance token : Framed layer Parse.token := of_blind .refl fun _ _ => rfl

instance previous : Framed layer Parse.previous := of_blind .refl fun _ _ => rfl

instance kind : Framed layer Parse.kind := of_blind .refl fun _ _ => rfl

instance mark : Framed layer Parse.mark := of_blind .refl fun _ _ => rfl

instance finish (m : Mark) : Framed layer (Parse.finish m) := of_blind .refl fun _ _ => rfl

instance «at?» (k : TokenKind) : Framed layer (Parse.at? k) := of_blind .refl fun _ _ => rfl

instance atKeyword? (word : String) : Framed layer (Parse.atKeyword? word) :=
  of_blind .refl fun _ _ => rfl

instance atOperator? (op : Operator) : Framed layer (Parse.atOperator? op) :=
  of_blind .refl fun _ _ => rfl

instance report (severity : Severity) (id : ProblemId) (span : Span) (arguments : List (String × Argument)) :
    Framed layer (Parse.report severity id span arguments) :=
  of_blind (fun _ => ⟨Nat.le_refl _, fun hvalid => (Bool.and_eq_true_iff.mp hvalid).1, fun _ => rfl,
    fun _ => rfl⟩)
    fun _ _ => rfl

theorem scan {step : Scanner → Except Problem Unit × Scanner}
    (hvalid : ∀ s, (step s).2.script.valid = true → s.script.valid = true) :
    Framed layer (Parse.scan step) := by
  refine of_blind (fun s => ?_) fun s use => ?_
  · have hkept := hvalid s.scanner
    unfold Parse.scan
    generalize step s.scanner = outcome at hkept
    obtain ⟨_ | _, scanner⟩ := outcome <;> exact ⟨Nat.le_refl _, hkept, fun _ => rfl, fun _ => rfl⟩
  · unfold Parse.scan ParserState.around
    dsimp only
    generalize step s.scanner = outcome
    obtain ⟨_ | _, scanner⟩ := outcome <;> rfl

theorem regular : Framed layer (Parse.scan Scanner.readRegularExpression) :=
  scan fun s => s.readRegularExpression_grows.valid

instance next : Framed layer Parse.next := by
  have hscan : Framed layer (Parse.scan Scanner.next) := scan fun s => s.next_grows.valid
  have hprevious : Framed layer (modify fun s => { s with previous := s.token } : Parse Unit) :=
    of_blind (fun _ => ⟨Nat.le_refl _, id, fun _ => rfl, fun _ => rfl⟩) fun _ _ => rfl
  unfold Parse.next
  infer_instance

instance stopAt (id : ProblemId) (span : Span) (arguments : List (String × Argument)) :
    Framed layer (Parse.stopAt id span arguments : Parse α) :=
  of_blind (fun _ => ⟨Nat.le_refl _, fun hvalid => (Bool.and_eq_true_iff.mp hvalid).1, fun _ => rfl,
    fun _ => rfl⟩)
    fun _ _ => rfl

instance unexpected : Framed layer (Parse.unexpected : Parse α) := by
  unfold Parse.unexpected
  infer_instance

instance syntaxError (id : ProblemId) (span : Span) : Framed layer (Parse.syntaxError id span) :=
  report _ _ _ _

instance verifyError (id : ProblemId) (span : Span) : Framed layer (Parse.verifyError id span) :=
  report _ _ _ _

instance consumeIf (condition : Token → Bool) : Framed layer (Parse.consumeIf condition) := by
  unfold Parse.consumeIf
  infer_instance

instance consume (k : TokenKind) : Framed layer (Parse.consume k) := consumeIf _

instance consumeIdentifier : Framed layer Parse.consumeIdentifier := consumeIf _

instance consumeOperator (op : Operator) : Framed layer (Parse.consumeOperator op) := consumeIf _

instance consumeKeyword (word : String) : Framed layer (Parse.consumeKeyword word) := consumeIf _

instance consumeContextKeyword (word : String) : Framed layer (Parse.consumeContextKeyword word) :=
  consumeIf _

instance expectIf (condition : Token → Bool) : Framed layer (Parse.expectIf condition) := by
  unfold Parse.expectIf
  infer_instance

instance expect (k : TokenKind) : Framed layer (Parse.expect k) := expectIf _

instance expectOperator (op : Operator) : Framed layer (Parse.expectOperator op) := expectIf _

instance expectKeyword (word : String) : Framed layer (Parse.expectKeyword word) := expectIf _

instance expectContextKeyword (word : String) : Framed layer (Parse.expectContextKeyword word) :=
  expectIf _

instance expectName : Framed layer Parse.expectName := by
  unfold Parse.expectName
  infer_instance

instance expectEnd : Framed layer Parse.expectEnd := by
  unfold Parse.expectEnd
  infer_instance

instance expectGreater : Framed layer Parse.expectGreater := by
  have hsplit : ∀ token previous, Framed layer (modify fun s =>
      { s with previous, scanner := { s.scanner with token } } : Parse Unit) := fun _ _ =>
    of_blind (fun _ => ⟨Nat.le_refl _, id, fun _ => rfl, fun _ => rfl⟩) fun _ _ => rfl
  have hafter : ∀ t, Framed layer (match afterGreater? t with
      | none => Parse.unexpected
      | some (kind, operator) => modify fun s =>
        { s with
          previous := firstGreater t
          scanner := { s.scanner with
            token := { t with kind, operator, span := { t.span with start := t.span.start + 1 } } } } :
      Parse Unit) := by
    intro t
    split
    · infer_instance
    · exact hsplit _ _
  unfold Parse.expectGreater
  infer_instance

instance endStatement : Framed layer Parse.endStatement := by
  have hends : Framed layer (do return (← MonadState.get).endsStatement : Parse Bool) :=
    get (fun _ _ => rfl) fun _ => inferInstance
  unfold Parse.endStatement
  infer_instance

instance identifierOf (condition : Token → Bool) : Framed layer (Parse.identifierOf condition) := by
  unfold Parse.identifierOf
  infer_instance

instance identifier : Framed layer Parse.identifier := identifierOf _

instance wordIdentifier : Framed layer Parse.wordIdentifier := identifierOf _

instance previousIdentifier : Framed layer Parse.previousIdentifier := by
  unfold Parse.previousIdentifier
  infer_instance

end Elementary

section Loops

variable {item : Parse α}

instance separated [Framed layer item] (fuel : Nat) : Framed layer (Parse.separated item fuel) := by
  induction fuel with
  | zero => exact exhausted
  | succ fuel hmore =>
    unfold Parse.separated
    infer_instance

instance separatedUntil (closing : TokenKind) [Framed layer item] (fuel : Nat) :
    Framed layer (Parse.separatedUntil closing item fuel) := by
  induction fuel with
  | zero => exact exhausted
  | succ fuel hmore =>
    unfold Parse.separatedUntil
    infer_instance

instance collectWhile {step : Parse (Option α)} [Framed layer step] (fuel : Nat) :
    Framed layer (Parse.collectWhile step fuel) := by
  induction fuel with
  | zero => exact exhausted
  | succ fuel hmore =>
    unfold Parse.collectWhile
    exact option (fun _ => inferInstance) inferInstance

instance foldlM {step : β → α → Parse β} [∀ b a, Framed layer (step b a)] (items : List α) :
    ∀ start : β, Framed layer (items.foldlM step start) := by
  induction items with
  | nil => exact fun _ => pure
  | cons _ items hmore => exact fun _ => seq (q := hmore)

instance forM {step : α → Parse Unit} [∀ a, Framed layer (step a)] (items : List α) :
    Framed layer (items.forM step) := by
  induction items with
  | nil => exact pure
  | cons _ items hmore => exact seq (q := fun _ => hmore)

end Loops

section Functions

variable [above : layer.Above]

/-- The innermost function may be entered wherever there is one. -/
instance inFunction {body : Parse α} [hbody : Framed .body body] : Framed layer (Parse.inFunction body) where
  keeps s := by
    have hkeeps := hbody.keeps s.enter
    rcases bind_outcome body (fun value => popFunction >>= fun use => Pure.pure (value, use)) s.enter with
      ⟨stop, t, hread, hbind⟩ | ⟨a, t, hread, hbind⟩
    · have hwhole : Parse.inFunction body s = .error stop t := hbind
      rw [hread] at hkeeps
      rw [hwhole]
      exact ⟨(Nat.le_succ _).trans hkeeps.height, hkeeps.valid, fun _ => hkeeps.superFound (by decide),
        fun hl => absurd hl above.ne⟩
    · have hwhole : Parse.inFunction body s = .ok (a, t.functions.head?.getD {}) t.leave := hbind
      rw [hread] at hkeeps
      rw [hwhole]
      refine ⟨?_, hkeeps.valid, fun _ => hkeeps.superFound (by decide), fun hl => absurd hl above.ne⟩
      have hheight : s.functions.length + 1 ≤ t.functions.length := hkeeps.height
      show _ ≤ t.functions.tail.length
      rw [List.length_tail]
      omega
  framed s use _ huse := by
    have hkeeps := hbody.keeps s.enter
    rcases hbody.framed s.enter use (Or.inr (List.cons_ne_nil _ _)) huse with
      ⟨use', hquiet, hread'⟩ | ⟨hnil, -⟩
    case inr => cases hnil
    have henter : s.enter.around use = (s.around use).enter := rfl
    rw [henter] at hread'
    refine Or.inl ⟨use', hquiet, ?_⟩
    rcases bind_outcome body (fun value => popFunction >>= fun use => Pure.pure (value, use)) s.enter with
      ⟨stop, t, hread, hbind⟩ | ⟨a, t, hread, hbind⟩
    · have hwhole : Parse.inFunction body s = .error stop t := hbind
      have hwhole' : Parse.inFunction body (s.around use) = .error stop (t.around use') := by
        rw [hread] at hread'
        show EStateM.bind body _ (s.around use).enter = _
        unfold EStateM.bind
        rw [hread']
        rfl
      rw [hwhole, hwhole']
      rfl
    · have hwhole : Parse.inFunction body s = .ok (a, t.functions.head?.getD {}) t.leave := hbind
      have hwhole' : Parse.inFunction body (s.around use) =
          .ok (a, (t.functions ++ [use']).head?.getD {}) (t.around use').leave := by
        rw [hread] at hread'
        exact bind_of_ok hread' _
      rw [hread] at hkeeps
      have hheight : s.functions.length + 1 ≤ t.functions.length := hkeeps.height
      rw [hwhole, hwhole']
      obtain ⟨innermost, outer, hfunctions⟩ : ∃ innermost outer, t.functions = innermost :: outer :=
        List.exists_cons_of_length_pos (by omega)
      simp [Ending.around, ParserState.leave, ParserState.around, hfunctions]

/-- Whether the super constructor has been called does not show outside of a block. -/
theorem freshSuper {body : Parse α} (hlayer : layer ≠ .expression) (hbody : Framed .statement body) :
    Framed layer (Parse.freshSuper body) where
  keeps s := by
    have hkeeps := hbody.keeps { s with superFound := false }
    unfold Parse.freshSuper
    cases hread : body { s with superFound := false } with
    | ok a t =>
      rw [hread] at hkeeps
      exact ⟨hkeeps.height, hkeeps.valid, fun _ => rfl, fun hl => absurd hl above.ne⟩
    | error stop t =>
      rw [hread] at hkeeps
      exact ⟨hkeeps.height, hkeeps.valid, fun _ => rfl, fun hl => absurd hl above.ne⟩
  framed s use hs huse := by
    have hs : s.functions ≠ [] := hs.resolve_left hlayer
    rcases hbody.framed { s with superFound := false } use (Or.inr hs) huse with
      ⟨use', hquiet, hread'⟩ | ⟨hnil, -⟩
    case inr => exact absurd hnil hs
    refine Or.inl ⟨use', hquiet, ?_⟩
    have hfresh : ({ s with superFound := false } : ParserState).around use =
      { s.around use with superFound := false } := rfl
    rw [hfresh] at hread'
    unfold Parse.freshSuper
    rw [hread']
    cases body { s with superFound := false } <;> rfl

end Functions

end Framed

end ActionSyntax
