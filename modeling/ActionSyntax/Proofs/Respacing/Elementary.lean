import ActionSyntax.Proofs.Respacing.Contract
import ActionSyntax.Proofs.Shadows.Elementary

/-!
The elementary readings, and the loops over items, where a gap is exchanged.
-/

namespace ActionSyntax

set_option autoImplicit false

/-- A condition that does not depend on where a token stands. -/
def Token.Placeless (condition : Token → Bool) : Prop :=
  ∀ {t u : Token}, t.Twin u → condition t = condition u

namespace Parse

variable {F : Fork} {α β β' : Type} {S : β → β' → Prop}

section Looking

/-- What is read on depends on what the state shows. -/
theorem get_respaces {f : ParserState → Parse β} {f' : ParserState → Parse β'}
    (same : ∀ s s', s.view = s'.view → f s = f s')
    (hf : ∀ s t, s.view.Like t.view → Respaces F S (f s) (f' t)) :
    Respaces F S (get >>= f) (get >>= f') where
  before {c s t} hcst := by
    obtain ⟨hview, hlike⟩ := F.before_view hcst
    rw [get_bind, get_bind, get_bind, same c s hview]
    exact (hf s t hlike).before hcst
  beyond hst := (hf _ _ (F.beyond_view hst)).beyond hst
  astray hc := (hf _ _ (.refl _)).astray hc

/-- A reading that goes by what it sees. -/
theorem of_view {x : Parse β} {y : Parse β'} (f : View → Parse β) (f' : View → Parse β')
    (hx : ∀ s, x s = f s.view s) (hy : ∀ t, y t = f' t.view t)
    (hf : ∀ v w, v.Like w → Respaces F S (f v) (f' w)) : Respaces F S x y := by
  obtain rfl : x = get >>= fun s => f s.view := funext hx
  obtain rfl : y = get >>= fun t => f' t.view := funext hy
  exact get_respaces (fun s s' h => by rw [h]) fun s t h => hf _ _ h

theorem token_respaces {f : Token → Parse β} {f' : Token → Parse β'}
    (hf : ∀ t u : Token, t.Twin u → Respaces F S (f t) (f' u)) :
    Respaces F S (Parse.token >>= f) (Parse.token >>= f') :=
  of_view (fun v => f v.token) (fun v => f' v.token) (fun _ => rfl) (fun _ => rfl)
    fun _ _ h => hf _ _ h.token

theorem previous_respaces {f : Token → Parse β} {f' : Token → Parse β'}
    (hf : ∀ t u : Token, t.Twin u → Respaces F S (f t) (f' u)) :
    Respaces F S (previous >>= f) (previous >>= f') :=
  of_view (fun v => f v.previous) (fun v => f' v.previous) (fun _ => rfl) (fun _ => rfl)
    fun _ _ h => hf _ _ h.previous

theorem mark_respaces {f : Mark → Parse β} {f' : Mark → Parse β'}
    (hf : ∀ m m', Respaces F S (f m) (f' m')) : Respaces F S (mark >>= f) (mark >>= f') :=
  token_respaces fun t u _ => hf (Mark.ofSpan t.span) (Mark.ofSpan u.span)

theorem finish_respaces (m m' : Mark) {f : Span → Parse β} {f' : Span → Parse β'}
    (hf : ∀ span span', Respaces F S (f span) (f' span')) :
    Respaces F S (finish m >>= f) (finish m' >>= f') :=
  previous_respaces fun t u _ => hf (m.«to» t.span) (Mark.«to» m' u.span)

/-- Something that covers all from a mark on. -/
theorem finished_respaces (m m' : Mark) {f : Span → β} {f' : Span → β'}
    (hf : ∀ span span', S (f span) (f' span')) :
    Respaces F S (finish m >>= fun span => pure (f span))
      (finish m' >>= fun span => pure (f' span)) :=
  finish_respaces m m' fun span span' => .pure (hf span span')

theorem kind_respaces : Respaces F Eq kind kind :=
  of_view (fun v => pure v.token.kind) (fun v => pure v.token.kind) (fun _ => rfl) (fun _ => rfl)
    fun _ _ h => .pure h.token.kind

theorem at?_respaces (k : TokenKind) : Respaces F Eq (at? k) (at? k) :=
  of_view (fun v => pure (v.token.kind == k)) (fun v => pure (v.token.kind == k)) (fun _ => rfl)
    (fun _ => rfl) fun _ _ h => .pure (by rw [h.token.kind])

theorem atKeyword?_respaces (word : String) :
    Respaces F Eq (atKeyword? word) (atKeyword? word) :=
  of_view (fun v => pure (v.token.isKeyword word)) (fun v => pure (v.token.isKeyword word))
    (fun _ => rfl) (fun _ => rfl) fun _ _ h => .pure (h.token.isKeyword word)

theorem atOperator?_respaces (op : Operator) :
    Respaces F Eq (atOperator? op) (atOperator? op) :=
  of_view (fun v => pure (v.token.isOperator op)) (fun v => pure (v.token.isOperator op))
    (fun _ => rfl) (fun _ => rfl) fun _ _ h => .pure (h.token.isOperator op)

theorem previousIdentifier_respaces :
    Respaces F Matches previousIdentifier previousIdentifier :=
  previous_respaces fun t u htu => .pure (by simp [htu.text])

end Looking

section Steps

theorem next_respaces : Respaces F Eq next next := ⟨F.before_next, F.beyond_next, F.astray_next⟩

theorem regular_respaces : Respaces F Eq (scan Scanner.readRegularExpression)
    (scan Scanner.readRegularExpression) := ⟨F.before_regular, F.beyond_regular, F.astray_regular⟩

theorem report_respaces (severity : Severity) (id : ProblemId) (span span' : Span)
    (arguments : List (String × Argument)) :
    Respaces F Eq (report severity id span arguments) (report severity id span' arguments) where
  before hcst := .kept rfl (F.before_collect hcst rfl)
  beyond hst := .ok rfl (F.beyond_collect hst rfl)
  astray hc := .ok (F.astray_collect hc _)

theorem syntaxError_respaces (id : ProblemId) (span span' : Span) :
    Respaces F Eq (syntaxError id span) (syntaxError id span') := report_respaces _ _ _ _ _

theorem verifyError_respaces (id : ProblemId) (span span' : Span) :
    Respaces F Eq (verifyError id span) (verifyError id span') := report_respaces _ _ _ _ _

theorem stopAt_respaces (id : ProblemId) (span span' : Span) (arguments : List (String × Argument)) :
    Respaces F S (stopAt id span arguments) (stopAt id span' arguments) where
  before hcst := .astray (.stopped (F.before_short (F.before_collect hcst rfl)))
  beyond hst := .stopped rfl (F.beyond_alike (F.beyond_collect hst rfl))
  astray hc := .stopped (F.astray_short (F.astray_collect hc _))

theorem unexpected_respaces : Respaces F S unexpected unexpected :=
  token_respaces fun t u htu => by
    rw [htu.argument]
    exact stopAt_respaces _ _ _ _

theorem exhausted_respaces : Respaces F S exhausted exhausted where
  before hcst := .astray (.stopped (F.before_short hcst))
  beyond hst := .stopped rfl (F.beyond_alike hst)
  astray hc := .stopped (F.astray_short hc)

theorem expectEnd_respaces : Respaces F Eq expectEnd expectEnd :=
  .seq (at?_respaces _) fun _ => .ite unexpected_respaces (.pure rfl)

theorem expectEnd_refused {s : ParserState} {f : Unit → Parse β} (h : s.token.kind ≠ .endOfProgram) :
    (expectEnd >>= f) s = (unexpected : Parse β) s := by
  show EStateM.bind expectEnd f s = _
  have hread : expectEnd s = (unexpected : Parse Unit) s := by
    unfold expectEnd
    rw [at?_bind, beq_eq_false_iff_ne.mpr h]
    rfl
  unfold EStateM.bind
  rw [hread]
  rfl

theorem expectEnd_reached {s : ParserState} {f : Unit → Parse β} (h : s.token.kind = .endOfProgram) :
    (expectEnd >>= f) s = f () s := by
  show EStateM.bind expectEnd f s = _
  have hread : expectEnd s = .ok () s := by
    unfold expectEnd
    rw [at?_bind, h]
    rfl
  unfold EStateM.bind
  rw [hread]

/-- Once the end of the text has been reached, all gaps have been passed. -/
theorem expectEnd_then {x : Parse β} {y : Parse β'}
    (hbeyond : ∀ {s t}, F.beyond s t → EndAlike F.beyond S (x s) (y t))
    (hastray : ∀ {c}, F.astray c → Strays F.astray F.arrived (x c)) :
    Respaces F S (expectEnd >>= fun _ => x) (expectEnd >>= fun _ => y) where
  before {c s t} hcst := by
    obtain ⟨hview, hlike⟩ := F.before_view hcst
    have hc := F.before_proper hcst
    have hs : s.token.kind ≠ .endOfProgram := show s.view.token.kind ≠ _ from hview ▸ hc
    have ht : t.token.kind ≠ .endOfProgram := show t.view.token.kind ≠ _ from hlike.token.kind ▸ hs
    rw [expectEnd_refused hc, expectEnd_refused hs, expectEnd_refused ht]
    exact unexpected_respaces.before hcst
  beyond {s t} hst := by
    have hkind : s.token.kind = t.token.kind := (F.beyond_view hst).token.kind
    by_cases hend : s.token.kind = .endOfProgram
    · rw [expectEnd_reached hend, expectEnd_reached (hkind ▸ hend)]
      exact hbeyond hst
    · rw [expectEnd_refused hend, expectEnd_refused (hkind ▸ hend)]
      exact unexpected_respaces.beyond hst
  astray {c} hc := by
    by_cases hend : c.token.kind = .endOfProgram
    · rw [expectEnd_reached hend]
      exact hastray hc
    · rw [expectEnd_refused hend]
      exact (unexpected_respaces (S := S)).astray hc

end Steps

section Consuming

variable {condition : Token → Bool}

theorem placeless_kind (k : TokenKind) : Token.Placeless fun t => t.kind == k :=
  fun h => congrArg (· == k) h.kind

theorem consumeIf_respaces (hc : Token.Placeless condition) :
    Respaces F Eq (consumeIf condition) (consumeIf condition) :=
  token_respaces fun t u htu => by
    rw [hc htu]
    exact .ite (.seq next_respaces fun _ => .pure rfl) (.pure rfl)

theorem consume_respaces (k : TokenKind) : Respaces F Eq (consume k) (consume k) :=
  consumeIf_respaces (placeless_kind k)

theorem consumeIdentifier_respaces : Respaces F Eq consumeIdentifier consumeIdentifier :=
  consume_respaces .identifier

theorem consumeOperator_respaces (op : Operator) :
    Respaces F Eq (consumeOperator op) (consumeOperator op) :=
  consumeIf_respaces fun h => h.isOperator op

theorem consumeKeyword_respaces (word : String) :
    Respaces F Eq (consumeKeyword word) (consumeKeyword word) :=
  consumeIf_respaces fun h => h.isKeyword word

theorem consumeContextKeyword_respaces (word : String) :
    Respaces F Eq (consumeContextKeyword word) (consumeContextKeyword word) :=
  consumeIf_respaces fun h => h.isContextKeyword word

theorem expectIf_respaces (hc : Token.Placeless condition) :
    Respaces F Eq (expectIf condition) (expectIf condition) :=
  .seq (consumeIf_respaces hc) fun _ => .ite unexpected_respaces (.pure rfl)

theorem expect_respaces (k : TokenKind) : Respaces F Eq (expect k) (expect k) :=
  expectIf_respaces (placeless_kind k)

theorem expectOperator_respaces (op : Operator) :
    Respaces F Eq (expectOperator op) (expectOperator op) :=
  expectIf_respaces fun h => h.isOperator op

theorem expectKeyword_respaces (word : String) :
    Respaces F Eq (expectKeyword word) (expectKeyword word) :=
  expectIf_respaces fun h => h.isKeyword word

theorem expectContextKeyword_respaces (word : String) :
    Respaces F Eq (expectContextKeyword word) (expectContextKeyword word) :=
  expectIf_respaces fun h => h.isContextKeyword word

theorem expectName_respaces : Respaces F Eq expectName expectName :=
  .seq (expect_respaces _) fun _ => previous_respaces fun _ _ htu => .pure htu.text

theorem identifierOf_respaces (hc : Token.Placeless condition) :
    Respaces F Matches (identifierOf condition) (identifierOf condition) := by
  refine mark_respaces fun m m' => ?_
  refine .seq (expectIf_respaces hc) fun _ => ?_
  refine finish_respaces m m' fun span span' => ?_
  exact previous_respaces fun t u htu => .pure (by simp [htu.text])

theorem identifier_respaces : Respaces F Matches identifier identifier :=
  identifierOf_respaces (placeless_kind .identifier)

theorem wordIdentifier_respaces : Respaces F Matches wordIdentifier wordIdentifier :=
  identifierOf_respaces fun h => h.isWord

/-- What is left of a longer token when its first `>` is taken away becomes the current token. -/
def splitGreater : Parse Unit := fun s =>
  match afterGreater? s.token with
  | none => unexpected s
  | some (kind, operator) => .ok () (s.split kind operator)

theorem splitGreater_respaces : Respaces F Eq splitGreater splitGreater where
  before {c s t} hcst := by
    obtain ⟨hview, hlike⟩ := F.before_view hcst
    have hsame : c.token = s.token := congrArg View.token hview
    have hafter : afterGreater? s.token = afterGreater? t.token := hlike.token.afterGreater?
    unfold splitGreater
    rw [← hafter, ← hsame]
    cases hc : afterGreater? c.token with
    | none => exact unexpected_respaces.before hcst
    | some after => exact .kept rfl (F.before_split hcst hc)
  beyond {s t} hst := by
    have hafter : afterGreater? s.token = afterGreater? t.token := (F.beyond_view hst).token.afterGreater?
    unfold splitGreater
    rw [← hafter]
    cases hs : afterGreater? s.token with
    | none => exact unexpected_respaces.beyond hst
    | some after => exact .ok rfl (F.beyond_split hst hs)
  astray {c} hc := by
    unfold splitGreater
    cases hafter : afterGreater? c.token with
    | none => exact (unexpected_respaces (S := Eq)).astray hc
    | some after => exact .ok (F.astray_split hc hafter)

theorem expectGreater_respaces : Respaces F Eq expectGreater expectGreater := by
  have hsplit : expectGreater = (consumeOperator .greater >>= fun found =>
      if found then pure () else splitGreater) := by
    refine congrArg (consumeOperator .greater >>= ·) (funext fun found => ?_)
    cases found with
    | true => rfl
    | false =>
      funext s
      show (token >>= _) s = splitGreater s
      rw [token_bind]
      unfold splitGreater
      cases afterGreater? s.token <;> rfl
  rw [hsplit]
  exact .seq (consumeOperator_respaces .greater) fun _ => .ite (.pure rfl) splitGreater_respaces

theorem endStatement_respaces : Respaces F Eq endStatement endStatement := by
  refine .seq (consume_respaces _) fun _ => .ite (.pure rfl) ?_
  exact of_view (fun v => pure v.endsStatement) (fun v => pure v.endsStatement) (fun _ => rfl)
    (fun _ => rfl) fun _ _ h => .pure h.endsStatement

end Consuming

section Loops

variable [Bare α] {item item' : Parse α}

theorem separated_respaces (hitem : Respaces F Matches item item') : ∀ fuel : Nat,
    Respaces F Matches (separated item fuel) (separated item' fuel)
  | 0 => exhausted_respaces
  | fuel + 1 => by
    refine .matched hitem fun first first' hfirst => ?_
    refine .seq (consume_respaces _) fun more => ?_
    refine .ite ?_ (.pure (by simp_all))
    exact .matched (separated_respaces hitem fuel) fun rest rest' hrest => .pure (by simp_all)

theorem separatedUntil_respaces (closing : TokenKind) (hitem : Respaces F Matches item item') :
    ∀ fuel : Nat, Respaces F Matches (separatedUntil closing item fuel) (separatedUntil closing item' fuel)
  | 0 => exhausted_respaces
  | fuel + 1 => by
    refine .seq (at?_respaces closing) fun closed => ?_
    refine .ite (.pure rfl) ?_
    refine .matched hitem fun first first' hfirst => ?_
    refine .seq (consume_respaces _) fun more => ?_
    refine .ite ?_ (.pure (by simp_all))
    exact .matched (separatedUntil_respaces closing hitem fuel) fun rest rest' hrest =>
      .pure (by simp_all)

theorem collectWhile_respaces {step step' : Parse (Option α)} (hstep : Respaces F Matches step step') :
    ∀ fuel : Nat, Respaces F Matches (collectWhile step fuel) (collectWhile step' fuel)
  | 0 => exhausted_respaces
  | fuel + 1 => by
    refine .matched hstep fun found found' hfound => ?_
    cases found <;> cases found' <;> simp at hfound
    · exact .pure rfl
    · exact .matched (collectWhile_respaces hstep fuel) fun rest rest' hrest => .pure (by simp_all)

end Loops

section Surroundings

variable {body : Parse β} {body' : Parse β'}

/-- Readings that only note something about the functions around. -/
theorem noted_respaces {x : Parse α} (value : List FunctionUse → Bool → α)
    (functions : List FunctionUse → Bool → List FunctionUse)
    (superFound : List FunctionUse → Bool → Bool)
    (hx : ∀ s, x s = .ok (value s.functions s.superFound) { s with
      functions := functions s.functions s.superFound
      superFound := superFound s.functions s.superFound }) : Respaces F Eq x x where
  before {c s t} hcst := by
    obtain ⟨hview, hlike⟩ := F.before_view hcst
    have hfunctions : c.functions = s.functions := congrArg View.functions hview
    have hfound : c.superFound = s.superFound := congrArg View.superFound hview
    rw [hx c, hx s, hx t, hfunctions, hfound, show t.functions = s.functions from hlike.functions.symm,
      show t.superFound = s.superFound from hlike.superFound.symm]
    exact .kept rfl (F.before_superFound (F.before_functions hcst (functions s.functions s.superFound))
      (superFound s.functions s.superFound))
  beyond {s t} hst := by
    have hlike := F.beyond_view hst
    rw [hx s, hx t, show t.functions = s.functions from hlike.functions.symm,
      show t.superFound = s.superFound from hlike.superFound.symm]
    exact .ok rfl (F.beyond_superFound (F.beyond_functions hst (functions s.functions s.superFound))
      (superFound s.functions s.superFound))
  astray {c} hc := by
    rw [hx c]
    exact .ok (F.astray_superFound (F.astray_functions hc (functions c.functions c.superFound))
      (superFound c.functions c.superFound))

theorem pushFunction_respaces : Respaces F Eq pushFunction pushFunction :=
  noted_respaces (fun _ _ => ()) (fun functions _ => {} :: functions) (fun _ found => found)
    fun _ => rfl

theorem popFunction_respaces : Respaces F Eq popFunction popFunction :=
  noted_respaces (fun functions _ => functions.head?.getD {}) (fun functions _ => functions.tail)
    (fun _ found => found) fun _ => rfl

theorem inFunction_respaces [Bare β] {body body' : Parse β} (hbody : Respaces F Matches body body') :
    Respaces F Matches (inFunction body) (inFunction body') := by
  refine .seq pushFunction_respaces fun _ => ?_
  refine .matched hbody fun value value' hvalue => ?_
  exact .seq popFunction_respaces fun use => .pure (by simp_all)

/-- How a block stands that has ended. -/
def restored (found : Bool) : EStateM.Result Stop ParserState β → EStateM.Result Stop ParserState β
  | .ok value s => .ok value { s with superFound := found }
  | .error stop s => .error stop { s with superFound := found }

theorem freshSuper_apply (body : Parse β) (s : ParserState) :
    freshSuper body s = restored s.superFound (body { s with superFound := false }) := by
  unfold freshSuper restored
  cases body { s with superFound := false } <;> rfl

theorem endAlike_restored {q : EStateM.Result Stop ParserState β} {r : EStateM.Result Stop ParserState β'}
    (h : EndAlike F.beyond S q r) (found : Bool) :
    EndAlike F.beyond S (restored found q) (restored found r) := by
  cases h with
  | ok value close => exact .ok value (F.beyond_superFound close found)
  | stopped same scripts => exact .stopped same scripts

theorem strays_restored {p : EStateM.Result Stop ParserState β} (h : Strays F.astray F.arrived p)
    (found : Bool) : Strays F.astray F.arrived (restored found p) := by
  cases h with
  | ok gone => exact .ok (F.astray_superFound gone found)
  | stopped short => exact .stopped fun h => short (F.arrived_superFound h)

theorem partAlike_restored {p q : EStateM.Result Stop ParserState β}
    {r : EStateM.Result Stop ParserState β'}
    (h : PartAlike F.before F.beyond F.astray F.arrived S p q r) (found : Bool) :
    PartAlike F.before F.beyond F.astray F.arrived S (restored found p) (restored found q)
      (restored found r) := by
  cases h with
  | kept value close => exact .kept value (F.before_superFound close found)
  | past ends => exact .past (endAlike_restored ends found)
  | astray gone => exact .astray (strays_restored gone found)

theorem freshSuper_respaces (hbody : Respaces F S body body') :
    Respaces F S (freshSuper body) (freshSuper body') where
  before {c s t} hcst := by
    obtain ⟨hview, hlike⟩ := F.before_view hcst
    have hfound : c.superFound = s.superFound := congrArg View.superFound hview
    have hfound' : t.superFound = s.superFound := hlike.superFound.symm
    rw [freshSuper_apply, freshSuper_apply, freshSuper_apply, hfound, hfound']
    exact partAlike_restored (hbody.before (F.before_superFound hcst false)) _
  beyond {s t} hst := by
    have hfound : t.superFound = s.superFound := (F.beyond_view hst).superFound.symm
    rw [freshSuper_apply, freshSuper_apply, hfound]
    exact endAlike_restored (hbody.beyond (F.beyond_superFound hst false)) _
  astray {c} hc := by
    rw [freshSuper_apply]
    exact strays_restored (hbody.astray (F.astray_superFound hc false)) _

end Surroundings

end Parse

end ActionSyntax
