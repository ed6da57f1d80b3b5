import ActionSyntax.Proofs.Shadows.Stages
import ActionSyntax.Proofs.Shadows.TypeEndings
import ActionSyntax.Proofs.SuperCalls

/-!
Expressions in front of a colon. A name goes on with it if it may be typed, parentheses if they may hold the
parameters of a function, and initializers and types always. What ends in a part of it goes on as that part
does.
-/

namespace ActionSyntax

set_option autoImplicit false

open Parse Rules Stem

section Taking

mutual

/-- The expression goes on with a colon behind it. It is told whether a name at which it begins may be typed,
and whether parentheses at which it begins may hold the parameters of a function. -/
def Expr.takesColon (typed loose : Bool) : Expr → Bool
  | .identifier id => typed || id.type.isSome
  | .parens .. => loose
  | .array .. | .object .. | .embed .. | .typeBinary .. => true
  | .unary _ op operand => op.unaryBinding != .suffix && operand.takesColon true (op == .yield)
  | .binary _ _ _ right => right.takesColon true false
  | .conditional _ _ _ alternative => alternative.takesColon true true
  | .assignment _ _ _ value => value.takesColon true true
  | .list _ expressions => Expr.lastTakesColon expressions
  -- Where an object is created with arguments, their parenthesis comes last.
  | .new span base _ => span.stop == base.span.stop && base.takesColon false false
  | .function _ _ common => common.takesColon
  | _ => false

def Expr.lastTakesColon : List Expr → Bool
  | [] => false
  | [last] => last.takesColon true true
  | _ :: rest => Expr.lastTakesColon rest

def FunctionCommon.takesColon : FunctionCommon → Bool
  | ⟨_, _, _, _, _, _, _, _, body⟩ => FunctionBody.optionTakesColon body

def FunctionBody.optionTakesColon : Option FunctionBody → Bool
  | none => false
  | some body => body.takesColon

def FunctionBody.takesColon : FunctionBody → Bool
  | .block _ => false
  | .expression e => e.takesColon true true

end

theorem Expr.lastTakesColon_last {items : List Expr} {item : Expr} (h : items.getLast? = some item)
    (first : Expr) : Expr.lastTakesColon (first :: items) = item.takesColon true true := by
  induction items generalizing first with
  | nil => cases h
  | cons second rest ih =>
    cases rest with
    | nil =>
      cases h
      rfl
    | cons third rest =>
      rw [List.getLast?_cons_cons] at h
      exact ih h second

namespace Manner

/-- Expressions tell by what they end with. -/
def expr (typed loose : Bool) : Manner Expr := .telling (Expr.takesColon typed loose)

def optExpr (typed : Bool) (level : Precedence) : Manner (Option Expr) :=
  .telling (Option.any (Expr.takesColon typed (level ≤ .assignment)))

def body : Manner FunctionBody := .telling FunctionBody.takesColon

end Manner

end Taking

/-- A name behind which no type has been read. -/
def Rules.untypedPrimary (r : Rules) (t : Token) : Parse Expr := do
  if t.isContextKeyword "embed" && (← at? .string) then
    next
    let source := (← previous).text
    let type ← r.optAnnotation
    return .embed (← finish (Mark.ofSpan t.span)) source type
  let id := Expr.identifier { span := ← finish (Mark.ofSpan t.span), name := t.text }
  if ← consume .arrow then
    let params ← arrowParams [id]
    r.arrowFunction (Mark.ofSpan t.span) params none
  else return id

theorem Rules.identifierPrimary_eq (r : Rules) (allowTyped : Bool) :
    r.identifierPrimary allowTyped = (previous >>= fun t =>
      if allowTyped then
        consume .colon >>= fun typed =>
          if typed then
            r.typeExpr >>= fun type => finish (Mark.ofSpan t.span) >>= fun span =>
              pure (.identifier { span, name := t.text, type := some type })
          else r.untypedPrimary t
      else r.untypedPrimary t) := by
  cases allowTyped <;> rfl

/-- The arguments with which an object is created, if there are any. -/
def Rules.newWith (r : Rules) (m : Mark) (base : Expr) : Parse Expr := do
  let arguments ← if ← consume .leftParen then r.arguments else pure []
  return .new (← finish m) base arguments

theorem Rules.newExpr_eq (r : Rules) (m : Mark) :
    r.newExpr m = (r.primary false >>= r.newBase r.rounds) >>= r.newWith m := by
  rw [bind_assoc]
  rfl

/-- Rules that read expressions as others do in front of a colon. -/
structure RulesApproach (x : Stem) (r r' : Rules) : Prop where
  types : TypesApproach x r r'
  shadow : RulesShadow x.opening r r'
  builder : r.Builder True
  optExpr : ∀ mode, x.Approaches True Matches (.optExpr mode.allowTyped mode.level) (r.optExpr mode)
    (r'.optExpr mode)
  optPrimary : ∀ allowTyped level, x.Approaches True Matches (.optExpr allowTyped level)
    (r.optPrimary allowTyped level) (r'.optPrimary allowTyped level)
  block : ∀ context, x.Approaches True Matches .leaving (r.block context) (r'.block context)

namespace RulesApproach

variable {x : Stem} {r r' : Rules} {begun : Prop} {typed loose : Bool}

section Values

/-- An expression that has to be there. -/
theorem found_approaches {level : Precedence} {p p' : Parse (Option Expr)} {f : Option Expr → Parse Expr}
    (hp : x.Approaches True Matches (.optExpr typed level) p p') (hsome : ∀ e, f (some e) = pure e)
    (hnone : f none = unexpected) :
    x.Approaches begun Matches (.expr typed (level ≤ .assignment)) (p >>= f) (p' >>= f) := by
  refine .weaken (.matched hp (fun found found' hfound => ?_) (fun {found} => ?_) fun found => ?_)
    fun _ => trivial
  · cases found <;> cases found' <;> simp at hfound
    · rw [hnone]
      exact .unexpected
    · rw [hsome, hsome]
      exact .pure hfound id
  · rintro s e t htakes - hread
    cases found with
    | none => cases htakes
    | some e =>
      rw [hsome] at hread
      cases hread
      exact htakes
  · cases found with
    | none => exact hnone ▸ .unexpected
    | some e => exact hsome e ▸ .pure e

variable (h : RulesApproach x r r')
include h

theorem expr_approaches (mode : ExprMode) :
    x.Approaches begun Matches (.expr mode.allowTyped (mode.level ≤ .assignment)) (r.expr mode)
      (r'.expr mode) := found_approaches (h.optExpr mode) (fun _ => rfl) rfl

theorem assignmentExpr_approaches (allowIn : Bool) :
    x.Approaches begun Matches (.expr true true) (r.assignmentExpr allowIn) (r'.assignmentExpr allowIn) :=
  h.expr_approaches { allowIn, level := .assignment }

theorem primary_approaches (allowTyped : Bool) :
    x.Approaches begun Matches (.expr allowTyped false) (r.primary allowTyped) (r'.primary allowTyped) :=
  found_approaches (h.optPrimary allowTyped .suffix) (fun _ => rfl) rfl

/-- What ends in an expression ends as that one does. -/
theorem expr_ends {mode : ExprMode} {m m' : Mark} {f f' : Span → Expr → Expr}
    (hf : ∀ span span' e e', Matches e e' → Matches (f span e) (f' span' e'))
    (hends : ∀ span e, (f span e).takesColon typed loose =
      e.takesColon mode.allowTyped (mode.level ≤ .assignment)) :
    x.Approaches begun Matches (.expr typed loose)
      (r.expr mode >>= fun e => finish m >>= fun span => pure (f span e))
      (r'.expr mode >>= fun e => finish m' >>= fun span => pure (f' span e)) := by
  refine .matched (h.expr_approaches mode) (fun e e' he => ?_) ?_ fun e => .bind (.finish m') fun _ => .pure _
  · exact finished_approaches m m' (fun span span' => hf span span' e e' he)
      fun hleaves span => (hends span e).trans hleaves
  · rintro e s a t htakes - hread
    cases hread
    exact (hends _ e).trans htakes

end Values

section Functions

variable (h : RulesApproach x r r')
include h

theorem arrowBody_approaches : x.Approaches True Matches .body r.arrowBody r'.arrowBody := by
  refine at?_approaches (by decide) (by decide) ?_ ?_
  · exact ((h.block _).given (fun _ _ hblock => by simp_all) (fun _ _ => rfl) fun _ => False.elim).weaken
      fun _ => trivial
  · exact (h.assignmentExpr_approaches true).given (fun _ _ he => by simp_all) (fun _ => id) fun _ => id

theorem arrowFunction_approaches (m m' : Mark) {params params' : Params} {result result' : Option TypeExpr}
    (hparams : Matches params params') (hresult : Matches result result') :
    x.Approaches begun Matches (.expr typed loose) (r.arrowFunction m params result)
      (r'.arrowFunction m' params' result') := by
  refine .weaken (.matched (inFunction_approaches h.arrowBody_approaches) ?_ ?_ ?_) fun _ => trivial
  · rintro ⟨body, use⟩ ⟨body', use'⟩ hbody
    exact finished_approaches m m' (fun span span' => by simp_all) fun hleaves _ => hleaves
  · rintro ⟨body, use⟩ s e t htakes - hread
    cases hread
    exact htakes
  · rintro ⟨body, use⟩
    exact .bind (.finish m') fun _ => .pure _

theorem arrowFunction_starves (m : Mark) (params : Params) (result : Option TypeExpr) :
    Starves (r.arrowFunction m params result) :=
  (inFunction_starves (at?_starves (by decide) (h.shadow.assignmentExpr_starves true).seq)).seq

/-- A function whose parameters have been read as expressions. -/
theorem arrow_approaches (m m' : Mark) {items items' : List Expr} {result result' : Option TypeExpr}
    (hitems : Matches items items') (hresult : Matches result result') :
    x.Approaches begun Matches (.expr typed loose)
      (arrowParams items >>= fun params => r.arrowFunction m params result)
      (arrowParams items' >>= fun params => r'.arrowFunction m' params result') :=
  have hparams : Shadows x.opening .tight Matches (arrowParams items) (arrowParams items') :=
    RulesShadow.arrowParams_shadows hitems
  .closed hparams (fun _ _ hparams => h.arrowFunction_approaches m m' hparams hresult)
    fun params => h.arrowFunction_starves m params result

theorem functionBody_approaches :
    x.Approaches begun Matches (.telling fun found => FunctionBody.optionTakesColon found.1)
      (r.functionBody .expression) (r'.functionBody .expression) := by
  refine at?_approaches (by decide) (by decide) ?_ ?_
  · exact ((h.block _).given (fun _ _ hblock => by simp_all) (fun _ _ => rfl) fun _ => False.elim).weaken
      fun _ => trivial
  · exact (h.assignmentExpr_approaches true).given (fun _ _ he => by simp_all) (fun _ => id) fun _ => id

theorem functionParts_approaches {generics generics' : Option Generics}
    (hgenerics : Matches generics generics') :
    x.Approaches begun Matches (.telling fun parts => parts.common.takesColon)
      (r.functionParts generics .expression) (r'.functionParts generics' .expression) := by
  have hbody : ∀ f : (Option FunctionBody × Bool) × FunctionUse → Parse FunctionParts,
      Starves (inFunction (r.functionBody .expression) >>= f) := fun _ =>
    (inFunction_starves h.shadow.functionBody_starves).seq
  have hclauses : ∀ {clauses clauses' : Clauses}, Matches clauses clauses' →
      Shadows x.opening .wide Matches (r.functionClauses r.rounds clauses)
        (r'.functionClauses r'.rounds clauses') := h.shadow.functionClauses_shadows h.shadow.rounds_le
  have hresult : Shadows x.opening .wide Matches r.optAnnotation r'.optAnnotation :=
    h.shadow.optAnnotation_shadows
  refine mark_approaches fun m m' => expect_approaches (by decide) ?_
  refine .closed (h.shadow.functionParams_shadows (Or.inl rfl) h.shadow.rounds_le rfl)
    (fun params params' hparams => ?_) fun _ => (expect_starves (k := .rightParen) (by decide)).seq
  refine expect_approaches (by decide) ?_
  refine .closed hresult (fun result result' hresult => ?_)
    fun _ => .after (hclauses (.refl _)).stays fun _ => hbody _
  refine .closed (hclauses (by simpa using hgenerics)) (fun clauses clauses' hclauses => ?_) fun _ => hbody _
  refine .matched (inFunction_approaches h.functionBody_approaches) ?_ ?_ ?_
  · rintro ⟨⟨body, ended⟩, use⟩ ⟨⟨body', ended'⟩, use'⟩ hbody
    exact finished_approaches m m' (fun span span' => by simp_all) fun hleaves _ => hleaves
  · rintro ⟨⟨body, ended⟩, use⟩ s parts t htakes - hread
    cases hread
    exact htakes
  · rintro ⟨⟨body, ended⟩, use⟩
    exact .bind (.finish m') fun _ => .pure _

theorem functionExpr_approaches :
    x.Approaches begun Matches (.expr typed loose) r.functionExpr r'.functionExpr := by
  refine mark_approaches fun m m' => expectKeyword_approaches _ ?_
  have rest : ∀ id id' : Option Identifier, Matches id id' → x.Approaches True Matches (.expr typed loose)
      (do
        let parts ← r.functionParts none .expression
        let span ← finish m
        if parts.common.body.isNone then
          syntaxError .functionMustveBody ((id.map (·.span)).getD span)
        return Expr.function span id parts.common)
      (do
        let parts ← r'.functionParts none .expression
        let span ← finish m'
        if parts.common.body.isNone then
          syntaxError .functionMustveBody ((id'.map (·.span)).getD span)
        return Expr.function span id' parts.common) := by
    intro id id' hid
    refine .matched (h.functionParts_approaches rfl) (fun parts parts' hparts => ?_) (fun {parts} => ?_) ?_
    · refine finish_approaches m m' fun span span' => ?_
      have hcommon : parts.common.bare = parts'.common.bare := by
        obtain ⟨common, generics, ended⟩ := parts
        obtain ⟨common', generics', ended'⟩ := parts'
        simp_all
      have hbody : parts.common.body.isNone = parts'.common.body.isNone := by
        obtain ⟨⟨_, _, _, _, _, _, _, _, body⟩, generics, ended⟩ := parts
        obtain ⟨⟨_, _, _, _, _, _, _, _, body'⟩, generics', ended'⟩ := parts'
        cases body <;> cases body' <;> simp_all
      have hread : x.Approaches (parts.common.takesColon = false) Matches (.expr typed loose)
          (Pure.pure (Expr.function span id parts.common)) (Pure.pure (Expr.function span' id' parts'.common)) :=
        .pure (by simp_all) fun hleaves => hleaves
      exact .ite_iff (by rw [hbody]) (syntaxError_approaches _ _ _ hread) hread
    · rintro s e t htakes - hread
      rw [finish_bind] at hread
      split at hread <;> cases hread <;> exact htakes
    · exact fun parts => .bind (.finish m') fun span => .ite (.bind (.syntaxError _ _) fun _ => .pure _) (.pure _)
  refine consume_approaches (by decide) (by decide) ?_ (rest none none rfl)
  have hname : Shadows x.opening .tight Matches (some <$> previousIdentifier) (some <$> previousIdentifier) :=
    .map previousIdentifier_shadows (fun id => ⟨id, rfl⟩) fun id id' hid => by simp_all
  refine .closed hname (fun id id' hid => (rest id id' hid).weaken fun _ => trivial) fun id => ?_
  exact (Starves.of_reads (h.shadow.sound.functionParts_reads none .expression)).seq

end Functions

section Primaries

variable (h : RulesApproach x r r')
include h

/-- A name behind which no type has been read. -/
theorem untyped_approaches {t t' : Token} (ht : t.Like t') :
    x.Approaches (typed = false) Matches (.expr typed loose) (r.untypedPrimary t) (r'.untypedPrimary t') := by
  refine at?_next_approaches (by decide) (by decide) (ht.isContextKeyword "embed") ?_ ?_
  · refine previous_approaches fun source source' hsource => ?_
    exact h.types.optAnnotation_ends (fun _ _ _ _ htype => by simp_all [hsource.text]) fun _ _ => rfl
  refine finish_approaches _ _ fun span span' => consume_approaches (by decide) (by decide) ?_ ?_
  · exact h.arrow_approaches _ _ (by simp [ht.text]) rfl
  · refine .pure (by simp [ht.text]) fun htyped => ?_
    rw [htyped]
    rfl

omit h in
theorem untyped_ended {t : Token} {s u : ParserState} {e : Expr} (hs : s.Ended)
    (hread : r.untypedPrimary t s = .ok e u) : ∃ id, e = .identifier id := by
  unfold untypedPrimary at hread
  rw [at?_bind, hs.kind, if_neg (by simp), finish_bind, bind_of_ok (consume_no (by simp [hs.kind]))] at hread
  cases hread
  exact ⟨_, rfl⟩

theorem identifierPrimary_approaches :
    x.Approaches begun Matches (.expr typed loose) (r.identifierPrimary typed) (r'.identifierPrimary typed) := by
  rw [identifierPrimary_eq, identifierPrimary_eq]
  refine .weaken (previous_approaches fun t t' ht => ?_) fun _ => trivial
  cases typed with
  | false => exact (h.untyped_approaches ht).weaken fun _ => rfl
  | true =>
    refine consume_colon_approaches ?_ ((h.untyped_approaches ht).weaken False.elim) (fun hs hread => ?_) ?_
    · exact h.types.typeExpr_ends (fun _ _ _ _ htype => by simp_all [ht.text]) fun _ _ => rfl
    · obtain ⟨id, rfl⟩ := untyped_ended hs hread
      rfl
    · exact .bind (.of_reads h.types.sound.typeExpr) fun _ => .bind (.finish _) fun _ => .pure _

omit h in
theorem parensContent_approaches {items items' : List Expr} (h : Matches items items') {f f' : Expr → Parse Expr}
    {N : Manner Expr} (hf : ∀ e e', Matches e e' → x.Approaches begun Matches N (f e) (f' e')) :
    x.Approaches begun Matches N (parensContent items >>= f) (parensContent items' >>= f') := by
  cases items with
  | nil =>
    refine .stopping fun hread => ?_
    obtain ⟨_, _, hnone, -⟩ := bind_ok hread
    cases hnone
  | cons first rest =>
    cases items' with
    | nil => simp at h
    | cons first' rest' =>
      cases rest with
      | nil =>
        cases rest' with
        | nil => exact hf first first' (by simpa using h)
        | cons _ _ => simp at h
      | cons second rest =>
        cases rest' with
        | nil => simp at h
        | cons second' rest' => exact hf _ _ (by simpa using h)

theorem restArrowFunction_approaches (m m' : Mark) {items items' : List Expr} (hitems : Matches items items') :
    x.Approaches begun Matches (.expr typed loose) (r.restArrowFunction m items)
      (r'.restArrowFunction m' items') := by
  have hparams : Shadows x.opening .tight Matches (arrowParams items) (arrowParams items') :=
    RulesShadow.arrowParams_shadows hitems
  have hrest : Shadows x.opening .tight Matches r.restParam r'.restParam := h.shadow.restParam_shadows
  have hresult : Shadows x.opening .tight Matches r.optAnnotation r'.optAnnotation :=
    h.shadow.optAnnotation_shadows
  refine .closed hparams (fun params params' hparams => ?_) fun _ => h.shadow.restParam_starves.seq
  refine .closed hrest (fun rest rest' hrest => ?_) fun _ => (expect_starves (k := .rightParen) (by decide)).seq
  refine expect_approaches (by decide) ?_
  refine .closed hresult (fun result result' hresult => ?_) fun _ => (expect_starves (k := .arrow) (by decide)).seq
  exact expect_approaches (by decide) (h.arrowFunction_approaches m m' (by simp_all) hresult)

/-- A function with a result, behind its colon. -/
theorem typedArrow_approaches (m m' : Mark) {items items' : List Expr} (hitems : Matches items items') :
    x.Approaches begun Matches (.expr typed loose)
      (arrowParams items >>= fun params => r.typeExpr >>= fun result => expect .arrow >>= fun _ =>
        r.arrowFunction m params (some result))
      (arrowParams items' >>= fun params => r'.typeExpr >>= fun result => expect .arrow >>= fun _ =>
        r'.arrowFunction m' params (some result)) := by
  have hparams : Shadows x.opening .tight Matches (arrowParams items) (arrowParams items') :=
    RulesShadow.arrowParams_shadows hitems
  refine .closed hparams (fun params params' hparams => ?_) fun _ => h.shadow.typeExpr_starves.seq
  refine .closed (h.shadow.typeExpr .tight) (fun result result' hresult => ?_)
    fun _ => (expect_starves (k := .arrow) (by decide)).seq
  exact expect_approaches (by decide) (h.arrowFunction_approaches m m' hparams (by simp_all))

theorem parensOrArrow_approaches (m m' : Mark) :
    x.Approaches begun Matches (.expr typed true) (r.parensOrArrow m) (r'.parensOrArrow m') := by
  refine consume_approaches (by decide) (by decide) ?_ ?_
  · exact expect_approaches (by decide) (h.arrowFunction_approaches m m' rfl rfl)
  refine .closed (h.shadow.parensItems_shadows h.shadow.rounds_le rfl) ?_ ?_
  · rintro ⟨items, atRest⟩ ⟨items', atRest'⟩ hmatch
    obtain ⟨hitems, rfl⟩ : Matches items items' ∧ atRest = atRest' := by simpa using hmatch
    refine .ite (h.restArrowFunction_approaches m m' hitems) (expect_approaches (by decide) ?_)
    refine consume_colon_approaches (h.typedArrow_approaches m m' hitems) ?_ (fun {s e t} hs hread => ?_) ?_
    · refine consume_approaches (by decide) (by decide) (h.arrow_approaches m m' hitems rfl) ?_
      exact parensContent_approaches hitems fun content content' hcontent =>
        finished_approaches m m' (fun span span' => by simp_all) False.elim
    · simp only [Bool.false_eq_true, if_false] at hread
      rw [bind_of_ok (consume_no (by simp [hs.kind]))] at hread
      obtain ⟨content, u, -, hread⟩ := bind_ok hread
      cases hread
      rfl
    · have S := h.types.sound
      refine .of_reads (.seq (Setting.Sound.arrowParams_reads items') fun params => .seq S.typeExpr fun result => ?_)
      exact .seq (Setting.expect_reads (by decide)) fun _ => S.arrowFunction_reads m' params (some result)
  · rintro ⟨items, atRest⟩
    exact .ite (h.shadow.restArrowFunction_starves m items) (expect_starves (k := .rightParen) (by decide)).seq

theorem parensPrimary_approaches (m m' : Mark) (level : Precedence) :
    x.Approaches begun Matches (.expr typed (level ≤ .assignment)) (r.parensPrimary m level)
      (r'.parensPrimary m' level) := by
  unfold parensPrimary
  by_cases htight : Precedence.assignment < level
  · rw [if_pos htight, if_pos htight]
    have hexpr : Shadows x.opening .wide Matches (r.expr {}) (r'.expr {}) :=
      h.shadow.expr_shadows (Or.inr (Or.inl rfl))
    refine .closed hexpr (fun e e' he => ?_) fun _ => (expect_starves (k := .rightParen) (by decide)).seq
    refine expect_approaches (by decide) (finished_approaches m m' (fun _ _ => by simp_all) fun _ _ => ?_)
    exact decide_eq_false (Nat.not_le.mpr htight)
  · have hloose : level ≤ Precedence.assignment := Nat.le_of_not_lt htight
    rw [if_neg htight, if_neg htight, decide_eq_true hloose]
    exact h.parensOrArrow_approaches m m'

theorem objectInitializer_approaches (m m' : Mark) :
    x.Approaches begun Matches (.expr typed loose) (r.objectInitializer m) (r'.objectInitializer m') := by
  refine .closed (separatedUntil_shadows _ h.shadow.objectItem_shadows h.shadow.rounds_le)
    (fun fields fields' hfields => ?_) fun _ => (expect_starves (k := .rightBrace) (by decide)).seq
  refine expect_approaches (by decide) (h.types.optAnnotation_ends ?_ fun _ _ => rfl)
  exact fun span span' type type' htype => by simp_all

theorem arrayInitializer_approaches (m m' : Mark) :
    x.Approaches begun Matches (.expr typed loose) (r.arrayInitializer m) (r'.arrayInitializer m') := by
  refine .closed (h.shadow.arrayItems_shadows h.shadow.rounds_le) (fun items items' hitems => ?_)
    fun _ => (expect_starves (k := .rightBracket) (by decide)).seq
  refine expect_approaches (by decide) (h.types.optAnnotation_ends ?_ fun _ _ => rfl)
  exact fun span span' type type' htype => by simp_all

end Primaries

section Applying

variable (h : RulesApproach x r r')
include h

theorem arguments_approaches {α : Type} {N : Manner α} {R : α → α → Prop}
    {f f' : List Expr → Parse α}
    (hf : ∀ items items', Matches items items' → x.Approaches True R N (f items) (f' items')) :
    x.Approaches begun R N (r.arguments >>= f) (r'.arguments >>= f') := by
  unfold arguments
  simp only [bind_assoc, pure_bind]
  refine .closed (separatedUntil_shadows _ (h.shadow.assignmentExpr_shadows true) h.shadow.rounds_le)
    (fun items items' hitems => ?_) fun _ => (expect_starves (k := .rightParen) (by decide)).seq
  exact expect_approaches (by decide) (hf items items' hitems)

theorem dotContinuation_approaches (m m' : Mark) {base base' : Expr} (hbase : Matches base base') :
    x.Approaches begun Matches (.expr typed loose) (r.dotContinuation m base) (r'.dotContinuation m' base') := by
  refine consumeOperator_approaches _ ?_ ?_
  · exact h.types.typeArguments_approaches (fun span span' types types' htypes => by simp_all) fun _ _ => rfl
  · refine .matched wordIdentifier_approaches (fun id id' hid => ?_) False.elim
      fun id => .bind (.finish m') fun span => .pure _
    exact finished_approaches m m' (fun span span' => by simp_all) fun _ _ => rfl

theorem indexContinuation_approaches (m m' : Mark) {base base' : Expr} (optional : Bool)
    (hbase : Matches base base') : x.Approaches begun Matches (.expr typed loose)
      (r.indexContinuation m base optional) (r'.indexContinuation m' base' optional) := by
  refine .closed (h.shadow.expr_shadows (Or.inr (Or.inl rfl))) (fun key key' hkey => ?_)
    fun _ => (expect_starves (k := .rightBracket) (by decide)).seq
  refine expect_approaches (by decide) (finished_approaches m m' ?_ fun _ _ => rfl)
  exact fun span span' => by simp_all

theorem callContinuation_approaches (m m' : Mark) {base base' : Expr} (optional : Bool)
    (hbase : Matches base base') : x.Approaches begun Matches (.expr typed loose)
      (r.callContinuation m base optional) (r'.callContinuation m' base' optional) :=
  h.arguments_approaches fun items items' hitems =>
    finished_approaches m m' (fun span span' => by simp_all) fun _ _ => rfl

omit h in
theorem newBase_ended {fuel : Nat} {base e : Expr} {s u : ParserState} (hs : s.Ended)
    (hread : r.newBase fuel base s = .ok e u) : e = base ∧ u = s := by
  cases fuel with
  | zero => cases hread
  | succ fuel =>
    rw [newBase, bind_of_ok (consume_no (by simp [hs.kind])), if_neg (by simp), get_bind,
      if_neg (by simp [hs.kind])] at hread
    cases hread
    exact ⟨rfl, rfl⟩

theorem newBase_approaches : ∀ {fuel fuel' : Nat}, fuel ≤ fuel' → ∀ {base base' : Expr},
    Matches base base' → x.Approaches (base.takesColon typed loose = false) Matches (.expr typed loose)
      (r.newBase fuel base) (r'.newBase fuel' base')
  | 0, _, _, _, _, _ => .exhausted
  | fuel + 1, fuel' + 1, hle, base, base', hbase => by
    have longer : ∀ {begun : Prop} {p p' : Parse Expr},
        x.Approaches begun Matches (.expr typed loose) p p' →
        x.Approaches begun Matches (.expr typed loose) (p >>= r.newBase fuel) (p' >>= r'.newBase fuel') := by
      intro begun p p' hp
      refine .matched hp (fun _ _ => newBase_approaches (Nat.le_of_succ_le_succ hle)) ?_ fun longer => ?_
      · rintro longer s e t htakes hs hread
        obtain ⟨rfl, rfl⟩ := newBase_ended hs hread
        exact htakes
      · exact .of_reads (h.types.sound.newBase_reads fuel' longer 0 (Nat.zero_le _) (Nat.zero_le _))
    refine consume_approaches (by decide) (by decide) (longer (h.dotContinuation_approaches _ _ hbase)) ?_
    refine takingIf_approaches (c := fun s => s.token.kind == .leftBracket && s.continues)
      (f := fun _ => r.indexContinuation _ base false >>= r.newBase fuel) (fun _ => rfl) (fun _ => rfl)
      (fun {s} hc => ?_) (fun hst heq => ?_) (fun {t} hcolon => ?_)
      (longer (h.indexContinuation_approaches _ _ false hbase)) (.pure hbase id)
    · simp only [Bool.and_eq_true, beq_iff_eq] at hc
      rw [hc.1]
      decide
    · rw [heq, (hst.sees.layout x.layered).2.2]
    · simp [hcolon]

/-- What an object is created from, up to the arguments. -/
theorem newOperand_approaches : x.Approaches begun Matches (.expr false false)
    (r.primary false >>= r.newBase r.rounds) (r'.primary false >>= r'.newBase r'.rounds) := by
  refine .matched (h.primary_approaches false) (fun _ _ => h.newBase_approaches h.shadow.rounds_le) ?_
    fun first => ?_
  · rintro first s e t htakes hs hread
    obtain ⟨rfl, rfl⟩ := newBase_ended hs hread
    exact htakes
  · exact .of_reads (h.types.sound.newBase_reads _ first 0 (Nat.zero_le _) (Nat.zero_le _))

/-- What an object is created from ends with the last token that has been read. -/
theorem newOperand_stops {s t : ParserState} {base : Expr} (hs : s.Ordered)
    (hread : (r.primary false >>= r.newBase r.rounds) s = .ok base t) :
    t.Ordered ∧ base.span.stop = t.previous.span.stop := by
  obtain ⟨first, u, hfirst, hbase⟩ := bind_ok hread
  have hbuilt := h.builder.newBase_ok (h.builder.primary_ok hfirst) hbase
  exact ⟨(hbuilt.builds.moves hs).1, by rw [hbuilt.span_eq]; rfl⟩

theorem newWith_approaches (m m' : Mark) {base base' : Expr} (hbase : Matches base base') :
    x.Approaches True Matches .leaving (r.newWith m base) (r'.newWith m' base') := by
  have close : ∀ items items' : List Expr, Matches items items' → x.Approaches True Matches .leaving
      (finish m >>= fun span => Pure.pure (Expr.new span base items))
      (finish m' >>= fun span => Pure.pure (Expr.new span base' items')) := fun items items' hitems =>
    finished_approaches m m' (fun span span' => by simp_all) fun _ _ => trivial
  exact consume_approaches (by decide) (by decide) (h.arguments_approaches close) (close [] [] rfl)

/-- Without arguments, the colon is taken as it is by what the object is created from. -/
theorem newWith_takes {m : Mark} {base e : Expr} {s t : ParserState} (hs : s.Ordered)
    (hstop : base.span.stop = s.previous.span.stop) (hread : r.newWith m base s = .ok e t) :
    (t = s ∧ e.takesColon typed loose = base.takesColon false false) ∨
      (s.token.kind = .leftParen ∧ e.takesColon typed loose = false) := by
  rcases bind_if True (Setting.proper_kind (by decide)) hread with ⟨u, hu, hparen, hread⟩ | hread
  · obtain ⟨items, v, hitems, hread⟩ := bind_ok hread
    cases hread
    have hpassed := (hu.builds.skip (h.builder.arguments_ok hitems)).previous_stop hs
    have hbefore := hs.previous.offset
    have hne : t.previous.span.stop ≠ base.span.stop := by omega
    exact Or.inr ⟨by simpa using hparen, by simp [Expr.takesColon, Mark.to, hne]⟩
  · cases hread
    exact Or.inl ⟨rfl, by simp [Expr.takesColon, Mark.to, hstop]⟩

theorem newExpr_approaches (m m' : Mark) :
    x.Approaches begun Matches (.expr typed loose) (r.newExpr m) (r'.newExpr m') := by
  have hoperand : x.Approaches begun Matches (.expr false false) _ _ := h.newOperand_approaches
  rw [newExpr_eq, newExpr_eq]
  refine ⟨fun {s t} hst hs => .bind (hoperand.goes hst hs) ?_ ?_ ?_ ?_, fun hs hread => ?_⟩
  · intro base base' u v hread hbase huv hleaves
    obtain ⟨hordered, hstop⟩ := h.newOperand_stops hst.ordered hread
    refine ((h.newWith_approaches m m' hbase).goes huv fun _ => trivial).mono
      fun e w hwith hend => ⟨fun _ => ?_, False.elim⟩
    rcases h.newWith_takes hordered hstop hwith with ⟨rfl, hsame⟩ | ⟨-, hnever⟩
    · exact hsame.trans (hleaves hend)
    · exact hnever
  · exact (h.newWith_approaches m m' (.refl _)).stays
  · intro base u e w htakes hread hend hwith
    obtain ⟨hordered, hstop⟩ := h.newOperand_stops hst.ordered hread
    rcases h.newWith_takes hordered hstop hwith with ⟨-, hsame⟩ | ⟨hparen, -⟩
    · exact hsame.trans htakes
    · simp [hend.kind] at hparen
  · intro base base' htakes
    have close : ∀ items, Onward (finish m' >>= fun span => Pure.pure (Expr.new span base' items)) :=
      fun _ => .bind (.finish m') fun _ => .pure _
    refine .bind (.consume (by decide)) fun called => .ite ?_ (close [])
    exact .bind (.of_reads h.types.sound.arguments_reads) close
  · obtain ⟨base, u, hbase, hwith⟩ := bind_ok hread
    have hrests := hoperand.stays hs hbase
    exact hrests.trans ((h.newWith_approaches m m' (.refl base)).stays hrests.ended hwith)

end Applying

section Operands

/-- A slash is read again, as the beginning of a regular expression. -/
theorem regularExpression_arrives (m m' : Mark) {level : Precedence} {s t : ParserState} (hst : x.Along s t)
    (hslash : beginsRegularExpression s.token = true) :
    x.Arrives Matches (Manner.optExpr typed level).kept ((regularExpression m >>= fun e => pure (some e)) s)
      ((regularExpression m' >>= fun e => pure (some e)) t) := by
  have htaken : x.Approaches True Matches (Manner.optExpr typed level).kept
      (previous >>= fun t => finish m >>= fun span =>
        pure (some (Expr.regularExpression span t.text t.flags)))
      (previous >>= fun t => finish m' >>= fun span =>
        pure (some (Expr.regularExpression span t.text t.flags))) :=
    previous_approaches fun _ _ ht =>
      finished_approaches m m' (fun _ _ => by simp [ht.text, ht.flags]) fun _ _ => rfl
  have hgoes := hst.regular hslash
  unfold regularExpression
  simp only [bind_assoc, pure_bind]
  show x.Arrives _ _ (EStateM.bind (scan _) _ s) (EStateM.bind (scan _) _ t)
  unfold EStateM.bind
  cases hread : scan Scanner.readRegularExpression s with
  | error stop u => exact .stopped
  | ok a u =>
    rw [hread] at hgoes
    have hkind := ParserState.scanRegular_kind hread
    generalize scan Scanner.readRegularExpression t = outcome at hgoes
    cases hgoes with
    | ok value close => exact next_arrives close (close.same (by simp [hkind])) htaken
    | lost gone =>
      have hend := gone.ended.kind
      simp [hkind] at hend

variable (h : RulesApproach x r r')
include h

theorem simplePrimary?_approaches (m m' : Mark) (level : Precedence) :
    x.Approaches begun Matches (Manner.optExpr typed level).kept (r.simplePrimary? m) (r'.simplePrimary? m') := by
  have plain : ∀ e : Span → Expr, (∀ span span', Matches (e span) (e span')) →
      (∀ span, (e span).takesColon typed (level ≤ .assignment) = false) →
      x.Approaches True Matches (Manner.optExpr typed level).kept
        (finish m >>= fun span => Pure.pure (some (e span)))
        (finish m' >>= fun span => Pure.pure (some (e span))) := fun e he hleaves =>
    finished_approaches m m' (fun span span' => by simpa using he span span') fun _ => hleaves
  have literal : ∀ e : Span → Token → Expr,
      (∀ span span' (t t' : Token), t.Like t' → Matches (e span t) (e span' t')) →
      (∀ span t, (e span t).takesColon typed (level ≤ .assignment) = false) →
        x.Approaches True Matches (Manner.optExpr typed level).kept
          (finish m >>= fun span => previous >>= fun t => Pure.pure (some (e span t)))
          (finish m' >>= fun span => previous >>= fun t => Pure.pure (some (e span t))) :=
    fun e he hleaves => finish_approaches m m' fun span span' => previous_approaches fun t t' ht =>
      .pure (by simpa using he span span' t t' ht) fun _ => hleaves span t
  refine consumeKeyword_approaches _ ?_ ?_
  · refine expect_approaches (by decide) ?_
    refine .closed (h.shadow.typeExpr .tight) (fun type type' htype => ?_)
      fun _ => (expect_starves (k := .rightParen) (by decide)).seq
    exact expect_approaches (by decide) (finished_approaches m m' (fun _ _ => by simp_all) fun _ _ => rfl)
  refine consumeKeyword_approaches _ (plain _ (fun _ _ => rfl) fun _ => rfl) ?_
  refine consumeKeyword_approaches _ ?_ ?_
  · refine expect_approaches (by decide) (expectContextKeyword_approaches _ ?_)
    exact plain _ (fun _ _ => rfl) fun _ => rfl
  refine consumeKeyword_approaches _ (plain _ (fun _ _ => rfl) fun _ => rfl) ?_
  refine consume_approaches (by decide) (by decide)
    (literal (fun span t => .string span t.text) (fun _ _ _ _ ht => by simp [ht.text]) fun _ _ => rfl) ?_
  refine consume_approaches (by decide) (by decide)
    (literal (fun span t => .number span t.number) (fun _ _ _ _ ht => by simp [ht.number]) fun _ _ => rfl) ?_
  refine consumeKeyword_approaches _ (plain _ (fun _ _ => rfl) fun _ => rfl) ?_
  refine consumeKeyword_approaches _ (plain _ (fun _ _ => rfl) fun _ => rfl) ?_
  have rest : x.Approaches begun Matches (Manner.optExpr typed level).kept
      (do
        if ← consumeKeyword "super" then return some (Expr.super (← finish m))
        return none)
      (do
        if ← consumeKeyword "super" then return some (Expr.super (← finish m'))
        return none) :=
    consumeKeyword_approaches _ (plain _ (fun _ _ => rfl) fun _ => rfl) (.pure rfl fun _ => rfl)
  refine token_approaches (fun {s t} hst hs => ?_) fun {s a t} hs hread => ?_
  · have hlike := hst.sees.token.like
    have hsame : beginsRegularExpression s.token = beginsRegularExpression t.token := by
      simp only [beginsRegularExpression, hlike.isOperator, hlike.isCompoundAssignment]
    rw [← hsame]
    split
    · rename_i hslash
      exact regularExpression_arrives m m' hst hslash
    · exact rest.goes hst hs
  · have hslash : beginsRegularExpression s.token = false := by
      simp [beginsRegularExpression, Token.isOperator, Token.isCompoundAssignment, hs.kind]
    rw [hslash] at hread
    exact rest.stays hs hread

theorem nodeBody_approaches : x.Approaches begun Matches .leaving r.nodeBody r'.nodeBody := by
  refine consumeOperator_approaches _ ?_ ?_
  · exact expectOperator_approaches _ (.pure rfl fun _ => trivial)
  refine expectOperator_approaches _ ?_
  refine .closed h.shadow.nodeChildren_shadows (fun children children' hchildren => ?_)
    fun _ => RulesShadow.closingName_starves.seq
  have hname : Shadows x.opening .tight Eq r.closingName r'.closingName := h.shadow.closingName_shadows
  refine .closed hname (fun _ _ _ => ?_) fun _ => (expectIf_starves (Setting.proper_operator .greater)).seq
  exact expectOperator_approaches _ (.pure (by simp_all) fun _ => trivial)

omit h in
theorem nodeBody_starves {α : Type} (f : Option (List Expr) → Parse α) : Starves (r.nodeBody >>= f) :=
  have hbody : Starves r.nodeBody :=
    consumeIf_starves (Setting.proper_operator .divide) (expectIf_starves (Setting.proper_operator .greater)).seq
  hbody.seq

theorem nodeRule_approaches :
    x.Approaches begun Matches (.expr typed loose) (r.nodeRule true) (r'.nodeRule true) := by
  refine mark_approaches fun m m' => expectOperator_approaches _ (consumeOperator_approaches _ ?_ ?_)
  · refine .closed h.shadow.nodeChildren_shadows (fun children children' hchildren => ?_)
      fun _ => (expectIf_starves (Setting.proper_operator .greater)).seq
    refine expectOperator_approaches _ (finished_approaches m m' (fun _ _ => by simp_all) fun _ _ => rfl)
  have hattributes : Shadows x.opening .tight Matches (collectWhile r.nodeAttribute? r.rounds)
      (collectWhile r'.nodeAttribute? r'.rounds) :=
    collectWhile_shadows h.shadow.nodeAttribute?_shadows h.shadow.rounds_le
  have hname : ∀ {id id' : Identifier}, Matches id id' → Shadows x.opening .tight Matches
      (r.tagName r.rounds (.identifier id)) (r'.tagName r'.rounds (.identifier id')) := fun hid =>
    RulesShadow.tagName_shadows h.shadow.rounds_le (by simp_all)
  have hfirst : Shadows x.opening .tight Matches identifier identifier := identifier_shadows
  refine .closed hfirst (fun first first' hfirst => ?_)
    fun first => .after (hname (.refl first)).stays fun _ => .after hattributes.stays fun _ => nodeBody_starves _
  refine .closed (hname hfirst) (fun id id' hid => ?_) fun _ => .after hattributes.stays fun _ => nodeBody_starves _
  refine .closed hattributes (fun attributes attributes' hattributes => ?_) fun _ => nodeBody_starves _
  refine .matched h.nodeBody_approaches (fun children children' hchildren => ?_) False.elim
    fun _ => .bind (.finish m') fun _ => .pure _
  exact finished_approaches m m' (fun span span' => by simp_all) fun _ _ => rfl

theorem optPrimaryRule_approaches (typed : Bool) (level : Precedence) :
    x.Approaches begun Matches (.optExpr typed level) (r.optPrimaryRule typed level)
      (r'.optPrimaryRule typed level) := by
  have given : ∀ {begun : Prop} {p p' : Parse Expr},
      x.Approaches begun Matches (.expr typed (level ≤ .assignment)) p p' →
      x.Approaches begun Matches (.optExpr typed level) (p >>= fun e => Pure.pure (some e))
        (p' >>= fun e => Pure.pure (some e)) := fun hp =>
    hp.given (fun e e' he => by simp_all) (fun _ => id) fun _ => id
  refine mark_approaches fun m m' => ?_
  refine consume_approaches (by decide) (by decide) (given h.identifierPrimary_approaches) ?_
  have hsimple : x.Approaches begun Matches (Manner.optExpr typed level).kept (r.simplePrimary? m)
      (r'.simplePrimary? m') := h.simplePrimary?_approaches m m' level
  refine .bind hsimple (fun found => ⟨found, .refl found⟩)
    (fun found found' hfound => ?_) False.elim fun _ _ => False.elim
  cases found <;> cases found' <;> simp at hfound
  case some.some e e' => exact .pure (by simp_all) id
  refine consume_approaches (by decide) (by decide) (given (h.parensPrimary_approaches m m' level)) ?_
  refine consume_approaches (by decide) (by decide) (given (h.objectInitializer_approaches m m')) ?_
  refine consume_approaches (by decide) (by decide) (given (h.arrayInitializer_approaches m m')) ?_
  refine consumeKeyword_approaches _ (given (h.newExpr_approaches m m')) ?_
  exact atOperator?_approaches _ (given h.nodeRule_approaches) (.pure rfl fun _ => rfl)

end Operands

section Continuations

variable (h : RulesApproach x r r')
include h

theorem castContinuation_approaches (m m' : Mark) {base base' : Expr} (hbase : Matches base base') :
    x.Approaches begun Matches (.expr typed loose) (r.castContinuation m base) (r'.castContinuation m' base') := by
  have rest : ∀ {begun : Prop} (op : Operator), x.Approaches begun Matches (.expr typed loose)
      (r.typeExpr >>= fun right => finish m >>= fun span => Pure.pure (Expr.typeBinary span op base right))
      (r'.typeExpr >>= fun right => finish m' >>= fun span => Pure.pure (Expr.typeBinary span op base' right)) :=
    fun op => h.types.typeExpr_ends (fun _ _ _ _ htype => by simp_all) fun _ _ => rfl
  refine consume_approaches (by decide) (by decide) (rest .asTypeStrict) ?_
  exact consume_approaches (by decide) (by decide) (rest .asType) (rest .asType)

theorem listContinuation_approaches (allowIn : Bool) (m m' : Mark) {base base' : Expr}
    (hbase : Matches base base') : x.Approaches begun Matches (.expr typed loose)
      (r.listContinuation allowIn m base) (r'.listContinuation allowIn m' base') := by
  have hitems : x.Approaches True Matches (Manner.expr true true).last
      (separated (r.assignmentExpr allowIn) r.rounds) (separated (r'.assignmentExpr allowIn) r'.rounds) :=
    separated_approaches (h.assignmentExpr_approaches allowIn)
      (.of_reads (h.types.sound.assignmentExpr_reads allowIn)) h.shadow.rounds_le
  refine .weaken (.matched hitems (fun rest rest' hrest => ?_) ?_ fun _ => .bind (.finish m') fun _ => .pure _)
    fun _ => trivial
  · refine finished_approaches m m' (fun _ _ => by simp_all) ?_
    rintro ⟨last, hlast, hleaves⟩ span
    exact (Expr.lastTakesColon_last hlast base).trans hleaves
  · rintro rest s e t ⟨last, hlast, htakes⟩ - hread
    cases hread
    exact (Expr.lastTakesColon_last hlast base).trans htakes

theorem conditionalContinuation_approaches (allowIn : Bool) (m m' : Mark) {base base' : Expr}
    (hbase : Matches base base') : x.Approaches begun Matches (.expr typed loose)
      (r.conditionalContinuation allowIn m base) (r'.conditionalContinuation allowIn m' base') := by
  have hconsequent : ∀ mode : ExprMode, mode.level ≠ .list →
      Shadows x.opening .tight Matches (r.expr mode) (r'.expr mode) := fun mode hlevel =>
    h.shadow.expr_shadows (Or.inl hlevel)
  refine .closed (hconsequent _ nofun) (fun consequent consequent' hconsequent => ?_)
    fun _ => (expect_starves (k := .colon) (by decide)).seq
  refine expect_approaches (by decide) (h.expr_ends ?_ fun _ _ => rfl)
  exact fun _ _ _ _ halternative => by simp_all

theorem optionalContinuation_approaches (m m' : Mark) {base base' : Expr} (hbase : Matches base base') :
    x.Approaches begun Matches (.expr typed loose) (r.optionalContinuation m base)
      (r'.optionalContinuation m' base') := by
  refine consume_approaches (by decide) (by decide) (h.callContinuation_approaches m m' true hbase) ?_
  refine consume_approaches (by decide) (by decide) (h.indexContinuation_approaches m m' true hbase) ?_
  refine .matched wordIdentifier_approaches (fun id id' hid => ?_) False.elim
    fun id => .bind (.finish m') fun span => .pure _
  exact finished_approaches m m' (fun _ _ => by simp_all) fun _ _ => rfl

theorem continueWith_approaches (allowIn : Bool) (m m' : Mark) {base base' : Expr}
    (compound : Option Operator) {way : Continuation} (hbase : Matches base base')
    (hbinary : ∀ rule, way = .binary rule → .assignment < rule.operandLevel)
    (hbehind : ∀ op, way = .behind op → op.unaryBinding = .suffix) :
    x.Approaches True Matches (.expr typed loose) (r.continueWith allowIn m base compound way)
      (r'.continueWith allowIn m' base' compound way) := by
  cases way with
  | binary rule =>
    have htight : decide (rule.operandLevel ≤ .assignment) = false :=
      decide_eq_false (Nat.not_le.mpr (hbinary rule rfl))
    refine h.expr_ends (fun _ _ _ _ hright => by simp_all) fun _ right => ?_
    rw [htight]
    rfl
  | within => exact h.expr_ends (fun _ _ _ _ hright => by simp_all) fun _ _ => rfl
  | behind op =>
    exact finished_approaches m m' (fun _ _ => by simp_all) fun _ span => by
      simp [Manner.expr, Manner.telling, Expr.takesColon, hbehind op rfl]
  | cast => exact h.castContinuation_approaches m m' hbase
  | typeTest op => exact h.types.typeExpr_ends (fun _ _ _ _ hright => by simp_all) fun _ _ => rfl
  | assign =>
    have htarget : Shadows x.opening .tight Matches (assignmentTarget base) (assignmentTarget base') :=
      RulesShadow.assignmentTarget_shadows hbase
    refine .closed htarget (fun left left' hleft => ?_) fun _ => (h.shadow.assignmentExpr_starves allowIn).seq
    exact h.expr_ends (fun _ _ _ _ hright => by simp_all) fun _ _ => rfl
  | compoundAssign => exact h.expr_ends (fun _ _ _ _ hright => by simp_all) fun _ _ => rfl
  | conditional => exact h.conditionalContinuation_approaches allowIn m m' hbase
  | list => exact h.listContinuation_approaches allowIn m m' hbase
  | dot => exact h.dotContinuation_approaches m m' hbase
  | index => exact h.indexContinuation_approaches m m' false hbase
  | call => exact h.callContinuation_approaches m m' false hbase
  | optionalChain => exact h.optionalContinuation_approaches m m' hbase

omit h in
theorem continuations_ended {allowIn : Bool} {level : Precedence} {fuel : Nat} {base e : Expr}
    {s u : ParserState} (hs : s.Ended) (hread : r.continuations allowIn level fuel base s = .ok e u) :
    e = base ∧ u = s := by
  cases fuel with
  | zero => cases hread
  | succ fuel =>
    cases hway : continuation? allowIn level s with
    | some way => exact absurd hs.kind (Setting.Sound.continuation?_proper hway)
    | none =>
      rw [RulesShadow.continuations_none hway] at hread
      cases hread
      exact ⟨rfl, rfl⟩

theorem continuations_approaches (allowIn : Bool) (level : Precedence) :
    ∀ {fuel fuel' : Nat}, fuel ≤ fuel' → ∀ {base base' : Expr}, Matches base base' →
      x.Approaches (base.takesColon typed loose = false) Matches (.expr typed loose)
        (r.continuations allowIn level fuel base) (r'.continuations allowIn level fuel' base')
  | 0, _, _, _, _, _ => .exhausted
  | fuel + 1, fuel' + 1, hle, base, base', hbase => by
    refine taking_approaches (γ := Continuation × Option Operator)
      (fun s => (continuation? allowIn level s).map fun way => (way, s.token.operator))
      (fun t => (continuation? allowIn level t).map fun way => (way, t.token.operator))
      (fun way => r.continueWith allowIn (Mark.ofSpan base.span) base way.2 way.1 >>=
        r.continuations allowIn level fuel)
      (fun way => r'.continueWith allowIn (Mark.ofSpan base'.span) base' way.2 way.1 >>=
        r'.continuations allowIn level fuel')
      (y := Pure.pure base) (fun {s way} hc => ?_) (fun {s} hc => ?_)
      (fun {t way} hc => ?_) (fun {t} hc => ?_) (fun {s way} hc => ?_) (fun {s t} hst heq => ?_)
      (fun {t} hcolon => ?_) (fun way s hc => ?_) (.pure hbase id)
    · obtain ⟨way, hway, rfl⟩ := Option.map_eq_some_iff.mp hc
      exact RulesShadow.continuations_some hway
    · exact RulesShadow.continuations_none (Option.map_eq_none_iff.mp hc)
    · obtain ⟨way, hway, rfl⟩ := Option.map_eq_some_iff.mp hc
      exact RulesShadow.continuations_some hway
    · exact RulesShadow.continuations_none (Option.map_eq_none_iff.mp hc)
    · obtain ⟨way, hway, -⟩ := Option.map_eq_some_iff.mp hc
      exact Setting.Sound.continuation?_proper hway
    · rw [continuation?_same hst.sees x.layered heq, hst.sees.token.like.operator]
    · rw [continuation?_behind (by simp [hcolon])]
      rfl
    · obtain ⟨way, hway, rfl⟩ := Option.map_eq_some_iff.mp hc
      refine .matched (h.continueWith_approaches allowIn _ _ _ hbase ?_ ?_)
        (fun longer longer' => continuations_approaches allowIn level (Nat.le_of_succ_le_succ hle)) ?_ ?_
      · rintro rule rfl
        exact continuation?_binary hway
      · rintro op rfl
        exact continuation?_within hway
      · rintro longer u e v htakes hu hread
        obtain ⟨rfl, rfl⟩ := continuations_ended hu hread
        exact htakes
      · intro longer
        exact .of_reads (h.types.sound.continuations_reads allowIn level fuel' longer 0 (Nat.zero_le _) (Nat.zero_le _))

end Continuations

section Beginnings

variable {rule : OperatorRule}

/-- An operator in front of an operand is looser than those behind one, and only `yield` may have any
expression behind it. -/
theorem front?_operand {t : Token} (h : OperatorRule.front? t = some rule) :
    rule.operator.unaryBinding ≠ .suffix ∧
      decide (rule.operandLevel ≤ .assignment) = (rule.operator == .yield) := by
  unfold OperatorRule.front? at h
  repeat' split at h
  all_goals cases h
  all_goals decide

variable (h : RulesApproach x r r')
include h

theorem unaryExpr_arrives {t : Token} (hrule : OperatorRule.front? t = some rule) (allowIn : Bool)
    {level : Precedence} {s u : ParserState} (hsu : x.Along s u) (hkind : s.token.kind = u.token.kind) :
    x.Arrives Matches (.optExpr typed level) ((r.unaryExpr rule allowIn >>= fun e => pure (some e)) s)
      ((r'.unaryExpr rule allowIn >>= fun e => pure (some e)) u) := by
  obtain ⟨hbefore, hlevel⟩ := front?_operand hrule
  have hends : ∀ span operand, (Expr.unary span rule.operator operand).takesColon typed (level ≤ .assignment) =
      operand.takesColon true (rule.operandLevel ≤ .assignment) := by
    intro span operand
    rw [hlevel]
    simp [Expr.takesColon, hbefore]
  have hoperand : ∀ m m', x.Approaches True Matches (.optExpr typed level)
      (r.expr { allowIn, level := rule.operandLevel } >>= fun operand => finish m >>= fun span =>
        noteUse rule.operator span >>= fun _ => pure (some (.unary span rule.operator operand)))
      (r'.expr { allowIn, level := rule.operandLevel } >>= fun operand => finish m' >>= fun span =>
        noteUse rule.operator span >>= fun _ => pure (some (.unary span rule.operator operand))) := by
    intro m m'
    refine .matched (h.expr_approaches _) (fun operand operand' hmatch => ?_) ?_ fun operand => ?_
    · refine finish_approaches m m' fun span span' => noteUse_approaches _ _ _ (.pure (by simp_all) fun hleaves => ?_)
      exact (hends span operand).trans hleaves
    · rintro operand s e t htakes - hread
      obtain ⟨span, _, -, hread⟩ := bind_ok hread
      obtain ⟨_, _, -, hread⟩ := bind_ok hread
      cases hread
      exact (hends span operand).trans htakes
    · exact .bind (.finish m') fun span => .bind (.noteUse _ span) fun _ => .pure _
  unfold unaryExpr
  simp only [bind_assoc, pure_bind]
  rw [mark_bind, mark_bind]
  exact next_arrives hsu hkind (hoperand _ _)

theorem operand?_approaches (mode : ExprMode) :
    x.Approaches begun Matches (.optExpr mode.allowTyped mode.level) (r.operand? mode) (r'.operand? mode) := by
  refine .matched (h.optPrimaryRule_approaches mode.allowTyped mode.level) (fun found found' hfound => ?_)
    (fun {found} => ?_) fun found => ?_
  · cases found <;> cases found' <;> simp at hfound
    case some.some e e' => exact .pure (by simp_all) id
    refine token_approaches (fun {s t} hst _ => ?_) fun {s a t} hs hread => ?_
    · obtain heq | ⟨hend, hcolon, -⟩ := hst.same_or_over
      · have hlike := hst.sees.token.like
        rw [← hlike.front? heq, ← hlike.isKeyword]
        cases hrule : (OperatorRule.front? s.token).filter (mode.level ≤ ·.level) with
        | some rule => exact h.unaryExpr_arrives (Option.filter_eq_some_iff.mp hrule).1 _ hst heq
        | none =>
          have given : x.Approaches True Matches (.optExpr mode.allowTyped mode.level)
              (r.functionExpr >>= fun e => pure (some e)) (r'.functionExpr >>= fun e => pure (some e)) :=
            h.functionExpr_approaches.given (fun e e' he => by simpa using he) (fun _ => id) fun _ => id
          have nothing : x.Approaches True Matches (.optExpr mode.allowTyped mode.level) (pure none) (pure none) :=
            .pure rfl fun _ => rfl
          exact (Approaches.ite given nothing).goes hst fun _ => trivial
      · have hover : s.token.kind.isOver = true := by rw [hend.kind]; rfl
        have hnone : OperatorRule.front? t.token = none := by simp [OperatorRule.front?, hcolon]
        have hword : t.token.isKeyword "function" = false := by simp [Token.isKeyword, hcolon]
        rw [front?_over hover, hnone, isKeyword_over hover, hword, Bool.and_false]
        exact .abreast rfl hst fun _ => rfl
    · have hover : s.token.kind.isOver = true := by rw [hs.kind]; rfl
      rw [front?_over hover, isKeyword_over hover, Bool.and_false] at hread
      cases hread
      exact hs.rests
  · rintro s e t htakes - hread
    cases found with
    | none => cases htakes
    | some base =>
      cases hread
      exact htakes
  · cases found with
    | some base => exact .pure (some base)
    | none =>
      refine .bind .token fun t => ?_
      have S := h.types.sound
      cases (OperatorRule.front? t).filter (mode.level ≤ ·.level) with
      | some rule =>
        refine .bind (.bind .mark fun m => .bind .next fun _ => ?_) fun e => .pure (some e)
        refine .bind (.of_reads (S.expr_reads _)) fun operand => .bind (.finish m) fun span => ?_
        exact .bind (.noteUse _ span) fun _ => .pure _
      | none => exact .ite (.bind (.of_reads S.functionExpr_reads) fun e => .pure (some e)) (.pure none)

theorem optExprRule_approaches (mode : ExprMode) :
    x.Approaches begun Matches (.optExpr mode.allowTyped mode.level) (r.optExprRule mode)
      (r'.optExprRule mode) := by
  refine .matched (h.operand?_approaches mode) (fun found found' hfound => ?_) (fun {found} => ?_)
    fun found => ?_
  · cases found <;> cases found' <;> simp at hfound
    · exact .pure rfl fun _ => rfl
    · refine .given (h.continuations_approaches mode.allowIn mode.level h.shadow.rounds_le hfound)
        (fun e e' he => by simpa using he) (fun _ => id) fun _ => id
  · rintro s e t htakes hs hread
    cases found with
    | none => cases htakes
    | some base =>
      obtain ⟨e', u, hcontinued, hsome⟩ := bind_ok hread
      obtain ⟨rfl, -⟩ := continuations_ended hs hcontinued
      cases hsome
      exact htakes
  · cases found with
    | none => exact .pure none
    | some base =>
      exact .bind (.of_reads (h.types.sound.continued_reads base mode.allowIn mode.level)) fun e => .pure (some e)

theorem exprRule_approaches (mode : ExprMode) :
    x.Approaches begun Matches (.expr mode.allowTyped (mode.level ≤ .assignment)) (r.exprRule mode)
      (r'.exprRule mode) := found_approaches (h.optExprRule_approaches mode) (fun _ => rfl) rfl

theorem blockRule_approaches (context : Context) :
    x.Approaches begun Matches .leaving (r.blockRule context) (r'.blockRule context) := by
  refine freshSuper_approaches (mark_approaches fun m m' => expect_approaches (by decide) ?_)
  refine .closed (h.shadow.blockStatements_shadows context h.shadow.rounds_le)
    (fun statements statements' hstatements => ?_) fun _ => (expect_starves (k := .rightBrace) (by decide)).seq
  exact expect_approaches (by decide) (finished_approaches m m' (fun _ _ => by simp_all) fun _ _ => trivial)

end Beginnings

end RulesApproach

section Levels

variable (x : Stem) (readFile : String → Option String) (depth : Nat)

theorem level_typesApproach : ∀ {n n' : Nat}, n ≤ n' →
    TypesApproach x (level readFile (includeAt readFile depth) n)
      (level readFile (includeAt readFile depth) n')
  | 0, n', hle => {
      shadow := level_typesShadow readFile depth hle
      sound := level_lenient readFile depth n'
      typeExpr := .exhausted }
  | _ + 1, n' + 1, hle => {
      shadow := level_typesShadow readFile depth hle
      sound := level_lenient readFile depth (n' + 1)
      typeExpr := (level_typesApproach (Nat.le_of_succ_le_succ hle)).typeExprRule_approaches }

theorem level_approach : ∀ {n n' : Nat}, n ≤ n' →
    RulesApproach x (level readFile (includeAt readFile depth) n)
      (level readFile (includeAt readFile depth) n')
  | 0, _, hle => {
      types := level_typesApproach x readFile depth hle
      shadow := level_shadow readFile depth x.layered hle
      builder := level_builder (includeAt_builds readFile depth) 0
      optExpr := fun _ => .exhausted
      optPrimary := fun _ _ => .exhausted
      block := fun _ => .exhausted }
  | n + 1, _ + 1, hle =>
    have h := level_approach (Nat.le_of_succ_le_succ hle)
    { types := level_typesApproach x readFile depth hle
      shadow := level_shadow readFile depth x.layered hle
      builder := level_builder (includeAt_builds readFile depth) (n + 1)
      optExpr := h.optExprRule_approaches
      optPrimary := h.optPrimaryRule_approaches
      block := h.blockRule_approaches }

end Levels

end ActionSyntax
