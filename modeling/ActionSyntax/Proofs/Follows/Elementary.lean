import ActionSyntax.Proofs.Follows.Contract

/-!
The elementary readings, and the loops over items, side by side.
-/

namespace ActionSyntax.Parse

set_option autoImplicit false

variable {refused : ParserState → Prop} {known : List Place} {s t : ParserState}
  {α β : Type}

section Looking

theorem get_follows : Follows refused known (get : Parse ParserState) get := fun s hs _ =>
  .of_lands ⟨.refl s, .state hs⟩

theorem token_follows : Follows refused known Parse.token Parse.token := fun s hs _ =>
  .of_lands ⟨.refl s, .of_ranges hs.token⟩

theorem previous_follows : Follows refused known previous previous := fun s hs _ =>
  .of_lands ⟨.refl s, .of_ranges hs.previous⟩

theorem kind_follows : Follows refused known kind kind := fun s _ _ => .of_lands ⟨.refl s, nofun⟩

theorem at?_follows (k : TokenKind) : Follows refused known (at? k) (at? k) := fun s _ _ =>
  .of_lands ⟨.refl s, nofun⟩

theorem atKeyword?_follows (word : String) :
    Follows refused known (atKeyword? word) (atKeyword? word) := fun s _ _ =>
  .of_lands ⟨.refl s, nofun⟩

theorem atOperator?_follows (op : Operator) :
    Follows refused known (atOperator? op) (atOperator? op) := fun s _ _ =>
  .of_lands ⟨.refl s, nofun⟩

theorem mark_follows : Follows refused known mark mark := fun s hs _ =>
  .of_lands ⟨.refl s, (ParserState.Knows.of_ranges hs.token).subset (by simp [places, Mark.ofSpan])⟩

theorem finish_follows (m : Mark) (hm : places m ⊆ known) :
    Follows refused known (finish m) (finish m) := fun s hs hknown =>
  .of_lands ⟨.refl s, .of_ranges
    ⟨hknown.subset hm (m.line, m.start) (by simp [places]), hs.previous.2⟩⟩

/-- Something that covers all from a mark on. -/
theorem finished_follows [Located α] {f : Span → α} (m : Mark)
    (hm : places m ⊆ known)
    (hf : ∀ span, places (f span) ⊆ places span) :
    Follows refused known (finish m >>= fun span => pure (f span))
      (finish m >>= fun span => pure (f span)) :=
  .seq (finish_follows m hm) fun span => .pure _
    (List.subset_append_of_subset_left _ (hf span))

theorem previousIdentifier_follows :
    Follows refused known previousIdentifier previousIdentifier := fun s hs _ =>
  .of_lands ⟨.refl s, .of_ranges hs.previous⟩

end Looking

section Steps

theorem next_follows : Follows refused known next next := fun s _ _ => by
  have hstrides : Strides s s.advance := .scan (.keep (.refl s))
  rw [next_apply]
  refine .of_lands ?_
  cases s.scanner.next.1 with
  | ok u => exact ⟨hstrides, nofun⟩
  | error p => exact hstrides

theorem scanRegular_meets (hslash : Rules.beginsRegularExpression s.token = true) :
    Meets refused s (scan Scanner.readRegularExpression s)
      (scan Scanner.readRegularExpression s) := by
  have hstrides : Strides s s.advanceRegular := .regular (.refl s) hslash
  rw [scanRegular_apply]
  refine .of_lands ?_
  cases s.scanner.readRegularExpression.1 with
  | ok u => exact ⟨hstrides, nofun⟩
  | error p => exact hstrides

theorem report_follows {severity : Severity} (error : severity ≠ .warning) (id : ProblemId)
    (span : Span) (arguments : List (String × Argument)) (hspan : places span ⊆ known) :
    Follows refused known (report severity id span arguments)
      (report severity id span arguments) := fun s _ hknown =>
  .of_lands ⟨.collect (.refl s) (hknown.subset hspan).ranges (beq_eq_false_iff_ne.mpr error), nofun⟩

theorem syntaxError_follows (id : ProblemId) (span : Span)
    (hspan : places span ⊆ known) :
    Follows refused known (syntaxError id span) (syntaxError id span) :=
  report_follows (by decide) _ _ _ hspan

theorem verifyError_follows (id : ProblemId) (span : Span)
    (hspan : places span ⊆ known) :
    Follows refused known (verifyError id span) (verifyError id span) :=
  report_follows (by decide) _ _ _ hspan

theorem stopAt_follows [Located α] (id : ProblemId) (span : Span)
    (arguments : List (String × Argument)) (hspan : places span ⊆ known) :
    Follows refused known (stopAt id span arguments : Parse α) (stopAt id span arguments) :=
  fun s _ hknown => .of_lands (.collect (.refl s) (hknown.subset hspan).ranges rfl)

theorem unexpected_follows [Located α] :
    Follows refused known (unexpected : Parse α) unexpected :=
  .seq token_follows fun _ => stopAt_follows _ _ _ (by simp [places])

theorem exhausted_follows [Located α] :
    Follows refused known (exhausted : Parse α) exhausted := fun s _ _ => .of_lands (.refl s)

theorem note_lands [Located α] {x : Parse α} {a : α} (functions : List FunctionUse)
    (superFound : Bool) (hx : x s = .ok a { s with functions, superFound })
    (ha : places a = []) : Meets refused s (x s) (x s) := by
  rw [hx]
  exact .of_lands ⟨.note (.refl s) functions superFound, by simp [ha, ParserState.Knows]⟩

end Steps

section Consuming

variable {condition : Token → Bool}

theorem consumeIf_follows (condition : Token → Bool) :
    Follows refused known (consumeIf condition) (consumeIf condition) := by
  refine .seq token_follows fun t => ?_
  exact .ite (.seq next_follows fun _ =>
    .pure true (List.nil_subset _)) (.pure false (List.nil_subset _))

theorem consume_follows (k : TokenKind) : Follows refused known (consume k) (consume k) :=
  consumeIf_follows _

theorem consumeIdentifier_follows :
    Follows refused known consumeIdentifier consumeIdentifier := consumeIf_follows _

theorem consumeOperator_follows (op : Operator) :
    Follows refused known (consumeOperator op) (consumeOperator op) := consumeIf_follows _

theorem consumeKeyword_follows (word : String) :
    Follows refused known (consumeKeyword word) (consumeKeyword word) := consumeIf_follows _

theorem consumeContextKeyword_follows (word : String) :
    Follows refused known (consumeContextKeyword word) (consumeContextKeyword word) :=
  consumeIf_follows _

theorem expectIf_follows (condition : Token → Bool) :
    Follows refused known (expectIf condition) (expectIf condition) :=
  .seq (consumeIf_follows _) fun _ => .ite unexpected_follows (.pure () (List.nil_subset _))

theorem expect_follows (k : TokenKind) : Follows refused known (expect k) (expect k) :=
  expectIf_follows _

theorem expectOperator_follows (op : Operator) :
    Follows refused known (expectOperator op) (expectOperator op) := expectIf_follows _

theorem expectKeyword_follows (word : String) :
    Follows refused known (expectKeyword word) (expectKeyword word) := expectIf_follows _

theorem expectContextKeyword_follows (word : String) :
    Follows refused known (expectContextKeyword word) (expectContextKeyword word) :=
  expectIf_follows _

theorem expectName_follows : Follows refused known expectName expectName :=
  .seq (expect_follows _) fun _ => .seq previous_follows fun _ => .pure _ (List.nil_subset _)

theorem identifierOf_follows (condition : Token → Bool) :
    Follows refused known (identifierOf condition) (identifierOf condition) := by
  refine .seq mark_follows fun m => ?_
  refine .seq (expectIf_follows _) fun _ => ?_
  exact .seq (finish_follows m (by grind)) fun span => .seq previous_follows fun _ =>
    .pure _ (by grind)

theorem identifier_follows : Follows refused known identifier identifier :=
  identifierOf_follows _

theorem wordIdentifier_follows : Follows refused known wordIdentifier wordIdentifier :=
  identifierOf_follows _

theorem expectGreater_follows : Follows refused known expectGreater expectGreater := by
  refine .seq (consumeOperator_follows _) fun found => ?_
  refine .ite (.pure () (List.nil_subset _)) ?_
  intro s hs hknown
  rw [token_bind]
  cases hafter : afterGreater? s.token with
  | none => exact unexpected_follows s hs hknown
  | some after => exact .of_lands ⟨.split (.refl s) hafter, nofun⟩

theorem endStatement_follows : Follows refused known endStatement endStatement := by
  refine .seq (consume_follows _) fun _ => ?_
  exact .ite (.pure true (List.nil_subset _)) (.seq get_follows fun _ =>
    .pure _ (List.nil_subset _))

theorem expectEnd_follows : Follows refused known expectEnd expectEnd :=
  .seq (at?_follows _) fun _ => .ite unexpected_follows (.pure () (List.nil_subset _))

end Consuming

section Loops

variable [Located α]

theorem separated_follows {item item' : Parse α}
    (hitem : ∀ known, Follows refused known item item') :
    ∀ fuel known, Follows refused known (separated item fuel) (separated item' fuel)
  | 0, _ => exhausted_follows
  | fuel + 1, known => by
    refine .seq (hitem known) fun first => ?_
    refine .seq (consume_follows _) fun more => ?_
    exact .ite (.seq (separated_follows hitem fuel _) fun _ =>
      .pure _ (by grind)) (.pure _ (by grind))

theorem separatedUntil_follows (closing : TokenKind) {item item' : Parse α}
    (hitem : ∀ known, Follows refused known item item') :
    ∀ fuel known, Follows refused known (separatedUntil closing item fuel)
      (separatedUntil closing item' fuel)
  | 0, _ => exhausted_follows
  | fuel + 1, known => by
    refine .seq (at?_follows _) fun closed => ?_
    refine .ite (.pure _ (List.nil_subset _)) ?_
    refine .seq (hitem _) fun first => ?_
    refine .seq (consume_follows _) fun more => ?_
    exact .ite (.seq (separatedUntil_follows closing hitem fuel _) fun _ =>
      .pure _ (by grind)) (.pure _ (by grind))

theorem collectWhile_follows {step step' : Parse (Option α)}
    (hstep : ∀ known, Follows refused known step step') :
    ∀ fuel known, Follows refused known (collectWhile step fuel) (collectWhile step' fuel)
  | 0, _ => exhausted_follows
  | fuel + 1, known => by
    refine .seq (hstep known) fun found => ?_
    cases found with
    | none => exact .pure _ (List.nil_subset _)
    | some first => exact .seq (collectWhile_follows hstep fuel _) fun _ => .pure _ (by grind)

end Loops

section Surroundings

variable [Located α] {body body' : Parse α}

theorem freshSuper_follows (hbody : Follows refused known body body') :
    Follows refused known (freshSuper body) (freshSuper body') := by
  intro s hs hknown
  have hin : Strides s { s with superFound := false } := .note (.refl s) s.functions false
  obtain ⟨hlands, hagree⟩ := hbody _ (hin.walk.sound hs).1 (hknown.walk hs hin.walk)
  unfold freshSuper
  refine ⟨?_, ?_⟩
  · cases hb : body' { s with superFound := false } with
    | ok a t =>
      rw [hb] at hlands
      exact ⟨.note (hin.trans hlands.1) t.functions s.superFound, hlands.2⟩
    | error stop t =>
      rw [hb] at hlands
      exact .note (hin.trans hlands) t.functions s.superFound
  · rcases hagree with heq | ⟨⟨t, ht⟩, hrefuses⟩
    · rw [heq]
      exact Or.inl rfl
    · rw [ht]
      refine Or.inr ⟨⟨_, rfl⟩, ?_⟩
      cases hb : body' { s with superFound := false } with
      | ok a u =>
        rw [hb] at hrefuses
        exact hrefuses.walk (.note (.refl u) u.functions s.superFound)
      | error stop u =>
        rw [hb] at hrefuses
        exact hrefuses.walk (.note (.refl u) u.functions s.superFound)

theorem pushFunction_follows : Follows refused known pushFunction pushFunction := fun s _ _ =>
  note_lands ({} :: s.functions) s.superFound rfl rfl

theorem popFunction_follows : Follows refused known popFunction popFunction := fun s _ _ =>
  note_lands s.functions.tail s.superFound rfl rfl

theorem inFunction_follows (hbody : ∀ known, Follows refused known body body') :
    Follows refused known (inFunction body) (inFunction body') := by
  refine .seq pushFunction_follows fun _ => ?_
  refine .seq (hbody _) fun value => ?_
  exact .seq popFunction_follows fun use => .pure _ (by grind)

end Surroundings

end ActionSyntax.Parse
