import ActionSyntax.Grammar.Rules
import ActionSyntax.Proofs.Outcome

/-!
The outcomes of the elementary readings: looking at tokens, consuming them, recording problems, and
the loops over items.
-/

namespace ActionSyntax.Parse

set_option autoImplicit false

section Looking

variable {α : Type} (s : ParserState)

@[simp] theorem get_bind (f : ParserState → Parse α) : (get >>= f) s = f s s := rfl

@[simp] theorem token_bind (f : Token → Parse α) : (token >>= f) s = f s.token s := rfl

@[simp] theorem previous_bind (f : Token → Parse α) : (previous >>= f) s = f s.previous s := rfl

@[simp] theorem kind_bind (f : TokenKind → Parse α) : (kind >>= f) s = f s.token.kind s := rfl

@[simp] theorem at?_bind (k : TokenKind) (f : Bool → Parse α) :
    (at? k >>= f) s = f (s.token.kind == k) s := rfl

@[simp] theorem atKeyword?_bind (word : String) (f : Bool → Parse α) :
    (atKeyword? word >>= f) s = f (s.token.isKeyword word) s := rfl

@[simp] theorem atOperator?_bind (op : Operator) (f : Bool → Parse α) :
    (atOperator? op >>= f) s = f (s.token.isOperator op) s := rfl

@[simp] theorem mark_bind (f : Mark → Parse α) :
    (mark >>= f) s = f (Mark.ofSpan s.token.span) s := rfl

@[simp] theorem finish_bind (m : Mark) (f : Span → Parse α) :
    (finish m >>= f) s = f (m.«to» s.previous.span) s := rfl

@[simp] theorem previousIdentifier_bind (f : Identifier → Parse α) :
    (previousIdentifier >>= f) s =
      f { span := s.previous.span, name := s.previous.text } s := rfl

@[simp] theorem pure_bind_apply {β : Type} (a : β) (f : β → Parse α) :
    ((pure a : Parse β) >>= f) s = f a s := rfl

end Looking

theorem bind_ok {α β : Type} {x : Parse α} {f : α → Parse β} {b : β} {s u : ParserState}
    (h : (x >>= f) s = .ok b u) : ∃ a t, x s = .ok a t ∧ f a t = .ok b u := by
  change EStateM.bind x f s = .ok b u at h
  unfold EStateM.bind at h
  cases hx : x s with
  | ok a t =>
    rw [hx] at h
    exact ⟨a, t, rfl, h⟩
  | error stop t =>
    rw [hx] at h
    cases h

theorem scan_apply (step : Scanner → Except Problem Unit × Scanner) (s : ParserState) :
    scan step s = match (step s.scanner).1 with
      | .ok () => .ok () { s with scanner := (step s.scanner).2 }
      | .error p => .error (.problem p) { s with scanner := (step s.scanner).2 } := by
  unfold scan
  rcases step s.scanner with ⟨_ | _, _⟩ <;> rfl

theorem next_apply (s : ParserState) :
    next s = match s.scanner.next.1 with
      | .ok () => .ok () s.advance
      | .error p => .error (.problem p) s.advance :=
  scan_apply Scanner.next { s with previous := s.token }

/-- A token that is read is the next one of the scanner. -/
theorem next_inv {s t : ParserState} (h : next s = .ok () t) :
    s.scanner.next = (.ok (), t.scanner) ∧ t = s.advance := by
  rw [next_apply] at h
  split at h
  · rename_i hok
    cases h
    exact ⟨Prod.ext hok rfl, rfl⟩
  · cases h

theorem scanRegular_apply (s : ParserState) :
    scan Scanner.readRegularExpression s = match s.scanner.readRegularExpression.1 with
      | .ok () => .ok () s.advanceRegular
      | .error p => .error (.problem p) s.advanceRegular :=
  scan_apply Scanner.readRegularExpression s

end ActionSyntax.Parse

namespace ActionSyntax.ParserState

open Scan

variable (s : ParserState)

/-- A step that fails stops the scanner at its problem. -/
theorem advance_stops {p : Problem} (h : s.scanner.next.1 = .error p) :
    ∃ (sc : Scanner) (failure : Failure), p = failure.problem ∧ s.advance.scanner = sc.stopAt failure := by
  obtain ⟨_, _, _, _, _, he⟩ | ⟨failure, token, _, he⟩ := s.scanner.next_cases
  · rw [he] at h
    cases h
  · rw [he] at h
    cases h
    exact ⟨_, failure, rfl, congrArg Prod.snd he⟩

theorem advanceRegular_stops {p : Problem} (h : s.scanner.readRegularExpression.1 = .error p) :
    ∃ (sc : Scanner) (failure : Failure), p = failure.problem ∧
      s.advanceRegular.scanner = sc.stopAt failure := by
  obtain ⟨_, _, _, _, _, he⟩ | ⟨failure, he⟩ := s.scanner.readRegularExpression_cases
  · rw [he] at h
    cases h
  · rw [he] at h
    cases h
    exact ⟨_, failure, rfl, congrArg Prod.snd he⟩

/-- Where the scanner has stopped, its problem is recorded. -/
theorem has_stopAt {t : ParserState} {sc : Scanner} {failure : Failure}
    (h : t.scanner = sc.stopAt failure) : t.Has failure.problem := by
  refine ⟨?_, rfl⟩
  simp [script, h, Scanner.stopAt, Script.collect]

theorem advance_has {p : Problem} (h : s.scanner.next.1 = .error p) : s.advance.Has p := by
  obtain ⟨_, failure, rfl, he⟩ := s.advance_stops h
  exact has_stopAt he

theorem advanceRegular_has {p : Problem} (h : s.scanner.readRegularExpression.1 = .error p) :
    s.advanceRegular.Has p := by
  obtain ⟨_, failure, rfl, he⟩ := s.advanceRegular_stops h
  exact has_stopAt he

/-- A token that is read takes at least as many characters as it has pieces. -/
theorem advance_left (h : s.scanner.next.1 = .ok ()) :
    s.advance.left + s.token.toLexeme.weight ≤ s.left := by
  obtain ⟨start, l, stop, ht, hl, he⟩ | ⟨failure, token, _, he⟩ := s.scanner.next_cases
  · have hweight := (lexeme_weight hl).2.1
    have hlength := (trivia_leads ht).length_le
    have hmove : s.advance.left = stop.rest.length + l.weight := by
      unfold advance left
      rw [he]
      rfl
    rw [hmove]
    unfold left
    omega
  · rw [he] at h
    cases h

theorem advanceRegular_kind (h : s.scanner.readRegularExpression.1 = .ok ()) :
    s.advanceRegular.token.kind = .regularExpression := by
  unfold advanceRegular token
  obtain ⟨_, _, _, _, _, he⟩ | ⟨failure, he⟩ := s.scanner.readRegularExpression_cases
  · rw [he]
  · rw [he] at h
    cases h

/-- A regular expression counts once, and its body has at least the slash behind it. -/
theorem advanceRegular_left (h : s.scanner.readRegularExpression.1 = .ok ()) :
    s.advanceRegular.left ≤ s.left := by
  have hkind := s.advanceRegular_kind h
  have hweight : s.advanceRegular.token.toLexeme.weight = 1 :=
    Lexeme.weight_eq_one (by simp [hkind]) (by simp [hkind]) (by simp [hkind])
  obtain ⟨body, flags, stop, hb, hf, he⟩ | ⟨failure, he⟩ := s.scanner.readRegularExpression_cases
  · have hrest : s.advanceRegular.scanner.cursor.rest = stop.rest := by
      unfold advanceRegular
      rw [he]
      rfl
    have hbody := regularBody_shorter hb
    have hflags := (regularFlags_leads hf).length_le
    unfold left
    rw [hrest, hweight]
    omega
  · rw [he] at h
    cases h

/-- What is read on from a slash is a token of its own kind. -/
theorem scanRegular_kind {s t : ParserState}
    (h : Parse.scan Scanner.readRegularExpression s = .ok () t) :
    t.token.kind = .regularExpression := by
  rw [Parse.scanRegular_apply] at h
  rcases hread : s.scanner.readRegularExpression.1 with problem | ⟨⟩
  · rw [hread] at h
    cases h
  · rw [hread] at h
    cases h
    exact s.advanceRegular_kind hread

end ActionSyntax.ParserState

namespace ActionSyntax.Setting

set_option autoImplicit false

open Parse

variable {S : Setting} {s t : ParserState} {n : Nat} {α β : Type}

theorem next_ends (s : ParserState) :
    S.Ends (fun _ => s.token.kind != .endOfProgram) s (next s) := by
  rw [next_apply]
  have hstep : Step s s.advance := .advance s
  rcases hnext : s.scanner.next.1 with problem | ⟨⟩
  · have hhas := s.advance_has hnext
    exact ⟨.problem hstep hhas, hhas⟩
  · refine ⟨.step hstep, Nat.le_trans (Nat.add_le_add_left ?_ _) (s.advance_left hnext)⟩
    by_cases hk : s.token.kind = .endOfProgram
    · simp [hk]
    · rw [bne_iff_ne.mpr hk]
      exact Lexeme.weight_pos hk

theorem next_moved (hk : s.token.kind ≠ .endOfProgram) : S.Ends always s (next s) :=
  (next_ends s).weaken fun _ _ => by simpa using hk

theorem next_reads : S.Reads n never next := fun s _ => (next_ends s).never_of

theorem scanRegular_ends (s : ParserState) :
    S.Ends never s (scan Scanner.readRegularExpression s) := by
  rw [scanRegular_apply]
  have hstep : Step s s.advanceRegular := .advanceRegular s
  rcases hread : s.scanner.readRegularExpression.1 with problem | ⟨⟩
  · have hhas := s.advanceRegular_has hread
    exact ⟨.problem hstep hhas, hhas⟩
  · exact ⟨.step hstep, s.advanceRegular_left hread⟩

theorem get_reads : S.Reads n never (get : Parse ParserState) := fun s _ => .refl s

theorem token_reads : S.Reads n never Parse.token := fun s _ => .refl s

theorem previous_reads : S.Reads n never Parse.previous := fun s _ => .refl s

theorem kind_reads : S.Reads n never Parse.kind := fun s _ => .refl s

theorem at?_reads (k : TokenKind) : S.Reads n never (at? k) := fun s _ => .refl s

theorem atKeyword?_reads (word : String) : S.Reads n never (atKeyword? word) := fun s _ => .refl s

theorem atOperator?_reads (op : Operator) : S.Reads n never (atOperator? op) := fun s _ => .refl s

theorem mark_reads : S.Reads n never mark := fun s _ => .refl s

theorem finish_reads (m : Mark) : S.Reads n never (finish m) := fun s _ => .refl s

theorem previousIdentifier_reads : S.Reads n never previousIdentifier := fun s _ => .refl s

theorem report_reads (severity : Severity) (id : ProblemId) (span : Span)
    (arguments : List (String × Argument)) :
    S.Reads n never (report severity id span arguments) := fun s _ =>
  ⟨.step (.collect s _), Nat.le_refl _⟩

theorem syntaxError_reads (id : ProblemId) (span : Span) :
    S.Reads n never (syntaxError id span) := report_reads _ _ _ _

theorem verifyError_reads (id : ProblemId) (span : Span) :
    S.Reads n never (verifyError id span) := report_reads _ _ _ _

theorem stopAt_reads {moved : α → Bool} (id : ProblemId) (span : Span)
    (arguments : List (String × Argument)) :
    S.Reads n moved (Parse.stopAt id span arguments) := fun s _ => by
  have hhas : (s.collect { id, severity := .syntaxError, span, arguments }).Has _ :=
    ⟨Array.mem_push_self, rfl⟩
  exact ⟨.problem (.collect s _) hhas, hhas⟩

theorem unexpected_reads {moved : α → Bool} : S.Reads n moved (unexpected : Parse α) :=
  fun s hs => stopAt_reads _ _ _ s hs

theorem exhausted_reads {moved : α → Bool} (hn : n ≤ 0) :
    S.Reads n moved (exhausted : Parse α) := by
  rintro s (he | hl)
  · exact ⟨.exhausted s, he⟩
  · omega

/-- A condition on tokens that the end of the text does not meet. -/
def Proper (condition : Token → Bool) : Prop :=
  ∀ t, condition t = true → t.kind ≠ .endOfProgram

theorem proper_kind {k : TokenKind} (hk : k ≠ .endOfProgram) : Proper fun t => t.kind == k :=
  fun t ht => by
    rw [eq_of_beq ht]
    exact hk

theorem proper_operator (op : Operator) : Proper fun t => t.isOperator op := fun t ht => by
  have hk : t.kind = .operator := by simp_all [Token.isOperator]
  simp [hk]

theorem proper_keyword (word : String) : Proper fun t => t.isKeyword word := fun t ht => by
  have hk : t.kind = .keyword := by simp_all [Token.isKeyword]
  simp [hk]

theorem proper_contextKeyword (word : String) : Proper fun t => t.isContextKeyword word :=
  fun t ht => by
    have hk : t.kind = .identifier := by simp_all [Token.isContextKeyword]
    simp [hk]

theorem proper_word : Proper isWord := fun t ht => by
  unfold isWord at ht
  rintro hk
  simp [hk] at ht

section Consuming

variable {condition : Token → Bool}

theorem consumeIf_reads (h : Proper condition) : S.Reads n id (consumeIf condition) := by
  intro s _
  unfold consumeIf
  rw [token_bind]
  split
  · rename_i ht
    refine Ends.bind_after (next_moved (h _ ht)) fun _ t _ _ => ?_
    exact (Ends.pure true t).weaken fun _ hb => by simp_all
  · exact Ends.pure (S := S) false s

theorem consume_reads {k : TokenKind} (hk : k ≠ .endOfProgram) :
    S.Reads n id (consume k) := consumeIf_reads (proper_kind hk)

theorem consumeIdentifier_reads : S.Reads n id consumeIdentifier :=
  consume_reads (by decide)

theorem consumeOperator_reads (op : Operator) : S.Reads n id (consumeOperator op) :=
  consumeIf_reads (proper_operator op)

theorem consumeKeyword_reads (word : String) : S.Reads n id (consumeKeyword word) :=
  consumeIf_reads (proper_keyword word)

theorem consumeContextKeyword_reads (word : String) : S.Reads n id (consumeContextKeyword word) :=
  consumeIf_reads (proper_contextKeyword word)

theorem expectIf_reads (h : Proper condition) : S.Reads n always (expectIf condition) := by
  intro s hs
  refine Ends.bind_after (consumeIf_reads h s hs) ?_
  rintro (_ | _) t - ht
  · exact unexpected_reads t (hs.after ht)
  · exact (Ends.pure () t).weaken fun _ hb => by simp_all

theorem expect_reads {k : TokenKind} (hk : k ≠ .endOfProgram) :
    S.Reads n always (expect k) := expectIf_reads (proper_kind hk)

theorem expectOperator_reads (op : Operator) : S.Reads n always (expectOperator op) :=
  expectIf_reads (proper_operator op)

theorem expectKeyword_reads (word : String) : S.Reads n always (expectKeyword word) :=
  expectIf_reads (proper_keyword word)

theorem expectContextKeyword_reads (word : String) : S.Reads n always (expectContextKeyword word) :=
  expectIf_reads (proper_contextKeyword word)

theorem expectName_reads : S.Reads n always expectName :=
  .paid (expect_reads (by decide)) fun _ => .seq previous_reads fun _ => .pure _

theorem identifierOf_reads (h : Proper condition) : S.Reads n always (identifierOf condition) :=
  .look mark_reads fun _ => .paid (expectIf_reads h) fun _ =>
    .seq (finish_reads _) fun _ => .seq previous_reads fun _ => .pure _

theorem identifier_reads : S.Reads n always identifier :=
  identifierOf_reads (proper_kind (by decide))

theorem wordIdentifier_reads : S.Reads n always wordIdentifier := identifierOf_reads proper_word

theorem afterGreater?_weight {t : Token} {kind : TokenKind} {operator : Option Operator}
    (h : afterGreater? t = some (kind, operator)) :
    ({ t with kind, operator } : Token).toLexeme.weight + 1 ≤ t.toLexeme.weight := by
  unfold afterGreater? at h
  split at h <;> cases h <;> simp_all [Lexeme.weight]

theorem expectGreater_reads : S.Reads n always expectGreater := by
  intro s hs
  refine Ends.bind_after (consumeOperator_reads .greater s hs) ?_
  rintro (_ | _) t - ht
  · simp only [Bool.false_eq_true, if_false, token_bind]
    cases hafter : afterGreater? t.token with
    | none => exact unexpected_reads t (hs.after ht)
    | some after =>
      refine ⟨.step (.split hafter), ?_⟩
      have := afterGreater?_weight hafter
      exact Nat.add_le_add_left this _
  · exact (Ends.pure () t).weaken fun _ hb => by simp_all

theorem endStatement_reads : S.Reads n never endStatement :=
  .bool (consume_reads (by decide)) (.pure _) (.seq get_reads fun _ => .pure _)

theorem expectEnd_reads : S.Reads n never expectEnd := by
  refine .seq (at?_reads _) ?_
  rintro (_ | _)
  · exact unexpected_reads
  · exact .pure ()

end Consuming

section Loops

variable {item : Parse α}

theorem separated_reads (hitem : S.Reads n always item) :
    ∀ fuel k, k ≤ n → k ≤ fuel → S.Reads k always (separated item fuel)
  | 0, _, _, hk => exhausted_reads hk
  | fuel + 1, k, hn, hk => by
    refine .moved (hitem.mono hn) fun first => ?_
    refine .bool (consume_reads (by decide)) ?_ (.pure _)
    refine .seq (separated_reads hitem fuel _ (by omega) (by omega)) fun _ => ?_
    exact .pure _

theorem separatedUntil_reads (closing : TokenKind) (hitem : S.Reads n always item) :
    ∀ fuel k, k ≤ n → k ≤ fuel → S.Reads k never (separatedUntil closing item fuel)
  | 0, _, _, hk => exhausted_reads hk
  | fuel + 1, k, hn, hk => by
    refine .seq (at?_reads closing) ?_
    rintro (_ | _)
    · refine .moved (hitem.mono hn) fun first => ?_
      refine .bool (consume_reads (by decide)) ?_ (.pure _)
      refine .seq (separatedUntil_reads closing hitem fuel _ (by omega) (by omega)) fun _ => ?_
      exact .pure _
    · exact .pure _

theorem collectWhile_reads {step : Parse (Option α)} (hstep : S.Reads n Option.isSome step) :
    ∀ fuel k, k ≤ n → k ≤ fuel → S.Reads k never (collectWhile step fuel)
  | 0, _, _, hk => exhausted_reads hk
  | fuel + 1, k, hn, hk => by
    refine .option (hstep.mono hn) (fun first => ?_) (.pure _)
    refine .seq (collectWhile_reads hstep fuel _ (by omega) (by omega)) fun _ => ?_
    exact .pure _

end Loops

theorem freshSuper_reads {moved : α → Bool} {body : Parse α} (hbody : S.Reads n moved body) :
    S.Reads n moved (freshSuper body) := by
  intro s hs
  have hin : After false s { s with superFound := false } :=
    ⟨.step (.superFound s false), Nat.le_refl _⟩
  have hout : ∀ t, After false t { t with superFound := s.superFound } := fun t =>
    ⟨.step (.superFound t s.superFound), Nat.le_refl _⟩
  have h := hbody _ (hs.after hin)
  unfold freshSuper
  cases hb : body { s with superFound := false } with
  | ok a t =>
    rw [hb] at h
    exact ((hin.trans h).trans (hout t)).weaken fun hm => by simp [hm]
  | error stop t =>
    rw [hb] at h
    refine ⟨(hin.reaches.trans h.1).superRestored s.superFound, ?_⟩
    cases stop with
    | problem p => exact h.2
    | exhausted => exact h.2

theorem inFunction_reads {moved : α → Bool} {body : Parse α} (hbody : S.Reads n moved body) :
    S.Reads n (fun a => moved a.1) (inFunction body) := by
  intro s hs
  have h := hbody s.enter hs
  show S.Ends (fun a => moved a.1) s
    (EStateM.bind body (fun a => EStateM.bind popFunction fun use => pure (a, use)) s.enter)
  unfold EStateM.bind
  cases hb : body s.enter with
  | ok a t =>
    rw [hb] at h
    exact ⟨h.reaches.function, h.left⟩
  | error stop t =>
    rw [hb] at h
    exact ⟨h.1.abandoned, h.2⟩

/-- A reading that looks at its state first. -/
theorem Reads.inspect {f : ParserState → Parse α} {moved : α → Bool}
    (hf : ∀ s, S.Ready n s → S.Ends moved s (f s s)) : S.Reads n moved (get >>= f) := fun s hs => by
  rw [get_bind]
  exact hf s hs

theorem Reads.inspectToken {f : Token → Parse α} {moved : α → Bool}
    (hf : ∀ s, S.Ready n s → S.Ends moved s (f s.token s)) : S.Reads n moved (token >>= f) :=
  fun s hs => by
    rw [token_bind]
    exact hf s hs

/-- A reading that begins with the current token. -/
theorem next_then {f : Unit → Parse α} {moved : α → Bool} (hk : s.token.kind ≠ .endOfProgram)
    (hs : S.Ready n s) (hf : S.Reads (n - 1) never (f ())) : S.Ends moved s ((next >>= f) s) :=
  Ends.bind_after (next_moved hk) fun _ t _ ht =>
    (hf t (hs.moved ht)).weaken fun _ hb => by simp_all

theorem Begins.mark_next {f : Mark → Unit → Parse α} (hf : ∀ m, S.Reads n never (f m ())) :
    S.Begins n (mark >>= fun m => next >>= f m) where
  taken s hk hs := by
    rw [mark_bind]
    exact next_then hk hs (hf _)
  reads := .seq mark_reads fun m => .seq next_reads fun _ => hf m

/-- What a keyword introduces, if it stands here. -/
theorem Reads.introduced (word : String) {f : Mark → Unit → Parse (Option α)}
    (hf : ∀ m, S.Reads n never (f m ())) :
    S.Reads n Option.isSome (do
      if !(← atKeyword? word) then return none
      let m ← mark
      let u ← next
      f m u) := by
  intro s hs
  rw [atKeyword?_bind]
  split
  · exact .refl s
  · rename_i hk
    have hkind := proper_keyword word s.token (by simpa using hk)
    exact ((Begins.mark_next hf).taken s hkind hs.succ).weaken fun _ _ => rfl

end ActionSyntax.Setting
