import ActionSyntax.Proofs.Shadows.Contract

/-!
The elementary readings, and the loops over items, in the shadow of each other.
-/

namespace ActionSyntax

set_option autoImplicit false

@[simp] theorem bare_use : (bare : FunctionUse → FunctionUse) = id := rfl

section Tokens

variable {P : Pairing} {tier : Tier} {condition : Token → Bool} {t u : Token}

/-- A condition on tokens says the same of tokens side by side, also where the first text ends, unless
that may be left open. -/
def Pairing.Tells (P : Pairing) (tier : Tier) (condition : Token → Bool) : Prop :=
  tier = .wide ∨ ∀ t : Token, P.stops t.kind → condition t = false

namespace Pairing

theorem tells_of_passing (h : Token.Passing condition) : P.Tells tier condition :=
  Or.inr fun t ht => h t (P.closes ht)

theorem tells_kind {k : TokenKind} (hk : k.closes = false) : P.Tells tier fun t => t.kind == k :=
  tells_of_passing (Token.passing_kind hk)

theorem tells_of_not_stops {k : TokenKind} (hk : ¬ P.stops k) :
    P.Tells tier fun t => t.kind == k := Or.inr fun t ht => by
  rw [beq_eq_false_iff_ne]
  rintro rfl
  exact hk ht

end Pairing

/-- Tokens side by side answer a condition alike that no closing mark meets. -/
theorem Token.Beside.same (h : t.Beside P.stops u) (ha : Token.Asks condition)
    (hp : Token.Passing condition) : condition t = condition u := by
  obtain heq | ⟨hend, hstop⟩ := h.kind
  · exact ha.same h.like heq
  · rw [hp u (P.closes hstop), Bool.eq_false_iff]
    exact fun ht => ha.proper t ht hend

theorem Token.Like.afterGreater? (h : t.Like u) (hkind : t.kind = u.kind) :
    Parse.afterGreater? t = Parse.afterGreater? u := by
  unfold Parse.afterGreater?
  rw [hkind, h.operator]

end Tokens

namespace ParserState.Ended

variable {s t : ParserState}

/-- At the end of the text there is nothing to go on to. -/
theorem next (h : s.Ended) {u : Unit} (hread : Parse.next s = .ok u t) : s.Rests t := by
  rw [Parse.next_apply] at hread
  obtain ⟨start, l, stop, ht, hl, he⟩ | ⟨failure, _, _, he⟩ := s.scanner.next_cases
  · obtain rfl : s.scanner.cursor = start := by
      unfold Scan.trivia Scan.triviaEnd Scan.triviaStep? at ht
      rw [h.rest] at ht
      cases ht
      rfl
    have hlexeme : l = { kind := .endOfProgram } ∧ stop = s.scanner.cursor := by
      unfold Scan.lexeme at hl
      rw [h.rest] at hl
      cases hl
      exact ⟨rfl, rfl⟩
    obtain ⟨rfl, rfl⟩ := hlexeme
    rw [he] at hread
    cases hread
    unfold ParserState.advance
    rw [he]
    exact ⟨⟨rfl, h.rest, rfl⟩, by
      simp [ParserState.script, Scanner.moveTo, h.notes]⟩
  · rw [he] at hread
    cases hread

/-- What is noted about functions does not matter. -/
theorem note (h : s.Ended) (functions : List FunctionUse) (superFound : Bool) :
    s.Rests { s with functions, superFound } := ⟨⟨h.kind, h.rest, h.notes⟩, rfl⟩

theorem collect (h : s.Ended) (p : Problem) : s.Rests (s.collect p) :=
  ⟨⟨h.kind, h.rest, h.notes⟩, rfl⟩

theorem left_eq (h : s.Ended) : s.left = 0 := by
  unfold ParserState.left Lexeme.weight
  rw [h.rest, show s.token.toLexeme.kind = .endOfProgram from h.kind]
  rfl

end ParserState.Ended

section Reads

variable {readFile : String → Option String} {n : Nat} {α : Type}

/-- A reading that always takes something finds nothing at the end. -/
theorem Starves.of_reads {x : Parse α} (hx : (Setting.lenient readFile).Reads n always x) :
    Starves x := ⟨fun {s a t} hs h => by
  have hends := hx s (Or.inl trivial)
  rw [h] at hends
  have hleft := hends.left
  rw [hs.left_eq] at hleft
  simp at hleft⟩

end Reads

namespace Parse

variable {P : Pairing} {tier : Tier} {s t : ParserState} {α β β' : Type} {S : β → β' → Prop}

section Looking

theorem get_shadows {f : ParserState → Parse β} {f' : ParserState → Parse β'}
    (hf : ∀ s t, Sees P.stops P.layered s t → Shadows P tier S (f s) (f' t)) :
    Shadows P tier S (get >>= f) (get >>= f') :=
  .bind (R := Sees P.stops P.layered)
    ⟨fun hst => .ok (P.sees hst) hst, fun hs h => by cases h; exact hs.rests⟩
    (fun s => ⟨s, .refl _ _ s⟩) hf

theorem token_shadows {f : Token → Parse β} {f' : Token → Parse β'}
    (hf : ∀ t u, t.Beside P.stops u → Shadows P tier S (f t) (f' u)) :
    Shadows P tier S (Parse.token >>= f) (Parse.token >>= f') :=
  .bind (R := Token.Beside P.stops)
    ⟨fun hst => .ok (P.sees hst).token hst, fun hs h => by cases h; exact hs.rests⟩
    (fun t => ⟨t, .refl _ t⟩) hf

theorem previous_shadows {f : Token → Parse β} {f' : Token → Parse β'}
    (hf : ∀ t u : Token, t.Like u → Shadows P tier S (f t) (f' u)) :
    Shadows P tier S (previous >>= f) (previous >>= f') :=
  .bind (R := Token.Like)
    ⟨fun hst => .ok (P.sees hst).previous hst, fun hs h => by cases h; exact hs.rests⟩
    (fun t => ⟨t, .refl t⟩) hf

theorem mark_shadows {f : Mark → Parse β} {f' : Mark → Parse β'}
    (hf : ∀ m m', Shadows P tier S (f m) (f' m')) :
    Shadows P tier S (mark >>= f) (mark >>= f') :=
  .bind (R := fun _ _ => True)
    ⟨fun hst => .ok trivial hst, fun hs h => by cases h; exact hs.rests⟩
    (fun m => ⟨m, trivial⟩) fun m m' _ => hf m m'

theorem finish_shadows (m m' : Mark) {f : Span → Parse β} {f' : Span → Parse β'}
    (hf : ∀ span span', Shadows P tier S (f span) (f' span')) :
    Shadows P tier S (finish m >>= f) (finish m' >>= f') :=
  .bind (R := fun _ _ => True)
    ⟨fun hst => .ok trivial hst, fun hs h => by cases h; exact hs.rests⟩
    (fun span => ⟨span, trivial⟩) fun span span' _ => hf span span'

/-- Something that covers all from a mark on. -/
theorem finished_shadows (m m' : Mark) {f : Span → β} {f' : Span → β'}
    (hf : ∀ span span', S (f span) (f' span')) :
    Shadows P tier S (finish m >>= fun span => pure (f span))
      (finish m' >>= fun span => pure (f' span)) :=
  finish_shadows m m' fun span span' => .pure (hf span span')

variable {condition : Token → Bool}

/-- A reading that only tells whether the current token meets a condition. -/
theorem test_shadows {x : Parse Bool} (hx : ∀ s, x s = .ok (condition s.token) s)
    (same : ∀ {t u : Token}, t.Like u → t.kind = u.kind → condition t = condition u)
    (ends : ∀ t : Token, t.kind = .endOfProgram → tier = .wide ∨ condition t = false)
    (h : P.Tells tier condition) : Shadows P tier Eq x x where
  goes {s t} hst := by
    rw [hx s, hx t]
    have hsees := (P.sees hst).token
    obtain heq | ⟨hend, hstop⟩ := P.same_or_ended hst
    · exact .ok (same hsees.like heq) hst
    · have hwide : tier = .wide → P.Lost tier s := by
        rintro rfl
        exact .of_stops hend hstop
      rcases h with hw | hfalse
      · exact .lost (hwide hw)
      · rcases ends s.token hend.kind with hw | hfalse'
        · exact .lost (hwide hw)
        · exact .ok (hfalse'.trans (hfalse t.token hstop).symm) hst
  stays {s a t} hs h := by
    rw [hx s] at h
    cases h
    exact hs.rests

theorem at?_shadows {k : TokenKind} (hk : k ≠ .endOfProgram)
    (h : P.Tells tier fun t => t.kind == k) : Shadows P tier Eq (at? k) (at? k) :=
  test_shadows (fun _ => rfl) (fun _ heq => by rw [heq]) (fun t ht => Or.inr (by
    rw [ht, beq_eq_false_iff_ne]
    exact hk.symm)) h

theorem at?_wide (k : TokenKind) : Shadows P .wide Eq (at? k) (at? k) :=
  have ended : ∀ t : Token, t.kind = .endOfProgram → Tier.wide = .wide ∨ (t.kind == k) = false :=
    fun _ _ => Or.inl rfl
  test_shadows (fun _ => rfl) (fun _ heq => by rw [heq]) ended (Or.inl rfl)

/-- Where tokens of different kinds stand side by side, everything may be left open. -/
theorem token_wide {f : Token → Parse β} {f' : Token → Parse β'}
    (hf : ∀ t u : Token, t.Like u → t.kind = u.kind → Shadows P .wide S (f t) (f' u)) :
    Shadows P .wide S (Parse.token >>= f) (Parse.token >>= f') := by
  refine .bind (R := fun t u : Token => t.Like u ∧ t.kind = u.kind) ⟨fun {s t} hst => ?_, ?_⟩
    (fun t => ⟨t, .refl t, rfl⟩) fun t u htu => hf t u htu.1 htu.2
  · obtain heq | ⟨hend, hstop⟩ := P.same_or_ended hst
    · exact .ok ⟨(P.sees hst).token.like, heq⟩ hst
    · exact .lost (.of_stops hend hstop)
  · intro s t u hs h
    cases h
    exact hs.rests

theorem kind_wide : Shadows P .wide Eq kind kind where
  goes {s t} hst := by
    obtain heq | ⟨hend, hstop⟩ := P.same_or_ended hst
    · exact .ok heq hst
    · exact .lost (.of_stops hend hstop)
  stays hs h := by
    cases h
    exact hs.rests

theorem asked_shadows {x : Parse Bool} (hx : ∀ s, x s = .ok (condition s.token) s)
    (ha : Token.Asks condition) (hp : Token.Passing condition) : Shadows P tier Eq x x :=
  test_shadows hx ha.same (fun t ht => Or.inr (by
    rw [Bool.eq_false_iff]
    exact fun htrue => ha.proper t htrue ht)) (Pairing.tells_of_passing hp)

theorem atKeyword?_shadows (word : String) :
    Shadows P tier Eq (atKeyword? word) (atKeyword? word) :=
  asked_shadows (fun _ => rfl) (Token.asks_keyword word) (Token.passing_keyword word)

theorem atOperator?_shadows (op : Operator) :
    Shadows P tier Eq (atOperator? op) (atOperator? op) :=
  asked_shadows (fun _ => rfl) (Token.asks_operator op) (Token.passing_operator op)

theorem previousIdentifier_shadows :
    Shadows P tier Matches previousIdentifier previousIdentifier :=
  previous_shadows fun t u htu => .pure (by simp [htu.text])

end Looking

section Steps

theorem next_goes (hst : P.near s t) (hkind : s.token.kind = t.token.kind) :
    P.Goes tier Eq (next s) (next t) :=
  (P.next hst hkind).mono (fun _ => Pairing.Lost.of_gone) fun _ _ => id

/-- Where the first text ends, the second may go on. -/
theorem next_shadows : Shadows P .wide Eq next next where
  goes {s t} hst := by
    obtain heq | ⟨hend, hstop⟩ := P.same_or_ended hst
    · exact next_goes hst heq
    · cases hread : next s with
      | ok a u => exact .lost (.of_stops (hend.next hread).ended hstop)
      | error stop u => exact .stopped
  stays hs h := hs.next h

/-- Going on from a token that stands in both texts. -/
theorem next_goes_bind {f : Unit → Parse β} {f' : Unit → Parse β'} (hst : P.near s t)
    (hkind : s.token.kind = t.token.kind) (hf : Shadows P tier S (f ()) (f' ())) :
    P.Goes tier S ((next >>= f) s) ((next >>= f') t) :=
  Shadows.goes_bind (next_goes hst hkind) (fun _ _ _ huv => hf.goes huv) fun hu h => hf.stays hu h

theorem report_shadows (severity : Severity) (id : ProblemId) (span span' : Span)
    (arguments : List (String × Argument)) :
    Shadows P tier Eq (report severity id span arguments) (report severity id span' arguments) where
  goes hst := .ok rfl (P.collect hst rfl)
  stays hs h := by
    cases h
    exact hs.collect _

theorem syntaxError_shadows (id : ProblemId) (span span' : Span) :
    Shadows P tier Eq (syntaxError id span) (syntaxError id span') := report_shadows _ _ _ _ _

theorem verifyError_shadows (id : ProblemId) (span span' : Span) :
    Shadows P tier Eq (verifyError id span) (verifyError id span') := report_shadows _ _ _ _ _

/-- Nothing is asked of a second reading where the first one stops. -/
theorem stopping_shadows {x : Parse β} {y : Parse β'} (hx : ∀ {s a t}, x s ≠ .ok a t) :
    Shadows P tier S x y where
  goes {s t} _ := by
    cases hread : x s with
    | ok a u => exact absurd hread hx
    | error stop u => exact .stopped
  stays _ h := absurd h hx

theorem stopAt_shadows {y : Parse β'} (id : ProblemId) (span : Span)
    (arguments : List (String × Argument)) : Shadows P tier S (stopAt id span arguments) y :=
  stopping_shadows nofun

theorem unexpected_shadows {y : Parse β'} : Shadows P tier S unexpected y :=
  stopping_shadows nofun

theorem exhausted_shadows {y : Parse β'} : Shadows P tier S (exhausted : Parse β) y :=
  stopping_shadows nofun

end Steps

section Consuming

variable {condition : Token → Bool}

theorem consumeIf_false (h : condition s.token = false) :
    consumeIf condition s = .ok false s := by
  unfold consumeIf
  rw [token_bind, h]
  rfl

theorem consumeIf_true (h : condition s.token = true) :
    consumeIf condition s = (next >>= fun _ => pure true) s := by
  unfold consumeIf
  rw [token_bind, h]
  rfl

/-- The current token is taken if there is something it is for, which is the same in both texts. -/
theorem taking_shadows {γ : Type} (c c' : ParserState → Option γ) (f : γ → Parse β)
    (f' : γ → Parse β') {x y : Parse β} {x' y' : Parse β'}
    (hsome : ∀ {s a}, c s = some a → x s = (next >>= fun _ => f a) s)
    (hnone : ∀ {s}, c s = none → x s = y s)
    (hsome' : ∀ {t a}, c' t = some a → x' t = (next >>= fun _ => f' a) t)
    (hnone' : ∀ {t}, c' t = none → x' t = y' t)
    (proper : ∀ {s a}, c s = some a → s.token.kind ≠ .endOfProgram)
    (same : ∀ {s t}, P.near s t → s.token.kind = t.token.kind → c s = c' t)
    (halts : ∀ {t}, P.stops t.token.kind → tier = .wide ∨ c' t = none)
    (hf : ∀ a s, c s = some a → Shadows P tier S (f a) (f' a)) (hy : Shadows P tier S y y') :
    Shadows P tier S x x' where
  goes {s t} hst := by
    obtain heq | ⟨hend, hstop⟩ := P.same_or_ended hst
    · cases hc : c s with
      | some a =>
        rw [hsome hc, hsome' (same hst heq ▸ hc)]
        exact next_goes_bind hst heq (hf a s hc)
      | none =>
        rw [hnone hc, hnone' (same hst heq ▸ hc)]
        exact hy.goes hst
    · cases hc : c s with
      | some a => exact absurd hend.kind (proper hc)
      | none =>
        rw [hnone hc]
        rcases halts hstop with rfl | hover
        · cases hread : y s with
          | ok b u => exact .lost (.of_stops (hy.stays hend hread).ended hstop)
          | error stop u => exact .stopped
        · rw [hnone' hover]
          exact hy.goes hst
  stays {s a t} hs h := by
    cases hc : c s with
    | some b => exact absurd hs.kind (proper hc)
    | none =>
      rw [hnone hc] at h
      exact hy.stays hs h

theorem takingIf_shadows {c c' : ParserState → Bool} {f : Unit → Parse β} {f' : Unit → Parse β'}
    {x y : Parse β} {x' y' : Parse β'} (hx : ∀ s, x s = (if c s then next >>= f else y) s)
    (hx' : ∀ t, x' t = (if c' t then next >>= f' else y') t)
    (proper : ∀ {s}, c s = true → s.token.kind ≠ .endOfProgram)
    (same : ∀ {s t}, P.near s t → s.token.kind = t.token.kind → c s = c' t)
    (halts : ∀ {t}, P.stops t.token.kind → tier = .wide ∨ c' t = false)
    (hf : Shadows P tier S (f ()) (f' ())) (hy : Shadows P tier S y y') : Shadows P tier S x x' := by
  have some_iff : ∀ b : Bool, ∀ a : Unit, (if b then some () else none) = some a → b = true := by
    rintro (_ | _) a h
    · cases h
    · rfl
  have none_iff : ∀ b : Bool, (if b then some () else none) = none → b = false := by
    rintro (_ | _) h
    · rfl
    · cases h
  refine taking_shadows (fun s => if c s then some () else none)
    (fun t => if c' t then some () else none) (fun _ => f ()) (fun _ => f' ()) (fun hc => ?_) (fun hc => ?_) (fun hc => ?_) (fun hc => ?_) (fun hc => proper (some_iff _ _ hc))
    (fun hst heq => by rw [same hst heq]) (fun hstop => ?_) (fun _ _ _ => hf) hy
  · rw [hx, some_iff _ _ hc]
    rfl
  · rw [hx, none_iff _ hc]
    rfl
  · rw [hx', some_iff _ _ hc]
    rfl
  · rw [hx', none_iff _ hc]
    rfl
  · exact (halts hstop).imp_right fun hfalse => by rw [hfalse]; rfl

/-- A token that is taken as it is found. It may not be a mark that closes. -/
theorem at?_next {k : TokenKind} (hk : k ≠ .endOfProgram) (hpass : k.closes = false) {b b' : Bool}
    (hb : b = b') {f : Unit → Parse β} {f' : Unit → Parse β'} {y : Parse β} {y' : Parse β'}
    (hf : Shadows P tier S (f ()) (f' ())) (hy : Shadows P tier S y y') :
    Shadows P tier S (at? k >>= fun found => if b && found then next >>= f else y)
      (at? k >>= fun found => if b' && found then next >>= f' else y') := by
  subst hb
  let found (s : ParserState) : Bool := b && s.token.kind == k
  have hsame : ∀ {s t}, P.near s t → s.token.kind = t.token.kind → found s = found t :=
    fun _ heq => by simp only [found, heq]
  refine takingIf_shadows (c := found) (fun _ => rfl) (fun _ => rfl) (fun {s} hc => ?_) hsame
    (fun {t} hstop => Or.inr ?_) hf hy
  · simp only [found, Bool.and_eq_true, beq_iff_eq] at hc
    rw [hc.2]
    exact hk
  · have hne : t.token.kind ≠ k := by
      rintro rfl
      simp [P.closes hstop] at hpass
    simp [hne]

theorem consumeIf_stays (hc : Setting.Proper condition) {b : Bool} (hs : s.Ended)
    (h : consumeIf condition s = .ok b t) : b = false ∧ t = s := by
  have hfalse : condition s.token = false := by
    rw [Bool.eq_false_iff]
    exact fun htrue => hc _ htrue hs.kind
  rw [consumeIf_false hfalse] at h
  cases h
  exact ⟨rfl, rfl⟩

theorem consumeIf_goes (ha : Token.Asks condition) (hst : P.near s t)
    (hkind : s.token.kind = t.token.kind) :
    P.Goes tier Eq (consumeIf condition s) (consumeIf condition t) := by
  have hsame := ha.same (P.sees hst).token.like hkind
  cases hs : condition s.token with
  | true =>
    rw [consumeIf_true hs, consumeIf_true (hsame ▸ hs)]
    exact next_goes_bind hst hkind (.pure rfl)
  | false =>
    rw [consumeIf_false hs, consumeIf_false (hsame ▸ hs)]
    exact .ok rfl hst

theorem consumeIf_shadows (ha : Token.Asks condition) (h : P.Tells tier condition) :
    Shadows P tier Eq (consumeIf condition) (consumeIf condition) where
  goes {s t} hst := by
    obtain heq | ⟨hend, hstop⟩ := P.same_or_ended hst
    · exact consumeIf_goes ha hst heq
    · have hs : condition s.token = false := by
        rw [Bool.eq_false_iff]
        exact fun htrue => ha.proper _ htrue hend.kind
      rw [consumeIf_false hs]
      rcases h with rfl | hfalse
      · exact .lost (.of_stops hend hstop)
      · rw [consumeIf_false (hfalse _ hstop)]
        exact .ok rfl hst
  stays hs h := by
    obtain ⟨-, rfl⟩ := consumeIf_stays ha.proper hs h
    exact hs.rests

theorem consume_shadows {k : TokenKind} (hk : k ≠ .endOfProgram)
    (h : P.Tells tier fun t => t.kind == k) : Shadows P tier Eq (consume k) (consume k) :=
  consumeIf_shadows (Token.asks_kind hk) h

theorem consumeIdentifier_shadows : Shadows P tier Eq consumeIdentifier consumeIdentifier :=
  consume_shadows (by decide) (Pairing.tells_kind rfl)

theorem consumeOperator_shadows (op : Operator) :
    Shadows P tier Eq (consumeOperator op) (consumeOperator op) :=
  consumeIf_shadows (Token.asks_operator op) (Pairing.tells_of_passing (Token.passing_operator op))

theorem consumeKeyword_shadows (word : String) :
    Shadows P tier Eq (consumeKeyword word) (consumeKeyword word) :=
  consumeIf_shadows (Token.asks_keyword word) (Pairing.tells_of_passing (Token.passing_keyword word))

theorem consumeContextKeyword_shadows (word : String) :
    Shadows P tier Eq (consumeContextKeyword word) (consumeContextKeyword word) :=
  consumeIf_shadows (Token.asks_contextKeyword word)
    (Pairing.tells_of_passing (Token.passing_contextKeyword word))

/-- A mark that closes may stand in the second text where the first one ends, if there the first reading
gives nothing. -/
theorem consume_closed {k : TokenKind} (hk : k ≠ .endOfProgram) {f : Bool → Parse β}
    {f' : Bool → Parse β'} (hf : ∀ b, Shadows P tier S (f b) (f' b)) (hstarves : Starves (f false)) :
    Shadows P tier S (consume k >>= f) (consume k >>= f') where
  goes {s t} hst := by
    obtain heq | ⟨hend, hstop⟩ := P.same_or_ended hst
    · refine Shadows.goes_bind (R := Eq) ?_ (fun _ _ hab huv => hab ▸ (hf _).goes huv)
        fun hu h => (hf _).stays hu h
      exact consumeIf_goes (Token.asks_kind hk) hst heq
    · have hfalse : (s.token.kind == k) = false := by
        rw [hend.kind, beq_eq_false_iff_ne]
        exact hk.symm
      have hread : (consume k >>= f) s = f false s := by
        show EStateM.bind (consume k) f s = _
        unfold EStateM.bind
        rw [show consume k s = .ok false s from consumeIf_false hfalse]
      rw [hread]
      cases hfs : f false s with
      | ok b u => exact absurd hfs (hstarves.empty hend)
      | error stop u => exact .stopped
  stays hs h := by
    obtain ⟨b, u, hb, hu⟩ := bind_ok h
    obtain ⟨rfl, rfl⟩ := consumeIf_stays (Setting.proper_kind hk) hs hb
    exact (hf false).stays hs hu

theorem at?_closed {k : TokenKind} (hk : k ≠ .endOfProgram) {f : Bool → Parse β}
    {f' : Bool → Parse β'} (hf : ∀ b, Shadows P tier S (f b) (f' b)) (hstarves : Starves (f false)) :
    Shadows P tier S (at? k >>= f) (at? k >>= f') where
  goes {s t} hst := by
    rw [at?_bind, at?_bind]
    obtain heq | ⟨hend, hstop⟩ := P.same_or_ended hst
    · rw [heq]
      exact (hf _).goes hst
    · have hfalse : (s.token.kind == k) = false := by
        rw [hend.kind, beq_eq_false_iff_ne]
        exact hk.symm
      rw [hfalse]
      cases hfs : f false s with
      | ok b u => exact absurd hfs (hstarves.empty hend)
      | error stop u => exact .stopped
  stays hs h := by
    rw [at?_bind] at h
    exact (hf _).stays hs h

theorem at?_starves {k : TokenKind} (hk : k ≠ .endOfProgram) {f : Bool → Parse β}
    (hf : Starves (f false)) : Starves (at? k >>= f) := ⟨fun {s a t} hs h => by
  have hfalse : (s.token.kind == k) = false := by
    rw [hs.kind, beq_eq_false_iff_ne]
    exact hk.symm
  rw [at?_bind, hfalse] at h
  exact hf.empty hs h⟩

theorem consumeIf_starves {f : Bool → Parse β} (hc : Setting.Proper condition)
    (hf : Starves (f false)) : Starves (consumeIf condition >>= f) := ⟨fun hs h => by
  obtain ⟨b, u, hb, hu⟩ := bind_ok h
  obtain ⟨rfl, rfl⟩ := consumeIf_stays hc hs hb
  exact hf.empty hs hu⟩

theorem consume_starves {k : TokenKind} (hk : k ≠ .endOfProgram) {f : Bool → Parse β}
    (hf : Starves (f false)) : Starves (consume k >>= f) :=
  consumeIf_starves (Setting.proper_kind hk) hf

/-- What has to stand in the first text stands in the second. -/
theorem expectIf_shadows (ha : Token.Asks condition) :
    Shadows P tier Eq (expectIf condition) (expectIf condition) where
  goes {s t} hst := by
    have hlike := (P.sees hst).token.like
    cases hs : condition s.token with
    | true =>
      have hkind := P.same_kind hst (ha.proper _ hs)
      have ht : condition t.token = true := ha.same hlike hkind ▸ hs
      refine Shadows.goes_bind (R := Eq) ?_ ?_ ?_ (f := fun b => if !b then unexpected else pure ())
      · rw [consumeIf_true hs, consumeIf_true ht]
        exact next_goes_bind hst hkind (.pure rfl)
      · rintro b _ u v - - rfl huv
        exact (Shadows.ite unexpected_shadows (.pure rfl)).goes huv
      · intro b u c v hu h
        cases b <;> cases h
        exact hu.rests
    | false =>
      have hread : expectIf condition s = unexpected s := by
        show EStateM.bind (consumeIf condition) _ s = _
        unfold EStateM.bind
        rw [consumeIf_false hs]
        rfl
      rw [hread]
      exact .stopped
  stays hs h := by
    obtain ⟨b, u, hb, hu⟩ := bind_ok h
    obtain ⟨rfl, rfl⟩ := consumeIf_stays ha.proper hs hb
    cases hu

theorem expectIf_starves (hc : Setting.Proper condition) : Starves (expectIf condition) :=
  ⟨fun hs h => by
    obtain ⟨b, u, hb, hu⟩ := bind_ok h
    obtain ⟨rfl, rfl⟩ := consumeIf_stays hc hs hb
    cases hu⟩

theorem expect_shadows {k : TokenKind} (hk : k ≠ .endOfProgram) :
    Shadows P tier Eq (expect k) (expect k) := expectIf_shadows (Token.asks_kind hk)

theorem expect_starves {k : TokenKind} (hk : k ≠ .endOfProgram) : Starves (expect k) :=
  expectIf_starves (Setting.proper_kind hk)

theorem expectOperator_shadows (op : Operator) :
    Shadows P tier Eq (expectOperator op) (expectOperator op) :=
  expectIf_shadows (Token.asks_operator op)

theorem expectKeyword_shadows (word : String) :
    Shadows P tier Eq (expectKeyword word) (expectKeyword word) :=
  expectIf_shadows (Token.asks_keyword word)

theorem expectContextKeyword_shadows (word : String) :
    Shadows P tier Eq (expectContextKeyword word) (expectContextKeyword word) :=
  expectIf_shadows (Token.asks_contextKeyword word)

theorem expectName_shadows : Shadows P tier Eq expectName expectName :=
  .seq (expect_shadows (by decide)) fun _ => previous_shadows fun _ _ htu => .pure htu.text

theorem identifierOf_shadows (ha : Token.Asks condition) :
    Shadows P tier Matches (identifierOf condition) (identifierOf condition) := by
  refine mark_shadows fun m m' => ?_
  refine .seq (expectIf_shadows ha) fun _ => ?_
  refine finish_shadows m m' fun span span' => ?_
  exact previous_shadows fun t u htu => .pure (by simp [htu.text])

theorem identifier_shadows : Shadows P tier Matches identifier identifier :=
  identifierOf_shadows (Token.asks_kind (by decide))

theorem wordIdentifier_shadows : Shadows P tier Matches wordIdentifier wordIdentifier :=
  identifierOf_shadows Token.asks_word

theorem expectGreater_shadows : Shadows P tier Eq expectGreater expectGreater := by
  refine .seq (consumeOperator_shadows .greater) fun found => ?_
  refine .ite (.pure rfl) ⟨fun {s t} hst => ?_, fun {s a t} hs h => ?_⟩
  · rw [token_bind, token_bind]
    have hlike := (P.sees hst).token.like
    cases hs : afterGreater? s.token with
    | none => exact .stopped
    | some after =>
      obtain ⟨kind, operator⟩ := after
      have hkind := P.same_kind hst (afterGreater?_proper hs)
      rw [← hlike.afterGreater? hkind, hs]
      exact .ok rfl (P.split hst hs)
  · rw [token_bind] at h
    cases hafter : afterGreater? s.token with
    | none =>
      rw [hafter] at h
      cases h
    | some after => exact absurd hs.kind (afterGreater?_proper hafter)

theorem expectGreater_starves : Starves expectGreater := by
  have hreads : (Setting.lenient fun _ => none).Reads 0 always expectGreater :=
    Setting.expectGreater_reads
  exact .of_reads hreads

theorem endStatement_shadows (hl : P.layered) :
    Shadows P .wide Eq endStatement endStatement := by
  refine .seq (consume_shadows (by decide) (Or.inl rfl)) fun found => ?_
  refine .ite (.pure rfl) (get_shadows fun s t hst => .pure ?_)
  obtain ⟨hline, hindent, -⟩ := hst.layout hl
  unfold ParserState.endsStatement
  rw [hst.behindBrace, hline, hindent]

end Consuming

section Loops

variable [Bare α] {item item' : Parse α}

theorem separated_shadows (hcomma : P.Tells tier fun t => t.kind == .comma)
    (hitem : Shadows P tier Matches item item') : ∀ {fuel fuel' : Nat}, fuel ≤ fuel' →
      Shadows P tier Matches (separated item fuel) (separated item' fuel')
  | 0, _, _ => exhausted_shadows
  | fuel + 1, fuel' + 1, hle => by
    refine .matched hitem fun first first' hfirst => ?_
    refine .seq (consume_shadows (by decide) hcomma) fun more => ?_
    refine .ite ?_ (.pure (by simp_all))
    exact .matched (separated_shadows hcomma hitem (Nat.le_of_succ_le_succ hle))
      fun rest rest' hrest => .pure (by simp_all)

theorem separatedUntil_shadows (closing : TokenKind)
    (hitem : Shadows P .wide Matches item item') : ∀ {fuel fuel' : Nat}, fuel ≤ fuel' →
      Shadows P .wide Matches (separatedUntil closing item fuel)
        (separatedUntil closing item' fuel')
  | 0, _, _ => exhausted_shadows
  | fuel + 1, fuel' + 1, hle => by
    refine .seq (at?_wide closing) fun closed => ?_
    refine .ite (.pure rfl) ?_
    refine .matched hitem fun first first' hfirst => ?_
    refine .seq (consume_shadows (by decide) (Or.inl rfl)) fun more => ?_
    refine .ite ?_ (.pure (by simp_all))
    exact .matched (separatedUntil_shadows closing hitem (Nat.le_of_succ_le_succ hle))
      fun rest rest' hrest => .pure (by simp_all)

theorem collectWhile_shadows {step step' : Parse (Option α)}
    (hstep : Shadows P tier Matches step step') : ∀ {fuel fuel' : Nat}, fuel ≤ fuel' →
      Shadows P tier Matches (collectWhile step fuel) (collectWhile step' fuel')
  | 0, _, _ => exhausted_shadows
  | fuel + 1, fuel' + 1, hle => by
    refine .matched hstep fun found found' hfound => ?_
    cases found <;> cases found' <;> simp at hfound
    · exact .pure rfl
    · exact .matched (collectWhile_shadows hstep (Nat.le_of_succ_le_succ hle))
        fun rest rest' hrest => .pure (by simp_all)

end Loops

section Surroundings

variable {body body' : Parse β}

/-- Readings that only note something about the functions around. -/
theorem noted_shadows (hl : P.layered) {x : Parse α} (value : List FunctionUse → Bool → α)
    (functions : List FunctionUse → Bool → List FunctionUse)
    (superFound : List FunctionUse → Bool → Bool)
    (hx : ∀ s, x s = .ok (value s.functions s.superFound) { s with
      functions := functions s.functions s.superFound
      superFound := superFound s.functions s.superFound }) : Shadows P tier Eq x x where
  goes {s t} hst := by
    have hsees := P.sees hst
    rw [hx s, hx t, ← hsees.functions hl, ← hsees.superFound hl]
    exact .ok rfl (P.note hst _ _)
  stays {s a t} hs h := by
    rw [hx s] at h
    cases h
    exact hs.note _ _

theorem pushFunction_shadows (hl : P.layered) : Shadows P tier Eq pushFunction pushFunction :=
  noted_shadows hl (fun _ _ => ()) (fun functions _ => {} :: functions) (fun _ found => found)
    fun _ => rfl

theorem popFunction_shadows (hl : P.layered) : Shadows P tier Eq popFunction popFunction :=
  noted_shadows hl (fun functions _ => functions.head?.getD {}) (fun functions _ => functions.tail)
    (fun _ found => found) fun _ => rfl

theorem inFunction_shadows [Bare β] (hl : P.layered) (hbody : Shadows P tier Matches body body') :
    Shadows P tier Matches (inFunction body) (inFunction body') := by
  refine .seq (pushFunction_shadows hl) fun _ => ?_
  refine .matched hbody fun value value' hvalue => ?_
  exact .seq (popFunction_shadows hl) fun use => .pure (by simp_all)

theorem inFunction_starves (hbody : Starves body) : Starves (inFunction body) :=
  ⟨fun {s _ _} hs h => hbody.seq.empty (hs.note ({} :: s.functions) s.superFound).ended h⟩

theorem freshSuper_shadows (hl : P.layered) {R : β → β → Prop} (hbody : Shadows P tier R body body') :
    Shadows P tier R (freshSuper body) (freshSuper body') where
  goes {s t} hst := by
    have hin : P.near { s with superFound := false } { t with superFound := false } := by
      have := P.note hst s.functions false
      rwa [show ({ t with functions := s.functions, superFound := false } : ParserState) =
        { t with superFound := false } by rw [(P.sees hst).functions hl]] at this
    have hgoes : P.Goes tier R (body { s with superFound := false })
      (body' { t with superFound := false }) := hbody.goes hin
    unfold freshSuper
    generalize body { s with superFound := false } = p at hgoes
    generalize body' { t with superFound := false } = q at hgoes
    cases hgoes with
    | ok value close =>
      rename_i a b u v
      refine .ok value ?_
      have := P.note close u.functions s.superFound
      rwa [show ({ v with functions := u.functions, superFound := s.superFound } : ParserState) =
        { v with superFound := t.superFound } by
          rw [(P.sees close).functions hl, (P.sees hst).superFound hl]] at this
    | lost gone => exact .lost (gone.rests (gone.ended.note _ _))
    | stopped => exact .stopped
  stays {s a t} hs h := by
    unfold freshSuper at h
    cases hb : body { s with superFound := false } with
    | ok b u =>
      rw [hb] at h
      cases h
      have hin := hs.note s.functions false
      have hout := hbody.stays hin.ended hb
      exact hin.trans (hout.trans (hout.ended.note _ _))
    | error stop u =>
      rw [hb] at h
      cases h

end Surroundings

end Parse

end ActionSyntax
