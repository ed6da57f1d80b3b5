import ActionSyntax.Proofs.Building.Builds

/-!
What the elementary readings build: tokens that are consumed, identifiers, and the loops over items.
-/

namespace ActionSyntax

set_option autoImplicit false

open Parse Setting

/-- The current token is consumed. -/
structure Consumed (lossy : Prop) (s t : ParserState) : Prop where
  builds : Builds lossy true s [] t
  consumes : Consumes s [s.token] t
  previous : t.previous = s.token

/-- What is read covers all tokens between the two states. -/
structure Whole (lossy : Prop) (s : ParserState) (p : Piece) (t : ParserState) : Prop where
  builds : Builds lossy true s [p] t
  ends : p.span? = some (s.token.span.«to» t.previous.span)

/-- What is built between the states makes the second pieces out of the first ones. -/
def Gathers (lossy : Prop) (a : Bool) (s : ParserState) (before after : List Piece)
    (t : ParserState) : Prop :=
  ∃ ps, Builds lossy a s ps t ∧ Reworks (before ++ ps) after

namespace Gathers

variable {lossy : Prop} {a b : Bool} {s t u : ParserState} {ps qs rs : List Piece}

theorem refl (s : ParserState) (ps : List Piece) : Gathers lossy false s ps ps s :=
  ⟨[], .refl s, by simpa using .refl ps⟩

theorem trans (h : Gathers lossy a s ps qs t) (h' : Gathers lossy b t qs rs u) :
    Gathers lossy (a || b) s ps rs u := by
  obtain ⟨first, hfirst, hqs⟩ := h
  obtain ⟨second, hsecond, hrs⟩ := h'
  refine ⟨first ++ second, hfirst.seq hsecond, ?_⟩
  rw [← List.append_assoc]
  exact (hqs.append (.refl second)).trans hrs

theorem loose (h : Gathers lossy a s ps qs t) : Gathers lossy false s ps qs t := by
  obtain ⟨first, hfirst, hqs⟩ := h
  exact ⟨first, hfirst.loose, hqs⟩

/-- Other pieces stay as they are. -/
theorem beside (h : Gathers lossy a s ps qs t) (rs : List Piece) :
    Gathers lossy a s (ps ++ rs) (qs ++ rs) t := by
  obtain ⟨new, hnew, hqs⟩ := h
  refine ⟨new, hnew, .trans (.of_perm ?_) (hqs.append (.refl rs))⟩
  rw [List.append_assoc, List.append_assoc]
  exact List.perm_append_comm.append_left ps

theorem onto (h : Builds lossy a s ps t) (h' : Gathers lossy b t ps qs u) :
    Builds lossy (a || b) s qs u := by
  obtain ⟨first, hfirst, hqs⟩ := h'
  exact (h.seq hfirst).rework hqs

end Gathers

/-- Something is checked, and reported if it does not hold. -/
structure Checked (lossy : Prop) (q : Prop) (s t : ParserState) : Prop where
  builds : Builds lossy false s [] t
  previous : t.previous = s.previous
  token : t.token = s.token
  holds : t.script.isValid = true → q

theorem Checked.imp {lossy p q : Prop} {s t : ParserState} (h : Checked lossy p s t)
    (hpq : p → q) : Checked lossy q s t := ⟨h.builds, h.previous, h.token, hpq ∘ h.holds⟩

theorem Checked.refl {lossy p : Prop} (hp : p) (s : ParserState) : Checked lossy p s s :=
  ⟨.refl s, rfl, rfl, fun _ => hp⟩

theorem Checked.trans {lossy p q : Prop} {s t u : ParserState} (h : Checked lossy p s t)
    (h' : Checked lossy q t u) : Checked lossy (p ∧ q) s u where
  builds := h.builds.skip h'.builds
  previous := h'.previous.trans h.previous
  token := h'.token.trans h.token
  holds hu := ⟨h.holds (h'.builds.grows.valid hu), h'.holds hu⟩

/-- What was finished before something was checked still goes up to the previous token. -/
theorem Checked.span_to {lossy q : Prop} {s t : ParserState} (h : Checked lossy q s t)
    (first : Span) : some ((Mark.ofSpan first).«to» s.previous.span) =
      some (first.«to» t.previous.span) := by
  rw [h.previous]
  rfl

namespace Parse

variable {lossy : Prop} {s t : ParserState} {α : Type} {a : α} {c : Token → Bool}

theorem next_ok (more : s.token.kind ≠ .endOfProgram) (h : next s = .ok () t) :
    Consumed lossy s t := by
  obtain ⟨hscan, rfl⟩ := next_inv h
  have hok : s.scanner.next.1 = .ok () := congrArg Prod.fst hscan
  exact ⟨.next more hok, .next (.refl s) more hok, rfl⟩

theorem bind_next (lossy : Prop) {f : Unit → Parse α} (more : s.token.kind ≠ .endOfProgram)
    (h : (next >>= f) s = .ok a t) : ∃ u, Consumed lossy s u ∧ f () u = .ok a t := by
  obtain ⟨_, u, hu, h⟩ := bind_ok h
  exact ⟨u, next_ok more hu, h⟩

theorem consumeIf_ok (lossy : Prop) {found : Bool} (hc : Proper c) (h : consumeIf c s = .ok found t) :
    (found = true ∧ c s.token = true ∧ Consumed lossy s t) ∨ (found = false ∧ t = s) := by
  unfold consumeIf at h
  rw [token_bind] at h
  split at h
  · rename_i htoken
    obtain ⟨u, hu, h⟩ := bind_next lossy (hc _ htoken) h
    cases h
    exact Or.inl ⟨rfl, htoken, hu⟩
  · cases h
    exact Or.inr ⟨rfl, rfl⟩

/-- Two ways to go on, depending on whether the current token is consumed. -/
theorem bind_if (lossy : Prop) {x y : Parse α} (hc : Proper c)
    (h : (consumeIf c >>= fun found => if found = true then x else y) s = .ok a t) :
    (∃ u, Consumed lossy s u ∧ c s.token = true ∧ x u = .ok a t) ∨ y s = .ok a t := by
  obtain ⟨found, u, hu, hgo⟩ := bind_ok h
  rcases consumeIf_ok lossy hc hu with ⟨rfl, htoken, hu⟩ | ⟨rfl, rfl⟩
  · exact Or.inl ⟨u, hu, htoken, hgo⟩
  · exact Or.inr hgo

theorem map_ok {β : Type} {x : Parse α} {f : α → β} {b : β} (h : (f <$> x) s = .ok b t) :
    ∃ a, x s = .ok a t ∧ f a = b := by
  obtain ⟨a, u, hu, h⟩ := bind_ok (f := fun a => pure (f a)) h
  cases h
  exact ⟨a, hu, rfl⟩

/-- One of two readings, and what follows both of them. -/
theorem bind_either {β : Type} {p : Prop} {_ : Decidable p} {x y : Parse α} {f : α → Parse β} {b : β}
    (h : (if p then x >>= f else y >>= f) s = .ok b t) :
    ∃ a u, (p ∧ x s = .ok a u ∨ ¬ p ∧ y s = .ok a u) ∧ f a u = .ok b t := by
  split at h
  · rename_i hp
    obtain ⟨a, u, hu, h⟩ := bind_ok h
    exact ⟨a, u, Or.inl ⟨hp, hu⟩, h⟩
  · rename_i hp
    obtain ⟨a, u, hu, h⟩ := bind_ok h
    exact ⟨a, u, Or.inr ⟨hp, hu⟩, h⟩

/-- Two ways to go on, the first of which needs a token that is consumed where that is allowed. -/
theorem bind_allowed (lossy : Prop) {p : Prop} {_ : Decidable p} {x y : Parse α} (hc : Proper c)
    (h : (if p then consumeIf c >>= fun found => if found = true then x else y
      else pure false >>= fun found => if found = true then x else y) s = .ok a t) :
    (∃ u, (p ∧ c s.token = true) ∧ Consumed lossy s u ∧ x u = .ok a t) ∨ y s = .ok a t := by
  split at h
  · rename_i hp
    rcases bind_if lossy hc h with ⟨u, hu, htoken, h⟩ | h
    · exact Or.inl ⟨u, ⟨hp, htoken⟩, hu, h⟩
    · exact Or.inr h
  · exact Or.inr h

/-- A token may be consumed, and then reading goes on in any case. -/
theorem bind_perhaps (lossy : Prop) {p : Prop} {_ : Decidable p} {x : Parse α} (hc : Proper c)
    (h : (if p then consumeIf c >>= fun _ => x else x) s = .ok a t) :
    ∃ u, Builds lossy false s [] u ∧ x u = .ok a t := by
  split at h
  · obtain ⟨found, u, hu, hgo⟩ := bind_ok h
    rcases consumeIf_ok lossy hc hu with ⟨-, -, hu⟩ | ⟨-, rfl⟩
    · exact ⟨u, hu.builds.weaken, hgo⟩
    · exact ⟨_, .refl _, hgo⟩
  · exact ⟨s, .refl s, h⟩

theorem expectIf_ok (lossy : Prop) (hc : Proper c) (h : expectIf c s = .ok () t) :
    c s.token = true ∧ Consumed lossy s t := by
  obtain ⟨found, u, hu, hgo⟩ := bind_ok h
  rcases consumeIf_ok lossy hc hu with ⟨rfl, htoken, hu⟩ | ⟨rfl, rfl⟩
  · cases hgo
    exact ⟨htoken, hu⟩
  · cases hgo

theorem bind_expect (lossy : Prop) {f : Unit → Parse α} (hc : Proper c) (h : (expectIf c >>= f) s = .ok a t) :
    ∃ u, Consumed lossy s u ∧ c s.token = true ∧ f () u = .ok a t := by
  obtain ⟨_, u, hu, h⟩ := bind_ok h
  obtain ⟨htoken, hu⟩ := expectIf_ok lossy hc hu
  exact ⟨u, hu, htoken, h⟩

theorem expectName_ok {name : String} (h : expectName s = .ok name t) :
    Consumed lossy s t ∧ s.token.kind = .identifier := by
  obtain ⟨u, hu, hk, h⟩ := bind_expect lossy (proper_kind (by decide)) h
  cases h
  exact ⟨hu, eq_of_beq hk⟩

theorem identifierOf_ok {id : Identifier} (hc : Proper c) (h : identifierOf c s = .ok id t) :
    Whole lossy s (.identifier id) t := by
  unfold identifierOf at h
  rw [mark_bind] at h
  obtain ⟨u, hu, -, h⟩ := bind_expect lossy hc h
  cases h
  exact ⟨.whole hu.builds rfl ⟨rfl, trivial, trivial⟩, rfl⟩

theorem identifier_ok {id : Identifier} (h : identifier s = .ok id t) :
    Whole lossy s (.identifier id) t := identifierOf_ok (proper_kind (by decide)) h

/-- The identifier is the current token, and has no type. -/
theorem identifier_named (lossy : Prop) {id : Identifier} (h : identifier s = .ok id t) :
    Consumed lossy s t ∧ s.token.kind = .identifier ∧ id.name = s.token.text ∧ id.type = none := by
  unfold identifier identifierOf at h
  rw [mark_bind] at h
  obtain ⟨u, hu, hk, h⟩ := bind_expect lossy (proper_kind (by decide)) h
  cases h
  refine ⟨hu, eq_of_beq hk, ?_, rfl⟩
  rw [hu.previous]

theorem wordIdentifier_ok {id : Identifier} (h : wordIdentifier s = .ok id t) :
    Whole lossy s (.identifier id) t := identifierOf_ok proper_word h

theorem expectGreater_ok (h : expectGreater s = .ok () t) : Builds lossy true s [] t := by
  rcases bind_if lossy (proper_operator _) h with ⟨u, hu, -, h⟩ | h
  · cases h
    exact hu.builds
  · rw [token_bind] at h
    cases hafter : afterGreater? s.token with
    | none =>
      rw [hafter] at h
      cases h
    | some after =>
      rw [hafter] at h
      cases h
      exact .split hafter

/-- The name that has just been consumed. -/
theorem previousIdentifier_ok {id : Identifier} {u : ParserState} (hu : Consumed lossy s u)
    (h : previousIdentifier u = .ok id t) : Whole lossy s (.identifier id) t := by
  have hspan : u.previous.span = s.token.span.«to» u.previous.span := by rw [hu.previous]; rfl
  cases h
  exact ⟨.whole hu.builds (congrArg some hspan) ⟨rfl, trivial, trivial⟩, congrArg some hspan⟩

theorem endStatement_ok {ended : Bool} (h : endStatement s = .ok ended t) :
    Builds lossy false s [] t := by
  rcases bind_if lossy (proper_kind (by decide)) h with ⟨u, hu, -, h⟩ | h
  · cases h
    exact hu.builds.weaken
  · cases h
    exact .refl _

theorem expectEnd_ok (h : expectEnd s = .ok () t) : t = s ∧ s.token.kind = .endOfProgram := by
  unfold expectEnd at h
  rw [at?_bind] at h
  split at h
  · cases h
  · rename_i hk
    cases h
    exact ⟨rfl, by simpa using hk⟩

theorem unexpected_ok (h : (unexpected : Parse α) s = .ok a t) : False := by cases h

theorem exhausted_ok (h : (exhausted : Parse α) s = .ok a t) : False := by cases h

/-- Whatever is reported, the script is not valid any more. -/
theorem report_checked {lossy q : Prop} {severity : Severity} {id : ProblemId} {span : Span}
    {arguments : List (String × Argument)} (aside : id.isAside = true)
    (h : report severity id span arguments s = .ok () t)
    (error : severity ≠ .warning) : Checked lossy q s t := by
  cases h
  refine ⟨.report s aside, rfl, rfl, fun hvalid => ?_⟩
  have hwarning : (s.script.isValid && severity == .warning) = true := hvalid
  simp [error] at hwarning

/-- A problem is reported if there is one, and reading goes on. -/
theorem bind_report (lossy : Prop) {p : Prop} {_ : Decidable p} {severity : Severity}
    {id : ProblemId} {span : Span} {arguments : List (String × Argument)} {f : Unit → Parse α}
    (aside : id.isAside = true)
    (h : (if p then report severity id span arguments >>= f else f ()) s = .ok a t)
    (error : severity ≠ .warning) :
    ∃ u, Checked lossy (¬ p) s u ∧ f () u = .ok a t := by
  split at h
  · obtain ⟨_, u, hu, h⟩ := bind_ok h
    exact ⟨u, report_checked aside hu error, h⟩
  · exact ⟨s, .refl ‹_› s, h⟩

/-- A problem is reported if there is one. -/
theorem reportIf_ok {p : Prop} {_ : Decidable p} {severity : Severity} {id : ProblemId}
    {span : Span} {arguments : List (String × Argument)} (aside : id.isAside = true)
    (h : (if p then report severity id span arguments else pure ()) s = .ok () t)
    (error : severity ≠ .warning) : Checked lossy (¬ p) s t := by
  split at h
  · exact report_checked aside h error
  · cases h
    exact .refl ‹_› _

theorem report_ok {severity : Severity} {id : ProblemId} {span : Span}
    {arguments : List (String × Argument)} (aside : id.isAside = true)
    (h : report severity id span arguments s = .ok () t) : Builds lossy false s [] t := by
  cases h
  exact .report s aside

section Loops

variable {item : Parse α} {f : α → List Piece}

/-- The first item, and what is built of the others. -/
theorem separated_cons
    (hitem : ∀ {s a t}, item s = .ok a t → Builds lossy true s (f a) t) :
    ∀ {fuel : Nat} {items : List α} {s t : ParserState}, separated item fuel s = .ok items t →
      ∃ first rest u, items = first :: rest ∧ item s = .ok first u ∧
        Builds lossy false u (rest.flatMap f) t
  | 0, _, _, _, h => (exhausted_ok h).elim
  | fuel + 1, items, s, t, h => by
    unfold separated at h
    obtain ⟨first, u, hfirst, h⟩ := bind_ok h
    rcases bind_if lossy (proper_kind (by decide)) h with ⟨v, hv, -, h⟩ | h
    · obtain ⟨rest, w, hrest, h⟩ := bind_ok h
      cases h
      obtain ⟨second, others, x, rfl, hsecond, hothers⟩ := separated_cons hitem hrest
      exact ⟨first, _, u, rfl, hfirst, (hv.builds.skip ((hitem hsecond).seq hothers)).weaken⟩
    · cases h
      exact ⟨first, [], t, rfl, hfirst, .refl _⟩

theorem separated_ok
    (hitem : ∀ {s a t}, item s = .ok a t → Builds lossy true s (f a) t) {fuel : Nat}
    {items : List α} (h : separated item fuel s = .ok items t) :
    Builds lossy true s (items.flatMap f) t := by
  obtain ⟨first, rest, v, rfl, hfirst, hrest⟩ := separated_cons hitem h
  exact (hitem hfirst).seq hrest

/-- What is checked of each item holds of all of them, if the script is still valid. -/
theorem separated_holds {q : α → Prop}
    (hitem : ∀ {s a t}, item s = .ok a t →
      Builds lossy true s (f a) t ∧ (t.script.isValid = true → q a)) :
    ∀ {fuel : Nat} {items : List α} {s t : ParserState}, separated item fuel s = .ok items t →
      t.script.isValid = true → ∀ a ∈ items, q a
  | 0, _, _, _, h, _ => (exhausted_ok h).elim
  | fuel + 1, items, s, t, h, hvalid => by
    unfold separated at h
    obtain ⟨first, u, hfirst, h⟩ := bind_ok h
    obtain ⟨-, hq⟩ := hitem hfirst
    rcases bind_if lossy (proper_kind (by decide)) h with ⟨v, hv, -, h⟩ | h
    · obtain ⟨rest, w, hrest, h⟩ := bind_ok h
      cases h
      have hmore := hv.builds.skip (separated_ok (fun h => (hitem h).1) hrest)
      have hall := separated_holds hitem hrest hvalid
      simpa using ⟨hq (hmore.grows.valid hvalid), hall⟩
    · cases h
      simpa using hq hvalid

theorem separatedUntil_ok {closing : TokenKind}
    (hitem : ∀ {s a t}, item s = .ok a t → Builds lossy true s (f a) t) :
    ∀ {fuel : Nat} {items : List α} {s t : ParserState},
      separatedUntil closing item fuel s = .ok items t →
      Builds lossy false s (items.flatMap f) t
  | 0, _, _, _, h => (exhausted_ok h).elim
  | fuel + 1, items, s, t, h => by
    unfold separatedUntil at h
    rw [at?_bind] at h
    split at h
    · cases h
      exact .refl _
    obtain ⟨first, u, hfirst, h⟩ := bind_ok h
    rcases bind_if lossy (proper_kind (by decide)) h with ⟨v, hv, -, h⟩ | h
    · obtain ⟨rest, w, hrest, h⟩ := bind_ok h
      cases h
      exact ((hitem hfirst).seq (hv.builds.skip (separatedUntil_ok hitem hrest))).weaken
    · cases h
      simpa using (hitem hfirst).weaken

/-- Items are read until there is none, and something is said of where they end. -/
theorem collectWhile_until {step : Parse (Option α)} {q : ParserState → ParserState → Prop}
    (hstep : ∀ {s a t}, step s = .ok (some a) t → Builds lossy false s (f a) t)
    (hlast : ∀ {s t}, step s = .ok none t → q s t) :
    ∀ {fuel : Nat} {items : List α} {s t : ParserState}, collectWhile step fuel s = .ok items t →
      ∃ u, Builds lossy false s (items.flatMap f) u ∧ q u t
  | 0, _, _, _, h => (exhausted_ok h).elim
  | fuel + 1, items, s, t, h => by
    unfold collectWhile at h
    obtain ⟨found, u, hfound, h⟩ := bind_ok h
    cases found with
    | none =>
      cases h
      exact ⟨s, .refl s, hlast hfound⟩
    | some first =>
      obtain ⟨rest, v, hrest, h⟩ := bind_ok h
      cases h
      obtain ⟨w, hrest, hend⟩ := collectWhile_until hstep hlast hrest
      exact ⟨w, (hstep hfound).seq hrest, hend⟩

theorem collectWhile_ok {step : Parse (Option α)}
    (hstep : ∀ {s found t}, step s = .ok found t → Builds lossy false s (found.toList.flatMap f) t)
    {fuel : Nat} {items : List α} {s t : ParserState} (h : collectWhile step fuel s = .ok items t) :
    Builds lossy false s (items.flatMap f) t := by
  obtain ⟨u, hitems, hend⟩ := collectWhile_until (f := f) (q := fun s t => Builds lossy false s [] t)
    (fun h => by simpa using hstep h) hstep h
  exact hitems.aside hend

/-- Items that are each one piece. -/
theorem separated_each {g : α → Piece}
    (hitem : ∀ {s a t}, item s = .ok a t → Builds lossy true s [g a] t) {fuel : Nat}
    {items : List α} (h : separated item fuel s = .ok items t) :
    Builds lossy true s (items.map g) t := by
  rw [List.map_eq_flatMap]
  exact separated_ok hitem h

theorem separatedUntil_each {g : α → Piece} {closing : TokenKind}
    (hitem : ∀ {s a t}, item s = .ok a t → Builds lossy true s [g a] t) {fuel : Nat}
    {items : List α} (h : separatedUntil closing item fuel s = .ok items t) :
    Builds lossy false s (items.map g) t := by
  rw [List.map_eq_flatMap]
  exact separatedUntil_ok hitem h

theorem collectWhile_each {g : α → Piece} {step : Parse (Option α)}
    (hstep : ∀ {s found t}, step s = .ok found t → Builds lossy false s (found.toList.map g) t)
    {fuel : Nat} {items : List α} (h : collectWhile step fuel s = .ok items t) :
    Builds lossy false s (items.map g) t := by
  rw [List.map_eq_flatMap]
  exact collectWhile_ok (fun h => List.map_eq_flatMap ▸ hstep h) h

end Loops

end Parse

/-- An assignment goes from its target to its value. -/
def Expr.Tight : Expr → Prop
  | .assignment span left _ right => span = left.span.«to» right.span
  | _ => True

/-- An expression is read, from the current token on. -/
structure ExprRead (lossy : Prop) (s : ParserState) (e : Expr) (t : ParserState) : Prop extends
    Whole lossy s (.expr e) t where
  tight : e.Tight

/-- An expression is read, or there is none and nothing is done. -/
def OptRead (lossy : Prop) (s : ParserState) (found : Option Expr) (t : ParserState) : Prop :=
  match found with
  | some e => ExprRead lossy s e t
  | none => t = s

theorem ExprRead.span_eq {lossy : Prop} {s t : ParserState} {e : Expr} (h : ExprRead lossy s e t) :
    e.span = s.token.span.«to» t.previous.span := Option.some_inj.mp h.ends

/-- What begins with the expression begins where the expression has been read. -/
theorem ExprRead.mark {lossy : Prop} {s t : ParserState} {e : Expr} (h : ExprRead lossy s e t) :
    Mark.ofSpan e.span = Mark.ofSpan s.token.span := by
  rw [h.span_eq]
  rfl

/-- A type is read. A `|` in front of it is none of its tokens. -/
def TypeRead (lossy : Prop) (s : ParserState) (type : TypeExpr) (t : ParserState) : Prop :=
  ∃ a u, Builds lossy a s [] u ∧ Whole lossy u (.type type) t

/-- The statements of an included script are read. -/
def Included (lossy : Prop) (around : Situation) (s : ParserState) (child : Script)
    (statements : List Statement) (t : ParserState) : Prop :=
  lossy ∧ ∃ d a first inner last,
    (statements ≠ [] → first =
        (s.inside (.ofSource child.path (String.ofList child.content))).scanned ∧
      (s.inside (.ofSource child.path (String.ofList child.content))).scanner.next.1 = .ok ()) ∧
    BuildsIn lossy d a first (statements.map (.statement around)) inner ∧ t = s.outside last

/-- A block is read, that of a constructor if so marked. -/
structure BlockRead (lossy : Prop) (c : Bool) (around : Situation) (s : ParserState) (block : Block)
    (t : ParserState) : Prop where
  builds : BuildsIn lossy c true s [.block around block] t
  ends : block.span = s.token.span.«to» t.previous.span

/-- Rules that build what they read. -/
structure Rules.Builder (lossy : Prop) (r : Rules) : Prop where
  typeExpr : ∀ {s type t}, r.typeExpr s = .ok type t → TypeRead lossy s type t
  optExpr : ∀ {mode s found t}, r.optExpr mode s = .ok found t → OptRead lossy s found t
  optPrimary : ∀ {allowTyped level s found t}, r.optPrimary allowTyped level s = .ok found t →
    OptRead lossy s found t
  node : ∀ {s e t}, r.node s = .ok e t → ExprRead lossy s e t
  block : ∀ {around c s block t}, Situation.Agrees around c → r.block c s = .ok block t →
    BlockRead lossy c.isConstructor around s block t
  statement : ∀ {around c s statement ended t}, Situation.Agrees around c →
    r.statement c s = .ok (statement, ended) t →
    BuildsIn lossy c.isConstructor true s [.statement around statement] t
  included : ∀ {around c path source s child statements t}, Situation.Agrees around c →
    r.included c (.ofSource path source) s = .ok (child, statements) t →
    Included lossy around s child statements t

theorem TypeRead.builds {lossy : Prop} {s t : ParserState} {type : TypeExpr}
    (h : TypeRead lossy s type t) : Builds lossy true s [.type type] t := by
  obtain ⟨a, u, hu, hwhole⟩ := h
  cases a with
  | false => exact hu.skip hwhole.builds
  | true => exact hu.skip hwhole.builds

/-- A node that goes up to the end of the type ends where the type ends. -/
theorem TypeRead.span_to {lossy : Prop} {s t : ParserState} {type : TypeExpr}
    (h : TypeRead lossy s type t) (first : Span) :
    some ((Mark.ofSpan first).«to» type.span) = some (first.«to» t.previous.span) := by
  obtain ⟨_, u, -, hwhole⟩ := h
  have hspan : type.span = u.token.span.«to» t.previous.span := Option.some_inj.mp hwhole.ends
  rw [hspan]
  rfl

theorem Whole.typeRead {lossy : Prop} {s t : ParserState} {type : TypeExpr}
    (h : Whole lossy s (.type type) t) : TypeRead lossy s type t := ⟨false, s, .refl s, h⟩

end ActionSyntax
