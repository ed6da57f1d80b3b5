import ActionSyntax.Proofs.Elementary
import ActionSyntax.Proofs.Shadows.Bare

/-!
One reading in the shadow of another. Two parsers stand in texts that agree for a while; whatever the
first one reads, the second one reads as well, and what they read differs in places only. The first
text may end before the second, and at its end nothing more can be said.
-/

namespace ActionSyntax

set_option autoImplicit false

section Tokens

/-- Kinds of tokens that are spelled in one way. -/
def TokenKind.isMark : TokenKind → Bool
  | .identifier | .string | .number | .regularExpression | .keyword | .operator
  | .compoundAssignment => false
  | _ => true

/-- Marks that end a construct, or one of its parts, from outside. -/
def TokenKind.closes : TokenKind → Bool
  | .semicolon | .comma | .rightParen | .rightBracket | .rightBrace => true
  | _ => false

/-- Two tokens say the same, wherever they stand. Any two marks do; which one it is, is asked for
apart. -/
structure Token.Like (t u : Token) : Prop where
  kind : t.kind = u.kind ∨ (t.kind.isMark = true ∧ u.kind.isMark = true)
  text : t.text = u.text
  number : t.number = u.number
  flags : t.flags = u.flags
  operator : t.operator = u.operator
  length : t.kind = .identifier → t.rawLength = u.rawLength

namespace Token.Like

variable {t u : Token} (h : t.Like u)

theorem refl (t : Token) : t.Like t := ⟨Or.inl rfl, rfl, rfl, rfl, rfl, fun _ => rfl⟩

include h

/-- Kinds that are no marks are told apart. -/
theorem kind_beq {k : TokenKind} (hk : k.isMark = false) : (t.kind == k) = (u.kind == k) := by
  rcases h.kind with heq | ⟨ht, hu⟩
  · rw [heq]
  · have hne : ∀ {l : TokenKind}, l.isMark = true → (l == k) = false := by
      rintro l hl
      rw [beq_eq_false_iff_ne]
      rintro rfl
      simp [hl] at hk
    rw [hne ht, hne hu]

theorem isKeyword (word : String) : t.isKeyword word = u.isKeyword word := by
  unfold Token.isKeyword
  rw [h.kind_beq rfl, h.text]

theorem isOperator (op : Operator) : t.isOperator op = u.isOperator op := by
  unfold Token.isOperator
  rw [h.kind_beq rfl, h.operator]

theorem isCompoundAssignment (op : Operator) :
    t.isCompoundAssignment op = u.isCompoundAssignment op := by
  unfold Token.isCompoundAssignment
  rw [h.kind_beq rfl, h.operator]

theorem isContextKeyword (word : String) : t.isContextKeyword word = u.isContextKeyword word := by
  unfold Token.isContextKeyword
  rw [← h.kind_beq rfl, h.text]
  cases hk : t.kind == .identifier with
  | false => rfl
  | true => rw [h.length (eq_of_beq hk)]

theorem isWord : Parse.isWord t = Parse.isWord u := by
  unfold Parse.isWord
  rw [h.kind_beq rfl, h.kind_beq rfl]

end Token.Like

/-- A condition that depends on what a token says and does not hold at the end of the text. -/
structure Token.Asks (condition : Token → Bool) : Prop where
  same : ∀ {t u : Token}, t.Like u → t.kind = u.kind → condition t = condition u
  proper : Setting.Proper condition

/-- The condition holds of no mark that closes. -/
def Token.Passing (condition : Token → Bool) : Prop :=
  ∀ t : Token, t.kind.closes = true → condition t = false

namespace Token

open Setting

theorem asks_kind {k : TokenKind} (hk : k ≠ .endOfProgram) : Asks fun t => t.kind == k :=
  ⟨fun _ heq => by rw [heq], proper_kind hk⟩

theorem asks_operator (op : Operator) : Asks fun t => t.isOperator op :=
  ⟨fun h _ => h.isOperator op, proper_operator op⟩

theorem asks_keyword (word : String) : Asks fun t => t.isKeyword word :=
  ⟨fun h _ => h.isKeyword word, proper_keyword word⟩

theorem asks_contextKeyword (word : String) : Asks fun t => t.isContextKeyword word :=
  ⟨fun h _ => h.isContextKeyword word, proper_contextKeyword word⟩

theorem asks_word : Asks Parse.isWord := ⟨fun h _ => h.isWord, proper_word⟩

theorem passing_kind {k : TokenKind} (hk : k.closes = false) : Passing fun t => t.kind == k := by
  intro t ht
  show (t.kind == k) = false
  rw [beq_eq_false_iff_ne]
  rintro heq
  simp [← heq, ht] at hk

theorem passing_operator (op : Operator) : Passing fun t => t.isOperator op := by
  intro t ht
  have hkind : (t.kind == .operator) = false := passing_kind rfl t ht
  simp [isOperator, hkind]

theorem passing_keyword (word : String) : Passing fun t => t.isKeyword word := by
  intro t ht
  have hkind : (t.kind == .keyword) = false := passing_kind rfl t ht
  simp [isKeyword, hkind]

theorem passing_contextKeyword (word : String) : Passing fun t => t.isContextKeyword word := by
  intro t ht
  have hkind : (t.kind == .identifier) = false := passing_kind rfl t ht
  simp [isContextKeyword, hkind]

/-- Two tokens side by side: they say the same, or the first text ends where the second has a token
that stops there. -/
structure Beside (stops : TokenKind → Prop) (t u : Token) : Prop where
  like : t.Like u
  kind : t.kind = u.kind ∨ (t.kind = .endOfProgram ∧ stops u.kind)

theorem Beside.refl (stops : TokenKind → Prop) (t : Token) : t.Beside stops t :=
  ⟨.refl t, Or.inl rfl⟩

end Token

theorem Parse.afterGreater?_proper {t : Token} {kind : TokenKind} {operator : Option Operator}
    (h : Parse.afterGreater? t = some (kind, operator)) : t.kind ≠ .endOfProgram := by
  intro hend
  unfold Parse.afterGreater? at h
  rw [hend] at h
  cases h

end Tokens

/-- The text has been read to its end. -/
structure ParserState.Ended (s : ParserState) : Prop where
  kind : s.token.kind = .endOfProgram
  rest : s.scanner.cursor.rest = []
  notes : s.scanner.cursor.passedComments = []

/-- The second state is at the end of the text, and no comment has been found since the first one. -/
structure ParserState.Rests (s t : ParserState) : Prop where
  ended : t.Ended
  comments : t.script.comments = s.script.comments

/-- What two states show alike. On layout and on the functions around they agree where lines are laid out
alike. -/
structure Sees (stops : TokenKind → Prop) (layered : Prop) (s t : ParserState) : Prop where
  token : s.token.Beside stops t.token
  previous : s.previous.Like t.previous
  behindBrace : (s.previous.kind == .rightBrace) = (t.previous.kind == .rightBrace)
  path : s.script.path = t.script.path
  functions : layered → s.functions = t.functions
  superFound : layered → s.superFound = t.superFound
  layout : layered → s.onSameLine = t.onSameLine ∧ s.indentedFurther = t.indentedFurther ∧
    s.continues = t.continues

theorem Sees.refl (stops : TokenKind → Prop) (layered : Prop) (s : ParserState) :
    Sees stops layered s s :=
  ⟨.refl _ _, .refl _, rfl, rfl, fun _ => rfl, fun _ => rfl, fun _ => ⟨rfl, rfl, rfl⟩⟩

/-- Two outcomes. If the first is a value, the second is one that goes with it and the states behind
are near each other again, unless the first state is a lost one. -/
inductive Goes {α β : Type} (near : ParserState → ParserState → Prop) (lost : ParserState → Prop)
    (goes : α → β → Prop) :
    EStateM.Result Stop ParserState α → EStateM.Result Stop ParserState β → Prop
  | ok {a : α} {b : β} {s t : ParserState} (value : goes a b) (close : near s t) :
      Goes near lost goes (.ok a s) (.ok b t)
  | lost {a : α} {s : ParserState} {q : EStateM.Result Stop ParserState β} (gone : lost s) :
      Goes near lost goes (.ok a s) q
  | stopped {stop : Stop} {s : ParserState} {q : EStateM.Result Stop ParserState β} :
      Goes near lost goes (.error stop s) q

/-- How two texts go together: which states are near each other, and which tokens the second text may
have where the first one ends. From a state that is gone, at the end of the first text, nothing is
said any more. In a layered pairing, lines are indented alike. -/
structure Pairing where
  near : ParserState → ParserState → Prop
  stops : TokenKind → Prop
  gone : ParserState → Prop
  layered : Prop
  closes : ∀ {k}, stops k → k.closes = true
  gone_ended : ∀ {s}, gone s → s.Ended
  gone_rests : ∀ {s t}, gone s → s.Rests t → gone t
  sees : ∀ {s t}, near s t → Sees stops layered s t
  ended : ∀ {s t}, near s t → s.token.kind = .endOfProgram → s.Ended
  next : ∀ {s t}, near s t → s.token.kind = t.token.kind →
    Goes near gone Eq (Parse.next s) (Parse.next t)
  regular : ∀ {s t}, near s t → Rules.beginsRegularExpression s.token = true →
    Goes near gone Eq (Parse.scan Scanner.readRegularExpression s)
      (Parse.scan Scanner.readRegularExpression t)
  split : ∀ {s t kind operator}, near s t →
    Parse.afterGreater? s.token = some (kind, operator) →
    near (s.split kind operator) (t.split kind operator)
  collect : ∀ {s t p q}, near s t → p.severity = q.severity → near (s.collect p) (t.collect q)
  note : ∀ {s t}, near s t → ∀ functions superFound,
    near { s with functions, superFound } { t with functions, superFound }
  addIncluded : ∀ {s t}, near s t → ∀ child, near (s.addIncluded child) (t.addIncluded child)

/-- How much may be left open at the end of the first text: what a gone state leaves open, or all if the
second text may go on there. -/
inductive Tier where
  | tight | wide

namespace Pairing

variable (P : Pairing)

/-- The states from which nothing is said. -/
def Lost : Tier → ParserState → Prop
  | .tight, s => P.gone s
  | .wide, s => P.gone s ∨ (s.Ended ∧ ∃ kind, P.stops kind)

abbrev Goes (tier : Tier) {α β : Type} (goes : α → β → Prop)
    (p : EStateM.Result Stop ParserState α) (q : EStateM.Result Stop ParserState β) : Prop :=
  ActionSyntax.Goes P.near (P.Lost tier) goes p q

variable {P} {tier : Tier} {s t : ParserState}

theorem Lost.wide (h : P.Lost tier s) : P.Lost .wide s := by
  cases tier with
  | tight => exact Or.inl h
  | wide => exact h

theorem Lost.of_gone (h : P.gone s) : P.Lost tier s := by
  cases tier with
  | tight => exact h
  | wide => exact Or.inl h

/-- The second text may go on where the first one ends. -/
theorem Lost.of_stops (hend : s.Ended) {kind : TokenKind} (hstop : P.stops kind) : P.Lost .wide s :=
  Or.inr ⟨hend, kind, hstop⟩

theorem Lost.ended (h : P.Lost tier s) : s.Ended := by
  obtain hgone | ⟨hend, -⟩ := h.wide
  · exact P.gone_ended hgone
  · exact hend

theorem Lost.rests (h : P.Lost tier s) (hst : s.Rests t) : P.Lost tier t := by
  cases tier with
  | tight => exact P.gone_rests h hst
  | wide =>
    exact Or.imp (fun hgone => P.gone_rests hgone hst) (fun ⟨_, hstops⟩ => ⟨hst.ended, hstops⟩) h

/-- The tokens are of one kind, unless the first text ends. -/
theorem same_or_ended (h : P.near s t) :
    s.token.kind = t.token.kind ∨ (s.Ended ∧ P.stops t.token.kind) :=
  (P.sees h).token.kind.imp_right fun ⟨hend, hstop⟩ => ⟨P.ended h hend, hstop⟩

theorem same_kind (h : P.near s t) (hproper : s.token.kind ≠ .endOfProgram) :
    s.token.kind = t.token.kind := (P.same_or_ended h).resolve_right fun ⟨hend, _⟩ => hproper hend.kind

end Pairing

/-- The second reading goes where the first one goes. The first stays at the end once it is there. -/
structure Shadows (P : Pairing) (tier : Tier) {α β : Type} (goes : α → β → Prop) (x : Parse α)
    (y : Parse β) : Prop where
  goes : ∀ {s t}, P.near s t → P.Goes tier goes (x s) (y t)
  stays : ∀ {s a t}, s.Ended → x s = .ok a t → s.Rests t

/-- At the end of the text the reading gives nothing. -/
structure Starves {α : Type} (x : Parse α) : Prop where
  empty : ∀ {s a t}, s.Ended → x s ≠ .ok a t

theorem ParserState.Ended.rests {s : ParserState} (h : s.Ended) : s.Rests s := ⟨h, rfl⟩

theorem ParserState.Rests.trans {s t u : ParserState} (hst : s.Rests t) (htu : t.Rests u) :
    s.Rests u := ⟨htu.ended, htu.comments.trans hst.comments⟩

namespace Goes

variable {near : ParserState → ParserState → Prop} {lost lost' : ParserState → Prop}
  {α β : Type} {goes goes' : α → β → Prop} {p : EStateM.Result Stop ParserState α}
  {q : EStateM.Result Stop ParserState β}

theorem mono (h : Goes near lost goes p q) (hlost : ∀ s, lost s → lost' s)
    (hgoes : ∀ a b, goes a b → goes' a b) : Goes near lost' goes' p q := by
  cases h with
  | ok value close => exact .ok (hgoes _ _ value) close
  | lost gone => exact .lost (hlost _ gone)
  | stopped => exact .stopped

end Goes

namespace Starves

open Parse

variable {α β : Type} {x : Parse α} {f : α → Parse β}

/-- Nothing comes of a reading that gives nothing. -/
theorem seq (hx : Starves x) : Starves (x >>= f) := ⟨fun hs h => by
  obtain ⟨a, t, hxt, -⟩ := bind_ok h
  exact hx.empty hs hxt⟩

theorem after (hx : ∀ {s a t}, s.Ended → x s = .ok a t → s.Rests t) (hf : ∀ a, Starves (f a)) :
    Starves (x >>= f) := ⟨fun hs h => by
  obtain ⟨a, t, hxt, hft⟩ := bind_ok h
  exact (hf a).empty (hx hs hxt).ended hft⟩

theorem ite {condition : Prop} {_ : Decidable condition} {y : Parse α} (hx : Starves x)
    (hy : Starves y) : Starves (if condition then x else y) := by
  split
  · exact hx
  · exact hy

end Starves

namespace Shadows

open Parse

variable {P : Pairing} {tier : Tier} {α α' β β' : Type} {R : α → α' → Prop} {S : β → β' → Prop}
  {x : Parse α} {x' : Parse α'} {f : α → Parse β} {f' : α' → Parse β'}

theorem pure {a : α} {a' : α'} (h : R a a') :
    Shadows P tier R (Pure.pure a) (Pure.pure a') where
  goes hst := .ok h hst
  stays hs h := by
    cases h
    exact hs.rests

/-- Two outcomes, and what is read on from them. -/
theorem goes_bind {s t : ParserState} (hx : P.Goes tier R (x s) (x' t))
    (hf : ∀ {a b u v}, x s = .ok a u → x' t = .ok b v → R a b → P.near u v →
      P.Goes tier S (f a u) (f' b v))
    (hstays : ∀ {a u b v}, u.Ended → f a u = .ok b v → u.Rests v) :
    P.Goes tier S ((x >>= f) s) ((x' >>= f') t) := by
  show P.Goes tier S (EStateM.bind x f s) (EStateM.bind x' f' t)
  unfold EStateM.bind
  generalize hxs : x s = p at hx
  generalize hxt : x' t = q at hx
  cases hx with
  | ok value close => exact hf hxs hxt value close
  | lost gone =>
    dsimp only
    -- The second outcome is of no account, whatever comes of the first.
    rename_i a u
    cases hfu : f a u with
    | ok b v => exact .lost (gone.rests (hstays gone.ended hfu))
    | error stop v => exact .stopped
  | stopped => exact .stopped

theorem bind (hx : Shadows P tier R x x') (total : ∀ a, ∃ b, R a b)
    (hf : ∀ a b, R a b → Shadows P tier S (f a) (f' b)) :
    Shadows P tier S (x >>= f) (x' >>= f') := by
  have hstays : ∀ {a u b v}, u.Ended → f a u = .ok b v → u.Rests v := by
    intro a u b v hu h
    obtain ⟨a', ha⟩ := total a
    exact (hf a a' ha).stays hu h
  refine ⟨fun hst => goes_bind (hx.goes hst) (fun _ _ hab huv => (hf _ _ hab).goes huv) hstays,
    fun hs h => ?_⟩
  obtain ⟨a, t, hxt, hft⟩ := bind_ok h
  have hst := hx.stays hs hxt
  exact hst.trans (hstays hst.ended hft)

theorem seq {x x' : Parse α} {f : α → Parse β} {f' : α → Parse β'} (hx : Shadows P tier Eq x x')
    (hf : ∀ a, Shadows P tier S (f a) (f' a)) : Shadows P tier S (x >>= f) (x' >>= f') :=
  .bind hx (fun a => ⟨a, rfl⟩) fun a _ hab => hab ▸ hf a

/-- Values that match are gone on with. -/
theorem matched [Bare α] {x x' : Parse α} {f : α → Parse β} {f' : α → Parse β'}
    (hx : Shadows P tier Matches x x')
    (hf : ∀ a b, Matches a b → Shadows P tier S (f a) (f' b)) :
    Shadows P tier S (x >>= f) (x' >>= f') :=
  .bind hx (fun a => ⟨a, .refl a⟩) hf

/-- What is left open by the first reading is closed by what has to follow it. -/
theorem closed (hx : Shadows P .wide R x x')
    (hf : ∀ a b, R a b → Shadows P tier S (f a) (f' b)) (hstarves : ∀ a, Starves (f a)) :
    Shadows P tier S (x >>= f) (x' >>= f') where
  goes {s t} hst := by
    have hgoes : P.Goes .wide R (x s) (x' t) := hx.goes hst
    show P.Goes tier S (EStateM.bind x f s) (EStateM.bind x' f' t)
    unfold EStateM.bind
    generalize x s = p at hgoes
    generalize x' t = q at hgoes
    cases hgoes with
    | ok value close => exact (hf _ _ value).goes close
    | lost gone =>
      rename_i a u
      dsimp only
      cases hfu : f a u with
      | ok b v => exact absurd hfu ((hstarves a).empty gone.ended)
      | error stop v => exact .stopped
    | stopped => exact .stopped
  stays hs h := by
    obtain ⟨a, t, hxt, hft⟩ := bind_ok h
    exact absurd hft ((hstarves a).empty (hx.stays hs hxt).ended)

theorem closedOr [Bare α] {x x' : Parse α} {f : α → Parse β} {f' : α → Parse β'}
    (hx : Shadows P .wide Matches x x')
    (hf : ∀ a b, Matches a b → Shadows P tier S (f a) (f' b))
    (hstarves : tier = .wide ∨ ∀ a, Starves (f a)) : Shadows P tier S (x >>= f) (x' >>= f') := by
  rcases hstarves with rfl | hstarves
  · exact .matched hx hf
  · exact .closed hx hf hstarves

theorem ite {condition : Prop} {_ : Decidable condition} {y : Parse α} {y' : Parse α'}
    (hx : Shadows P tier R x x') (hy : Shadows P tier R y y') :
    Shadows P tier R (if condition then x else y) (if condition then x' else y') := by
  split
  · exact hx
  · exact hy

/-- Two conditions that say the same. -/
theorem ite_iff {c c' : Prop} {_ : Decidable c} {_ : Decidable c'} {y : Parse α} {y' : Parse α'}
    (hc : c ↔ c') (hx : Shadows P tier R x x') (hy : Shadows P tier R y y') :
    Shadows P tier R (if c then x else y) (if c' then x' else y') := by
  by_cases h : c
  · rw [if_pos h, if_pos (hc.mp h)]
    exact hx
  · rw [if_neg h, if_neg fun h' => h (hc.mpr h')]
    exact hy

/-- A reading that is left out unless a condition holds. -/
theorem optional {c c' : Prop} {_ : Decidable c} {_ : Decidable c'} {y y' : Parse Unit}
    {f : Unit → Parse β} {f' : Unit → Parse β'} (hc : c ↔ c') (hy : Shadows P tier Eq y y')
    (hf : Shadows P tier S (f ()) (f' ())) :
    Shadows P tier S (if c then y >>= f else f ()) (if c' then y' >>= f' else f' ()) :=
  .ite_iff hc (.seq hy fun _ => hf) hf

theorem map {g : α → β} {g' : α' → β'} (hx : Shadows P tier R x x') (total : ∀ a, ∃ b, R a b)
    (hg : ∀ a b, R a b → S (g a) (g' b)) : Shadows P tier S (g <$> x) (g' <$> x') := by
  simp only [map_eq_pure_bind]
  exact .bind hx total fun a b hab => .pure (hg a b hab)

/-- A reading for each item. -/
theorem foldlM {γ : Type} [Bare β] [Bare γ] {step step' : β → γ → Parse β}
    (hstep : ∀ b b', Matches b b' → ∀ c c', Matches c c' →
      Shadows P tier Matches (step b c) (step' b' c')) :
    ∀ items items' : List γ, Matches items items' → ∀ start start', Matches start start' →
      Shadows P tier Matches (items.foldlM step start) (items'.foldlM step' start')
  | [], [], _, start, start', hstart => .pure hstart
  | [], _ :: _, h, _, _, _ => by simp at h
  | _ :: _, [], h, _, _, _ => by simp at h
  | c :: items, c' :: items', h, start, start', hstart => by
    obtain ⟨hc, hitems⟩ : Matches c c' ∧ Matches items items' := by simpa using h
    exact .matched (hstep _ _ hstart _ _ hc) fun next next' hnext =>
      foldlM hstep items items' hitems next next' hnext

end Shadows

end ActionSyntax
