import ActionSyntax.Proofs.Pieces.Tokens
import ActionSyntax.Proofs.Places.Colons
import ActionSyntax.Proofs.Shadows.Framing
import ActionSyntax.Proofs.Shadows.Levels

/-!
A piece of a text in front of a colon. Up to its end it is read as it is by itself. There a reading either
leaves the colon, or it goes on with it; what has been read by itself tells which of the two. Once the
colon has been taken, no other one is found unless there is one behind it.
-/

namespace ActionSyntax

set_option autoImplicit false

open Parse

/-- The reading leaves no colon if it succeeds. -/
def Parse.Loses {α : Type} (p : Parse α) (s : ParserState) : Prop :=
  ∀ a t, p s = .ok a t → t.Colonless

/-- Where no colon is left, the reading leaves none. -/
def Parse.Onward {α : Type} (p : Parse α) : Prop := ∀ s, s.Colonless → Loses p s

namespace Parse.Onward

variable {α β : Type} {p : Parse α} {f : α → Parse β}

/-- What is read by steps of the parser leaves no colon where none has been left. -/
theorem of_reads {readFile : String → Option String} {n : Nat} {c : α → Bool}
    (hp : (Setting.lenient readFile).Reads n c p) : Onward p := by
  intro s hs a t h
  have hends := hp s (Or.inl trivial)
  rw [h] at hends
  obtain ⟨k, hreach⟩ := hends.reaches
  exact hs.reach hreach

theorem pure (a : α) : Onward (Pure.pure a) := by
  rintro s hs _ _ ⟨⟩
  exact hs

theorem unexpected : Onward (Parse.unexpected : Parse α) := fun _ _ _ _ h => by cases h

theorem bind (hp : Onward p) (hf : ∀ a, Onward (f a)) : Onward (p >>= f) := by
  intro s hs b u h
  obtain ⟨a, t, hpt, hft⟩ := bind_ok h
  exact hf a t (hp s hs a t hpt) b u hft

theorem ite {condition : Prop} {_ : Decidable condition} {q : Parse α} (hp : Onward p) (hq : Onward q) :
    Onward (if condition then p else q) := by
  split
  · exact hp
  · exact hq

theorem mark : Onward Parse.mark := fun s hs => by
  rintro _ _ ⟨⟩
  exact hs

theorem token : Onward Parse.token := fun s hs => by
  rintro _ _ ⟨⟩
  exact hs

theorem next : Onward Parse.next := by
  intro s hs _ t h
  obtain ⟨-, rfl⟩ := Parse.next_inv h
  exact hs.advance

theorem finish (m : Mark) : Onward (finish m) := fun s hs => by
  rintro _ _ ⟨⟩
  exact hs

theorem syntaxError (id : ProblemId) (span : Span) : Onward (Parse.syntaxError id span) := by
  rintro s hs _ _ ⟨⟩
  exact ⟨hs.token, hs.rest⟩

theorem noteUse (op : Operator) (span : Span) : Onward (Rules.noteUse op span) :=
  have hreads : (Setting.lenient fun _ => none).Reads 0 never (Rules.noteUse op span) :=
    Setting.Sound.noteUse_reads op span
  .of_reads hreads

theorem popFunction : Onward popFunction := by
  rintro s hs _ _ ⟨⟩
  exact ⟨hs.token, hs.rest⟩

theorem consume {k : TokenKind} (hk : k ≠ .endOfProgram) : Onward (consume k) :=
  have hreads : (Setting.lenient fun _ => none).Reads 0 id (Parse.consume k) := Setting.consume_reads hk
  .of_reads hreads

theorem separated (hp : Onward p) : ∀ fuel, Onward (separated p fuel)
  | 0 => fun _ _ _ _ h => by cases h
  | fuel + 1 => by
    refine .bind hp fun first => .bind (.consume (by decide)) fun more => .ite ?_ (.pure _)
    exact .bind (separated hp fuel) fun rest => .pure _

end Parse.Onward

/-- The first token behind all colons. -/
theorem ParserState.Colonless.next {s t : ParserState} (hrest : ':' ∉ s.scanner.cursor.rest)
    (h : Parse.next s = .ok () t) : t.Colonless := by
  rw [next_apply] at h
  obtain ⟨start, l, stop, ht, hl, he⟩ | ⟨failure, token, htoken, he⟩ := s.scanner.next_cases
  · have hleads := s.scanner.next_leads
    rw [he] at h hleads
    cases h
    unfold ParserState.advance
    rw [he]
    refine ⟨fun hk => ?_, fun hmem => hrest (hleads.subset hmem)⟩
    have hstring : l.kind ≠ .string := by
      rw [show l.kind = .colon from hk]
      decide
    rcases Scan.lexeme_colon hl hstring with ⟨-, hmem⟩ | ⟨hne, -⟩
    · exact hrest ((Scan.trivia_leads ht).subset hmem)
    · exact hne hk
  · rw [he] at h
    cases h

/-- What is left of a token is no end. -/
theorem Parse.afterGreater?_rest {t : Token} {kind : TokenKind} {operator : Option Operator}
    (h : Parse.afterGreater? t = some (kind, operator)) : kind ≠ .endOfProgram := by
  unfold Parse.afterGreater? at h
  split at h <;> cases h <;> decide

/-- A piece of a text in front of a colon, indented like the line on which it begins. -/
structure Stem extends Fragment where
  colon : after.head? = some ':'
  layered : toFragment.Layered

/-- How a reading may end with the piece, as its values tell: by those of one kind the colon is left, and by
those of the other it is taken. -/
structure Manner (α : Type) where
  leaves : α → Prop
  takes : α → Prop

namespace Manner

variable {α β : Type}

/-- The colon is left. -/
def leaving : Manner α := ⟨fun _ => True, fun _ => False⟩

/-- The colon is taken. -/
def taking : Manner α := ⟨fun _ => False, fun _ => True⟩

/-- The value does not tell. -/
def either : Manner α := ⟨fun _ => True, fun _ => True⟩

/-- The value tells whether the colon is taken. -/
def telling (takes : α → Bool) : Manner α := ⟨fun a => takes a = false, fun a => takes a = true⟩

/-- A part of the value tells. -/
def comap (f : β → α) (M : Manner α) : Manner β := ⟨fun b => M.leaves (f b), fun b => M.takes (f b)⟩

/-- The last item tells. -/
def last (M : Manner α) : Manner (List α) where
  leaves items := ∃ item, items.getLast? = some item ∧ M.leaves item
  takes items := ∃ item, items.getLast? = some item ∧ M.takes item

/-- Only by those values by which the colon is left. -/
def kept (M : Manner α) : Manner α := ⟨M.leaves, fun _ => False⟩

/-- A manner that tells less. -/
structure Le (M N : Manner α) : Prop where
  leaves : ∀ a, M.leaves a → N.leaves a
  takes : ∀ a, M.takes a → N.takes a

theorem le_either (M : Manner α) : M.Le either := ⟨fun _ _ => trivial, fun _ _ => trivial⟩

end Manner

namespace Stem

variable {x : Stem} {s t : ParserState}

/-- Two parsers abreast, the first of which finds its tokens one behind the other. -/
structure Along (x : Stem) (s t : ParserState) : Prop where
  near : x.Near true true s t
  ordered : s.Ordered

namespace Along

/-- At the end of the piece the second parser is at the colon. -/
theorem atColon (h : x.Along s t) (hend : s.token.kind = .endOfProgram) :
    s.Ended ∧ t.token.kind = .colon ∧ t.scanner.cursor.rest = x.after.tail := by
  obtain ⟨rest, hafter⟩ := List.head?_eq_some_iff.mp x.colon
  have hstands := h.near.stands_behind hend hafter
  refine ⟨h.near.ended hend, hstands.kind, ?_⟩
  have hwhole : x.whole = x.before ++ x.piece ++ [':'] ++ rest := by simp [Passage.whole, hafter]
  rw [hstands.cursor_rest hwhole, hafter]
  rfl

/-- The tokens are of one kind, or the second parser is at the colon. -/
theorem same_or_over (h : x.Along s t) : s.token.kind = t.token.kind ∨
    (s.Ended ∧ t.token.kind = .colon ∧ t.scanner.cursor.rest = x.after.tail) := by
  by_cases hend : s.token.kind = .endOfProgram
  · exact Or.inr (h.atColon hend)
  · have htoken : t.token = _ := (h.near.meets.inside hend).token
    rw [htoken]
    exact Or.inl rfl

theorem same (h : x.Along s t) (hproper : s.token.kind ≠ .endOfProgram) :
    s.token.kind = t.token.kind := h.same_or_over.resolve_right fun ⟨hend, _⟩ => hproper hend.kind

theorem sees (h : x.Along s t) : Sees x.Stops x.Layered s t := h.near.sees

/-- The parsers stand closer to each other than is known of parsers abreast. -/
theorem closer {α β : Type} {goes : α → β → Prop} {p : EStateM.Result Stop ParserState α}
    {q : EStateM.Result Stop ParserState β} (h : Goes (x.Near true true) x.Gone goes p q)
    (hordered : ∀ a u, p = .ok a u → u.Ordered) : Goes x.Along x.Gone goes p q := by
  cases h with
  | ok value close => exact .ok value ⟨close, hordered _ _ rfl⟩
  | lost gone => exact .lost gone
  | stopped => exact .stopped

theorem next (h : x.Along s t) (hkind : s.token.kind = t.token.kind) :
    Goes x.Along x.Gone Eq (Parse.next s) (Parse.next t) :=
  closer (h.near.next hkind) fun _ _ hread => by
    obtain ⟨hok, rfl⟩ := Parse.next_inv hread
    exact h.ordered.advance (by rw [hok])

theorem regular (h : x.Along s t) (hslash : Rules.beginsRegularExpression s.token = true) :
    Goes x.Along x.Gone Eq (Parse.scan Scanner.readRegularExpression s)
      (Parse.scan Scanner.readRegularExpression t) :=
  closer (h.near.regular hslash) fun _ _ hread => by
    rw [Parse.scanRegular_apply] at hread
    cases hok : s.scanner.readRegularExpression.1 with
    | ok _ =>
      rw [hok] at hread
      cases hread
      exact (h.ordered.advanceRegular hslash hok).1
    | error p =>
      rw [hok] at hread
      cases hread

theorem split (h : x.Along s t) {kind : TokenKind} {operator : Option Operator}
    (hafter : Parse.afterGreater? s.token = some (kind, operator)) :
    x.Along (s.split kind operator) (t.split kind operator) :=
  ⟨h.near.split hafter, h.ordered.split hafter⟩

theorem collect (h : x.Along s t) {p q : Problem} (hpq : p.severity = q.severity) :
    x.Along (s.collect p) (t.collect q) :=
  ⟨h.near.collect hpq, h.ordered.beside ⟨rfl, rfl, rfl, rfl, rfl⟩⟩

theorem note (h : x.Along s t) (functions : List FunctionUse) (superFound : Bool) :
    x.Along { s with functions, superFound } { t with functions, superFound } :=
  ⟨{ h.near with functions := fun _ => rfl, superFound := fun _ => rfl },
    h.ordered.beside ⟨rfl, rfl, rfl, rfl, rfl⟩⟩

theorem addIncluded (h : x.Along s t) (child : Script) :
    x.Along (s.addIncluded child) (t.addIncluded child) :=
  ⟨{ h.near with meets := h.near.meets.withScripts rfl rfl rfl rfl },
    h.ordered.beside ⟨rfl, rfl, rfl, rfl, rfl⟩⟩

end Along

section Opening

/-- Parsers abreast in front of the end of the piece. -/
structure Amid (x : Stem) (s t : ParserState) : Prop where
  along : x.Along s t
  proper : s.token.kind ≠ .endOfProgram

/-- Where the first parser has come to the end, nothing more is said of the second one. -/
theorem Along.goes_amid {α β : Type} {goes : α → β → Prop} {p : EStateM.Result Stop ParserState α}
    {q : EStateM.Result Stop ParserState β} (h : Goes x.Along x.Gone goes p q) :
    Goes x.Amid ParserState.Ended goes p q := by
  cases h with
  | @ok a b u v value close =>
    by_cases hend : u.token.kind = .endOfProgram
    · exact .lost (close.atColon hend).1
    · exact .ok value ⟨close, hend⟩
  | lost gone => exact .lost gone.ended
  | stopped => exact .stopped

/-- The piece without its end, as two readings that go together. -/
def opening (x : Stem) : Pairing where
  near := x.Amid
  stops _ := False
  gone := ParserState.Ended
  layered := x.Layered
  closes h := h.elim
  gone_ended h := h
  gone_rests _ h := h.ended
  sees h := by
    have hsees := h.along.sees
    exact { hsees with token := ⟨hsees.token.like, Or.inl (h.along.same h.proper)⟩ }
  ended h hend := absurd hend h.proper
  next h hkind := Along.goes_amid (h.along.next hkind)
  regular h hslash := Along.goes_amid (h.along.regular hslash)
  split h hafter := ⟨h.along.split hafter, Parse.afterGreater?_rest hafter⟩
  collect h hpq := ⟨h.along.collect hpq, h.proper⟩
  note h functions superFound := ⟨h.along.note functions superFound, h.proper⟩
  addIncluded h child := ⟨h.along.addIncluded child, h.proper⟩

end Opening

/-- How the outcomes of two readings go together at the end of the piece. The parsers are abreast again, and
if that is at the end, the value is one that leaves the colon; or the value is one that takes it, and the
second reading leaves no colon if there is none behind it. Nothing is said if the first reading stops, or
if a comment is left open. -/
inductive Arrives {α β : Type} (x : Stem) (goes : α → β → Prop) (M : Manner α) :
    EStateM.Result Stop ParserState α → EStateM.Result Stop ParserState β → Prop
  | abreast {a : α} {b : β} {s t : ParserState} (value : goes a b) (close : x.Along s t)
      (leaves : s.Ended → M.leaves a) : Arrives x goes M (.ok a s) (.ok b t)
  | taken {a : α} {s : ParserState} {q : EStateM.Result Stop ParserState β} (ended : s.Ended)
      (takes : M.takes a) (loses : ':' ∉ x.after.tail → ∀ b t, q = .ok b t → t.Colonless) :
      Arrives x goes M (.ok a s) q
  | gone {a : α} {s : ParserState} {q : EStateM.Result Stop ParserState β} (gone : x.Gone s) :
      Arrives x goes M (.ok a s) q
  | stopped {stop : Stop} {s : ParserState} {q : EStateM.Result Stop ParserState β} :
      Arrives x goes M (.error stop s) q

/-- The readings go together, in the given manner, from wherever the parsers are abreast. At the end of the
piece something may have to be known of what has been read before. -/
structure Approaches {α β : Type} (x : Stem) (begun : Prop) (goes : α → β → Prop) (M : Manner α)
    (p : Parse α) (q : Parse β) : Prop where
  goes : ∀ {s t}, x.Along s t → (s.Ended → begun) → x.Arrives goes M (p s) (q t)
  stays : ∀ {s a t}, s.Ended → p s = .ok a t → s.Rests t

namespace Arrives

variable {α α' β β' : Type} {R : α → α' → Prop} {S : β → β' → Prop} {M : Manner α} {N : Manner β}

theorem mono {M' : Manner α} {p : EStateM.Result Stop ParserState α}
    {q : EStateM.Result Stop ParserState α'} (h : x.Arrives R M p q)
    (hM : ∀ a u, p = .ok a u → u.Ended → (M.leaves a → M'.leaves a) ∧ (M.takes a → M'.takes a)) :
    x.Arrives R M' p q := by
  cases h with
  | abreast value close leaves =>
    exact .abreast value close fun hend => (hM _ _ rfl hend).1 (leaves hend)
  | taken ended takes loses => exact .taken ended ((hM _ _ rfl ended).2 takes) loses
  | gone gone => exact .gone gone
  | stopped => exact .stopped

/-- Two outcomes, and what is read on from them. -/
theorem bind {p : Parse α} {p' : Parse α'} {f : α → Parse β} {f' : α' → Parse β'}
    (hp : x.Arrives R M (p s) (p' t))
    (hf : ∀ {a b u v}, p s = .ok a u → R a b → x.Along u v → (u.Ended → M.leaves a) →
      x.Arrives S N (f a u) (f' b v))
    (hstays : ∀ {a u b v}, u.Ended → f a u = .ok b v → u.Rests v)
    (htakes : ∀ {a u b v}, M.takes a → p s = .ok a u → u.Ended → f a u = .ok b v → N.takes b)
    (honward : ∀ a b, M.takes a → Onward (f' b)) :
    x.Arrives S N ((p >>= f) s) ((p' >>= f') t) := by
  show x.Arrives S N (EStateM.bind p f s) (EStateM.bind p' f' t)
  unfold EStateM.bind
  generalize hps : p s = outcome at hp
  generalize hpt : p' t = outcome' at hp
  cases hp with
  | abreast value close leaves => exact hf hps value close leaves
  | taken ended takes loses =>
    rename_i a u
    dsimp only
    cases hfu : f a u with
    | error stop v => exact .stopped
    | ok b v =>
      refine .taken (hstays ended hfu).ended (htakes takes hps ended hfu) fun hrest c w hread => ?_
      cases outcome' with
      | error stop w => cases hread
      | ok b' w' => exact honward a b' takes w' (loses hrest b' w' rfl) c w hread
  | gone gone =>
    rename_i a u
    dsimp only
    cases hfu : f a u with
    | error stop v => exact .stopped
    | ok b v => exact .gone (gone.rests (hstays gone.ended hfu))
  | stopped => exact .stopped

end Arrives

namespace Approaches

variable {α α' β β' : Type} {begun begun' : Prop} {R : α → α' → Prop} {S : β → β' → Prop} {M : Manner α}
  {N : Manner β} {p : Parse α} {p' : Parse α'} {f : α → Parse β} {f' : α' → Parse β'}

theorem mono {M' : Manner α} (h : x.Approaches begun R M p p') (hM : M.Le M') :
    x.Approaches begun R M' p p' where
  goes hst hbegun := (h.goes hst hbegun).mono fun a _ _ _ => ⟨hM.leaves a, hM.takes a⟩
  stays := h.stays

theorem weaken (h : x.Approaches begun R M p p') (hbegun : begun' → begun) :
    x.Approaches begun' R M p p' where
  goes hst hs := h.goes hst fun hend => hbegun (hs hend)
  stays := h.stays

theorem pure {a : α} {a' : α'} (h : R a a') (hleaves : begun → M.leaves a) :
    x.Approaches begun R M (Pure.pure a) (Pure.pure a') where
  goes hst hs := .abreast h hst fun hend => hleaves (hs hend)
  stays hs h := by
    cases h
    exact hs.rests

theorem bind (hp : x.Approaches begun R M p p') (total : ∀ a, ∃ b, R a b)
    (hf : ∀ a b, R a b → x.Approaches (M.leaves a) S N (f a) (f' b))
    (htakes : ∀ {a s b t}, M.takes a → s.Ended → f a s = .ok b t → N.takes b)
    (honward : ∀ a b, M.takes a → Onward (f' b)) :
    x.Approaches begun S N (p >>= f) (p' >>= f') := by
  have hstays : ∀ {a u b v}, u.Ended → f a u = .ok b v → u.Rests v := by
    intro a u b v hu h
    obtain ⟨a', ha⟩ := total a
    exact (hf a a' ha).stays hu h
  refine ⟨fun hst hs => .bind (hp.goes hst hs) (fun _ hab huv hleaves => (hf _ _ hab).goes huv hleaves)
    hstays (fun htaken _ => htakes htaken) honward, fun hs h => ?_⟩
  obtain ⟨a, t, hpt, hft⟩ := bind_ok h
  have hst := hp.stays hs hpt
  exact hst.trans (hstays hst.ended hft)

/-- Values that match are gone on with. -/
theorem matched [Bare α] {p p' : Parse α} {f : α → Parse β} {f' : α → Parse β'}
    (hp : x.Approaches begun Matches M p p')
    (hf : ∀ a b, Matches a b → x.Approaches (M.leaves a) S N (f a) (f' b))
    (htakes : ∀ {a s b t}, M.takes a → s.Ended → f a s = .ok b t → N.takes b)
    (honward : ∀ b, Onward (f' b)) : x.Approaches begun S N (p >>= f) (p' >>= f') :=
  .bind hp (fun a => ⟨a, .refl a⟩) hf htakes fun _ b _ => honward b

/-- The value is only put into a larger one. -/
theorem given [Bare α] {p p' : Parse α} {g : α → β} {g' : α → β'}
    (hp : x.Approaches begun Matches M p p') (hg : ∀ a b, Matches a b → S (g a) (g' b))
    (hleaves : ∀ a, M.leaves a → N.leaves (g a)) (htakes : ∀ a, M.takes a → N.takes (g a)) :
    x.Approaches begun S N (p >>= fun a => Pure.pure (g a)) (p' >>= fun a => Pure.pure (g' a)) :=
  .matched hp (fun a b hab => .pure (hg a b hab) (hleaves a))
    (fun htaken _ h => by cases h; exact htakes _ htaken) fun b => .pure (g' b)

/-- What is left open in front of the end is closed by what has to follow it. -/
theorem closed {tier : Tier} (hp : Shadows x.opening tier R p p')
    (hf : ∀ a b, R a b → x.Approaches False S N (f a) (f' b)) (hstarves : ∀ a, Starves (f a)) :
    x.Approaches begun S N (p >>= f) (p' >>= f') where
  goes {s t} hst _ := by
    by_cases hend : s.token.kind = .endOfProgram
    · obtain ⟨hended, -⟩ := hst.atColon hend
      cases hread : (p >>= f) s with
      | error stop u => exact .stopped
      | ok b v =>
        obtain ⟨a, u, hpu, hfu⟩ := bind_ok hread
        exact absurd hfu ((hstarves a).empty (hp.stays hended hpu).ended)
    · have hgoes : x.opening.Goes tier R (p s) (p' t) := hp.goes ⟨hst, hend⟩
      show x.Arrives S N (EStateM.bind p f s) (EStateM.bind p' f' t)
      unfold EStateM.bind
      generalize p s = outcome at hgoes
      generalize p' t = outcome' at hgoes
      cases hgoes with
      | ok value close => exact (hf _ _ value).goes close.along fun hu => close.proper hu.kind
      | lost gone =>
        rename_i a u
        dsimp only
        cases hfu : f a u with
        | ok b v => exact absurd hfu ((hstarves a).empty gone.ended)
        | error stop v => exact .stopped
      | stopped => exact .stopped
  stays hs h := by
    obtain ⟨a, t, hpt, hft⟩ := bind_ok h
    exact absurd hft ((hstarves a).empty (hp.stays hs hpt).ended)

theorem ite {condition : Prop} {_ : Decidable condition} {y : Parse α} {y' : Parse α'}
    (hp : x.Approaches begun R M p p') (hy : x.Approaches begun R M y y') :
    x.Approaches begun R M (if condition then p else y) (if condition then p' else y') := by
  split
  · exact hp
  · exact hy

/-- Two conditions that say the same. -/
theorem ite_iff {c c' : Prop} {_ : Decidable c} {_ : Decidable c'} {y : Parse α} {y' : Parse α'}
    (hc : c ↔ c') (hp : x.Approaches begun R M p p') (hy : x.Approaches begun R M y y') :
    x.Approaches begun R M (if c then p else y) (if c' then p' else y') := by
  by_cases h : c
  · rw [if_pos h, if_pos (hc.mp h)]
    exact hp
  · rw [if_neg h, if_neg fun h' => h (hc.mpr h')]
    exact hy

/-- Nothing is asked of a second reading where the first one stops. -/
theorem stopping (hp : ∀ {s a t}, p s ≠ .ok a t) : x.Approaches begun R M p p' where
  goes {s t} _ _ := by
    cases hread : p s with
    | ok a u => exact absurd hread hp
    | error stop u => exact .stopped
  stays _ h := absurd h hp

theorem unexpected : x.Approaches begun R M Parse.unexpected p' := stopping nofun

theorem exhausted : x.Approaches begun R M Parse.exhausted p' := stopping nofun

/-- Nothing is read, though something may be noted. -/
theorem quiet {value : ParserState → α} {value' : ParserState → α'} {after after' : ParserState → ParserState}
    (hp : ∀ s, p s = .ok (value s) (after s)) (hp' : ∀ t, p' t = .ok (value' t) (after' t))
    (hR : ∀ {s t}, x.Along s t → R (value s) (value' t) ∧ x.Along (after s) (after' t))
    (hends : ∀ s, ((after s).Ended → s.Ended) ∧ (s.Ended → s.Rests (after s)))
    (total : ∀ a, ∃ b, R a b) (hf : ∀ a b, R a b → x.Approaches begun S N (f a) (f' b)) :
    x.Approaches begun S N (p >>= f) (p' >>= f') where
  goes {s t} hst hs := by
    obtain ⟨hvalue, hafter⟩ := hR hst
    show x.Arrives S N (EStateM.bind p f s) (EStateM.bind p' f' t)
    unfold EStateM.bind
    rw [hp, hp']
    exact (hf _ _ hvalue).goes hafter fun hend => hs ((hends s).1 hend)
  stays {s b t} hs h := by
    obtain ⟨a, u, hpu, hfu⟩ := bind_ok h
    rw [hp] at hpu
    cases hpu
    obtain ⟨b', hb⟩ := total (value s)
    have hrests := (hends s).2 hs
    exact hrests.trans ((hf _ b' hb).stays hrests.ended hfu)

/-- Nothing is read by looking at the state. -/
theorem look {value : ParserState → α} {value' : ParserState → α'} (hp : ∀ s, p s = .ok (value s) s)
    (hp' : ∀ t, p' t = .ok (value' t) t) (hR : ∀ {s t}, x.Along s t → R (value s) (value' t))
    (total : ∀ a, ∃ b, R a b) (hf : ∀ a b, R a b → x.Approaches begun S N (f a) (f' b)) :
    x.Approaches begun S N (p >>= f) (p' >>= f') :=
  .quiet hp hp' (fun hst => ⟨hR hst, hst⟩) (fun _ => ⟨id, ParserState.Ended.rests⟩) total hf

end Approaches

end Stem

namespace Parse

variable {x : Stem} {s t : ParserState} {α β β' : Type} {begun : Prop} {S : β → β' → Prop} {N : Manner β}

section Looking

theorem mark_approaches {f : Mark → Parse β} {f' : Mark → Parse β'}
    (hf : ∀ m m', x.Approaches begun S N (f m) (f' m')) :
    x.Approaches begun S N (mark >>= f) (mark >>= f') :=
  .look (R := fun _ _ => True) (fun _ => rfl) (fun _ => rfl) (fun _ => trivial) (fun m => ⟨m, trivial⟩)
    fun m m' _ => hf m m'

theorem finish_approaches (m m' : Mark) {f : Span → Parse β} {f' : Span → Parse β'}
    (hf : ∀ span span', x.Approaches begun S N (f span) (f' span')) :
    x.Approaches begun S N (finish m >>= f) (finish m' >>= f') :=
  .look (R := fun _ _ => True) (fun _ => rfl) (fun _ => rfl) (fun _ => trivial)
    (fun span => ⟨span, trivial⟩) fun span span' _ => hf span span'

theorem token_approaches {f : Token → Parse β} {f' : Token → Parse β'}
    (hgoes : ∀ {s t}, x.Along s t → (s.Ended → begun) → x.Arrives S N (f s.token s) (f' t.token t))
    (hstays : ∀ {s a t}, s.Ended → f s.token s = .ok a t → s.Rests t) :
    x.Approaches begun S N (token >>= f) (token >>= f') := ⟨hgoes, hstays⟩

/-- Something that covers all from a mark on. -/
theorem finished_approaches (m m' : Mark) {f : Span → β} {f' : Span → β'}
    (hf : ∀ span span', S (f span) (f' span')) (hleaves : begun → ∀ span, N.leaves (f span)) :
    x.Approaches begun S N (finish m >>= fun span => pure (f span))
      (finish m' >>= fun span => pure (f' span)) :=
  finish_approaches m m' fun span span' => .pure (hf span span') fun hbegun => hleaves hbegun span

theorem previous_approaches {f : Token → Parse β} {f' : Token → Parse β'}
    (hf : ∀ t u : Token, t.Like u → x.Approaches begun S N (f t) (f' u)) :
    x.Approaches begun S N (previous >>= f) (previous >>= f') :=
  .look (R := Token.Like) (fun _ => rfl) (fun _ => rfl) (fun hst => hst.sees.previous)
    (fun t => ⟨t, .refl t⟩) hf

/-- A problem is reported in both. -/
theorem syntaxError_approaches (id : ProblemId) (span span' : Span) {f : Unit → Parse β}
    {f' : Unit → Parse β'} (hf : x.Approaches begun S N (f ()) (f' ())) :
    x.Approaches begun S N (syntaxError id span >>= f) (syntaxError id span' >>= f') :=
  .quiet (R := Eq) (fun _ => rfl) (fun _ => rfl) (fun hst => ⟨rfl, hst.collect rfl⟩)
    (fun _ => ⟨fun hend => ⟨hend.kind, hend.rest, hend.notes⟩, fun hend => hend.collect _⟩)
    (fun _ => ⟨(), rfl⟩) fun _ _ _ => hf

/-- Readings that only note something about the functions around. -/
theorem noted_approaches {p : Parse α} (value : List FunctionUse → Bool → α)
    (functions : List FunctionUse → Bool → List FunctionUse)
    (superFound : List FunctionUse → Bool → Bool)
    (hp : ∀ s, p s = .ok (value s.functions s.superFound) { s with
      functions := functions s.functions s.superFound
      superFound := superFound s.functions s.superFound }) {f : α → Parse β} {f' : α → Parse β'}
    (hf : ∀ a, x.Approaches begun S N (f a) (f' a)) :
    x.Approaches begun S N (p >>= f) (p >>= f') :=
  .quiet (R := Eq) hp hp
    (fun hst => by
      rw [hst.sees.functions x.layered, hst.sees.superFound x.layered]
      exact ⟨rfl, hst.note _ _⟩)
    (fun _ => ⟨fun hend => ⟨hend.kind, hend.rest, hend.notes⟩, fun hend => hend.note _ _⟩)
    (fun a => ⟨a, rfl⟩) fun a _ hab => hab ▸ hf a

theorem noteUse_approaches (op : Operator) (span span' : Span) {f : Unit → Parse β}
    {f' : Unit → Parse β'} (hf : x.Approaches begun S N (f ()) (f' ())) :
    x.Approaches begun S N (Rules.noteUse op span >>= f) (Rules.noteUse op span' >>= f') := by
  let problem (id : ProblemId) (span : Span) : Problem :=
    { id, severity := .syntaxError, span, arguments := [] }
  let after (span : Span) (s : ParserState) : ParserState :=
    (Rules.useOutcome op s.functions).elim (fun id => s.collect (problem id span))
      fun functions => { s with functions }
  have hread : ∀ span s, Rules.noteUse op span s = .ok () (after span s) := by
    intro span s
    rw [Rules.noteUse_eq]
    simp only [after]
    cases Rules.useOutcome op s.functions <;> rfl
  refine .quiet (R := Eq) (hread span) (hread span') (fun {s t} hst => ⟨rfl, ?_⟩) (fun s => ?_)
    (fun _ => ⟨(), rfl⟩) fun _ _ _ => hf
  · simp only [after]
    rw [← hst.sees.functions x.layered]
    cases Rules.useOutcome op s.functions with
    | inl id => exact hst.collect rfl
    | inr functions =>
      have hnote := hst.note functions s.superFound
      rwa [show ({ t with functions, superFound := s.superFound } : ParserState) =
        { t with functions } by rw [hst.sees.superFound x.layered]] at hnote
  · simp only [after]
    cases Rules.useOutcome op s.functions with
    | inl id => exact ⟨fun hend => ⟨hend.kind, hend.rest, hend.notes⟩, fun hend => hend.collect _⟩
    | inr functions =>
      exact ⟨fun hend => ⟨hend.kind, hend.rest, hend.notes⟩, fun hend => hend.note functions s.superFound⟩

end Looking

section Consuming

variable {condition : Token → Bool}

theorem next_arrives {f : Unit → Parse β} {f' : Unit → Parse β'} (hst : x.Along s t)
    (hkind : s.token.kind = t.token.kind) (hf : x.Approaches True S N (f ()) (f' ())) :
    x.Arrives S N ((next >>= f) s) ((next >>= f') t) := by
  have hgoes := hst.next hkind
  show x.Arrives S N (EStateM.bind next f s) (EStateM.bind next f' t)
  unfold EStateM.bind
  generalize Parse.next s = p at hgoes
  generalize Parse.next t = q at hgoes
  cases hgoes with
  | ok value close => exact hf.goes close fun _ => trivial
  | lost gone =>
    rename_i a u
    dsimp only
    cases hfu : f a u with
    | ok b v => exact .gone (gone.rests (hf.stays gone.ended hfu))
    | error stop v => exact .stopped
  | stopped => exact .stopped

/-- The current token is taken if there is something it is for, which a colon is not. -/
theorem taking_approaches {γ : Type} (c c' : ParserState → Option γ) (f : γ → Parse β)
    (f' : γ → Parse β') {p y : Parse β} {p' y' : Parse β'}
    (hsome : ∀ {s a}, c s = some a → p s = (next >>= fun _ => f a) s)
    (hnone : ∀ {s}, c s = none → p s = y s)
    (hsome' : ∀ {t a}, c' t = some a → p' t = (next >>= fun _ => f' a) t)
    (hnone' : ∀ {t}, c' t = none → p' t = y' t)
    (proper : ∀ {s a}, c s = some a → s.token.kind ≠ .endOfProgram)
    (same : ∀ {s t}, x.Along s t → s.token.kind = t.token.kind → c s = c' t)
    (halts : ∀ {t}, t.token.kind = .colon → c' t = none)
    (hf : ∀ a s, c s = some a → x.Approaches True S N (f a) (f' a))
    (hy : x.Approaches begun S N y y') : x.Approaches begun S N p p' where
  goes {s t} hst hs := by
    have left : c s = none → c' t = none → x.Arrives S N (p s) (p' t) := by
      intro hc hc'
      rw [hnone hc, hnone' hc']
      exact hy.goes hst hs
    obtain heq | ⟨hend, hcolon, -⟩ := hst.same_or_over
    · cases hc : c s with
      | some a =>
        rw [hsome hc, hsome' (same hst heq ▸ hc)]
        exact next_arrives hst heq (hf a s hc)
      | none => exact left hc (same hst heq ▸ hc)
    · refine left ?_ (halts hcolon)
      rw [Option.eq_none_iff_forall_ne_some]
      exact fun a hc => proper hc hend.kind
  stays {s a t} hs h := by
    cases hc : c s with
    | some b => exact absurd hs.kind (proper hc)
    | none =>
      rw [hnone hc] at h
      exact hy.stays hs h

theorem takingIf_approaches {c c' : ParserState → Bool} {f : Unit → Parse β} {f' : Unit → Parse β'}
    {p y : Parse β} {p' y' : Parse β'} (hp : ∀ s, p s = (if c s then next >>= f else y) s)
    (hp' : ∀ t, p' t = (if c' t then next >>= f' else y') t)
    (proper : ∀ {s}, c s = true → s.token.kind ≠ .endOfProgram)
    (same : ∀ {s t}, x.Along s t → s.token.kind = t.token.kind → c s = c' t)
    (halts : ∀ {t}, t.token.kind = .colon → c' t = false)
    (hf : x.Approaches True S N (f ()) (f' ())) (hy : x.Approaches begun S N y y') :
    x.Approaches begun S N p p' := by
  have some_iff : ∀ {b : Bool} {a : Unit}, (if b then some () else none) = some a → b = true := by
    rintro (_ | _) a h
    · cases h
    · rfl
  have none_iff : ∀ {b : Bool}, (if b then some () else none) = none → b = false := by
    rintro (_ | _) h
    · rfl
    · cases h
  refine taking_approaches (fun s => if c s then some () else none)
    (fun t => if c' t then some () else none) (fun _ => f ()) (fun _ => f' ()) (fun hc => ?_)
    (fun hc => ?_) (fun hc => ?_) (fun hc => ?_) (fun hc => proper (some_iff hc))
    (fun hst heq => by rw [same hst heq]) (fun hcolon => by rw [halts hcolon]; rfl) (fun _ _ _ => hf) hy
  · rw [hp, some_iff hc]
    rfl
  · rw [hp, none_iff hc]
    rfl
  · rw [hp', some_iff hc]
    rfl
  · rw [hp', none_iff hc]
    rfl

theorem consumeIf_bind (f : Bool → Parse β) (s : ParserState) : (consumeIf condition >>= f) s =
    (if condition s.token then next >>= fun _ => f true else f false) s := by
  cases hc : condition s.token with
  | true =>
    have htrue : (consumeIf condition >>= f) s = ((next >>= fun _ => pure true) >>= f) s := by
      show EStateM.bind _ f s = EStateM.bind _ f s
      unfold EStateM.bind
      rw [consumeIf_true hc]
    rw [htrue, bind_assoc]
    rfl
  | false => exact bind_of_ok (consumeIf_false hc) f

/-- What depends on whether the current token meets a condition, which a colon does not. -/
theorem consumeIf_approaches (ha : Token.Asks condition)
    (hcolon : ∀ t : Token, t.kind = .colon → condition t = false) {f : Bool → Parse β}
    {f' : Bool → Parse β'} (htrue : x.Approaches True S N (f true) (f' true))
    (hfalse : x.Approaches begun S N (f false) (f' false)) :
    x.Approaches begun S N (consumeIf condition >>= f) (consumeIf condition >>= f') := by
  exact takingIf_approaches (c := fun s => condition s.token) (consumeIf_bind f) (consumeIf_bind f')
    (fun hc => ha.proper _ hc) (fun hst heq => ha.same hst.sees.token.like heq)
    (fun hk => hcolon _ hk) htrue hfalse

theorem consume_approaches {k : TokenKind} (hk : k ≠ .endOfProgram) (hcolon : k ≠ .colon)
    {f : Bool → Parse β} {f' : Bool → Parse β'} (htrue : x.Approaches True S N (f true) (f' true))
    (hfalse : x.Approaches begun S N (f false) (f' false)) :
    x.Approaches begun S N (consume k >>= f) (consume k >>= f') :=
  consumeIf_approaches (Token.asks_kind hk)
    (fun t ht => by rw [ht, beq_eq_false_iff_ne]; exact hcolon.symm) htrue hfalse

theorem consumeOperator_approaches (op : Operator) {f : Bool → Parse β} {f' : Bool → Parse β'}
    (htrue : x.Approaches True S N (f true) (f' true))
    (hfalse : x.Approaches begun S N (f false) (f' false)) :
    x.Approaches begun S N (consumeOperator op >>= f) (consumeOperator op >>= f') :=
  consumeIf_approaches (Token.asks_operator op) (fun t ht => by simp [Token.isOperator, ht]) htrue hfalse

theorem consumeKeyword_approaches (word : String) {f : Bool → Parse β} {f' : Bool → Parse β'}
    (htrue : x.Approaches True S N (f true) (f' true))
    (hfalse : x.Approaches begun S N (f false) (f' false)) :
    x.Approaches begun S N (consumeKeyword word >>= f) (consumeKeyword word >>= f') :=
  consumeIf_approaches (Token.asks_keyword word) (fun t ht => by simp [Token.isKeyword, ht]) htrue hfalse

/-- A colon is taken, though at the end of the piece there is none by itself. -/
theorem consume_colon_approaches {f : Bool → Parse β} {f' : Bool → Parse β'}
    (htrue : x.Approaches True S N (f true) (f' true))
    (hfalse : x.Approaches False S N (f false) (f' false))
    (htakes : ∀ {s a t}, s.Ended → f false s = .ok a t → N.takes a) (honward : Onward (f' true)) :
    x.Approaches begun S N (consume .colon >>= f) (consume .colon >>= f') where
  goes {s t} hst hs := by
    by_cases hproper : s.token.kind = .endOfProgram
    · obtain ⟨hend, hcolon, hrest⟩ := hst.atColon hproper
      rw [bind_of_ok (consume_no (by simp [hproper]))]
      cases hread : f false s with
      | error stop u => exact .stopped
      | ok a u =>
        refine .taken (hfalse.stays hend hread).ended (htakes hend hread) fun hnone b v h => ?_
        obtain ⟨found, w, hfound, hw⟩ := bind_ok h
        rcases consume_inv hfound with ⟨rfl, -, hnext⟩ | ⟨-, hne, -⟩
        · exact honward w (.next (hrest ▸ hnone) hnext) b v hw
        · exact absurd hcolon hne
    · have heq := hst.same hproper
      by_cases hcolon : s.token.kind = .colon
      · rw [consume, consumeIf_bind, consumeIf_bind, if_pos (by simpa using hcolon),
          if_pos (by simpa [← heq] using hcolon)]
        exact next_arrives hst heq htrue
      · rw [bind_of_ok (consume_no hcolon), bind_of_ok (consume_no (heq ▸ hcolon))]
        exact hfalse.goes hst fun hend => hproper hend.kind
  stays {s a t} hs h := by
    obtain ⟨b, u, hb, hu⟩ := bind_ok h
    obtain ⟨rfl, rfl⟩ := consumeIf_stays (Setting.proper_kind (by decide)) hs hb
    exact hfalse.stays hs hu

/-- What has to stand in the piece stands in the whole. -/
theorem expectIf_approaches (ha : Token.Asks condition) {f : Unit → Parse β} {f' : Unit → Parse β'}
    (hf : x.Approaches True S N (f ()) (f' ())) :
    x.Approaches begun S N (expectIf condition >>= f) (expectIf condition >>= f') where
  goes {s t} hst _ := by
    unfold expectIf
    rw [bind_assoc, bind_assoc, consumeIf_bind, consumeIf_bind]
    cases hs : condition s.token with
    | true =>
      have hkind := hst.same (ha.proper _ hs)
      rw [← ha.same hst.sees.token.like hkind, hs]
      exact next_arrives hst hkind hf
    | false => exact .stopped
  stays hs h := by
    obtain ⟨_, u, hu, -⟩ := bind_ok h
    exact absurd hu ((expectIf_starves ha.proper).empty hs)

theorem expect_approaches {k : TokenKind} (hk : k ≠ .endOfProgram) {f : Unit → Parse β}
    {f' : Unit → Parse β'} (hf : x.Approaches True S N (f ()) (f' ())) :
    x.Approaches begun S N (expect k >>= f) (expect k >>= f') :=
  expectIf_approaches (Token.asks_kind hk) hf

theorem expectOperator_approaches (op : Operator) {f : Unit → Parse β} {f' : Unit → Parse β'}
    (hf : x.Approaches True S N (f ()) (f' ())) :
    x.Approaches begun S N (expectOperator op >>= f) (expectOperator op >>= f') :=
  expectIf_approaches (Token.asks_operator op) hf

theorem expectKeyword_approaches (word : String) {f : Unit → Parse β} {f' : Unit → Parse β'}
    (hf : x.Approaches True S N (f ()) (f' ())) :
    x.Approaches begun S N (expectKeyword word >>= f) (expectKeyword word >>= f') :=
  expectIf_approaches (Token.asks_keyword word) hf

theorem expectContextKeyword_approaches (word : String) {f : Unit → Parse β} {f' : Unit → Parse β'}
    (hf : x.Approaches True S N (f ()) (f' ())) :
    x.Approaches begun S N (expectContextKeyword word >>= f) (expectContextKeyword word >>= f') :=
  expectIf_approaches (Token.asks_contextKeyword word) hf

theorem wordIdentifier_approaches :
    x.Approaches begun Matches .leaving wordIdentifier wordIdentifier := by
  refine mark_approaches fun m m' => expectIf_approaches Token.asks_word ?_
  refine finish_approaches m m' fun span span' => previous_approaches fun t u htu => ?_
  exact .pure (by simp [htu.text]) fun _ => trivial

theorem expectGreater_approaches {f : Unit → Parse β} {f' : Unit → Parse β'}
    (hf : x.Approaches True S N (f ()) (f' ())) :
    x.Approaches begun S N (expectGreater >>= f) (expectGreater >>= f') := by
  unfold expectGreater
  simp only [bind_assoc]
  refine consumeOperator_approaches .greater hf ?_
  simp only [Bool.false_eq_true, if_false]
  refine ⟨fun {s t} hst _ => ?_, fun {s a t} hs h => ?_⟩
  · rw [bind_assoc, bind_assoc, token_bind, token_bind]
    cases hs : afterGreater? s.token with
    | none => exact .stopped
    | some after =>
      obtain ⟨kind, operator⟩ := after
      have hkind := hst.same (afterGreater?_proper hs)
      rw [← hst.sees.token.like.afterGreater? hkind, hs]
      exact hf.goes (hst.split hs) fun _ => trivial
  · rw [bind_assoc, token_bind] at h
    cases hafter : afterGreater? s.token with
    | none =>
      rw [hafter] at h
      cases h
    | some after => exact absurd hs.kind (afterGreater?_proper hafter)

/-- What is asked of the current token, the answer being no for a colon. -/
theorem asked_approaches {ask : Parse Bool} (hask : ∀ s, ask s = .ok (condition s.token) s)
    (ha : Token.Asks condition) (hcolon : ∀ t : Token, t.kind = .colon → condition t = false)
    {f : Bool → Parse β} {f' : Bool → Parse β'} (htrue : x.Approaches False S N (f true) (f' true))
    (hfalse : x.Approaches begun S N (f false) (f' false)) :
    x.Approaches begun S N (ask >>= f) (ask >>= f') := by
  have hended : ∀ {s : ParserState}, s.Ended → condition s.token = false := fun hs =>
    Bool.eq_false_iff.mpr fun htrue => ha.proper _ htrue hs.kind
  refine ⟨fun {s t} hst hs => ?_, fun {s a t} hs h => ?_⟩
  · rw [bind_of_ok (hask s), bind_of_ok (hask t)]
    obtain heq | ⟨hend, hover, -⟩ := hst.same_or_over
    · rw [← ha.same hst.sees.token.like heq]
      cases hc : condition s.token with
      | true => exact htrue.goes hst fun hend => ha.proper _ hc hend.kind
      | false => exact hfalse.goes hst hs
    · rw [hended hend, hcolon _ hover]
      exact hfalse.goes hst hs
  · rw [bind_of_ok (hask s), hended hs] at h
    exact hfalse.stays hs h

theorem at?_approaches {k : TokenKind} (hk : k ≠ .endOfProgram) (hcolon : k ≠ .colon)
    {f : Bool → Parse β} {f' : Bool → Parse β'} (htrue : x.Approaches False S N (f true) (f' true))
    (hfalse : x.Approaches begun S N (f false) (f' false)) :
    x.Approaches begun S N (at? k >>= f) (at? k >>= f') :=
  asked_approaches (fun _ => rfl) (Token.asks_kind hk)
    (fun t ht => by rw [ht, beq_eq_false_iff_ne]; exact hcolon.symm) htrue hfalse

theorem atOperator?_approaches (op : Operator) {f : Bool → Parse β} {f' : Bool → Parse β'}
    (htrue : x.Approaches False S N (f true) (f' true)) (hfalse : x.Approaches begun S N (f false) (f' false)) :
    x.Approaches begun S N (atOperator? op >>= f) (atOperator? op >>= f') :=
  asked_approaches (fun _ => rfl) (Token.asks_operator op) (fun t ht => by simp [Token.isOperator, ht]) htrue
    hfalse

/-- A token that is taken as it is found. -/
theorem at?_next_approaches {k : TokenKind} (hk : k ≠ .endOfProgram) (hcolon : k ≠ .colon) {b b' : Bool}
    (hb : b = b') {f : Unit → Parse β} {f' : Unit → Parse β'} {y : Parse β} {y' : Parse β'}
    (hf : x.Approaches True S N (f ()) (f' ())) (hy : x.Approaches begun S N y y') :
    x.Approaches begun S N (at? k >>= fun found => if b && found then next >>= f else y)
      (at? k >>= fun found => if b' && found then next >>= f' else y') := by
  subst hb
  let found (s : ParserState) : Bool := b && s.token.kind == k
  have hsame : ∀ {s t}, x.Along s t → s.token.kind = t.token.kind → found s = found t :=
    fun _ heq => by simp only [found, heq]
  refine takingIf_approaches (c := found) (fun _ => rfl) (fun _ => rfl) (fun {s} hc => ?_) hsame
    (fun {t} hover => ?_) hf hy
  · simp only [found, Bool.and_eq_true, beq_iff_eq] at hc
    rw [hc.2]
    exact hk
  · simp [hover, hcolon.symm]

end Consuming

section Surroundings

variable [Bare β] {body body' : Parse β}

theorem inFunction_approaches (hbody : x.Approaches begun Matches N body body') :
    x.Approaches begun Matches (N.comap Prod.fst) (inFunction body) (inFunction body') := by
  refine noted_approaches (p := pushFunction) (fun _ _ => ()) (fun functions _ => {} :: functions)
    (fun _ found => found) (fun _ => rfl) fun _ => ?_
  refine .matched hbody (fun value value' hvalue => ?_) ?_ fun value => .bind .popFunction fun use => .pure _
  · refine noted_approaches (p := popFunction) (fun functions _ => functions.head?.getD {})
      (fun functions _ => functions.tail) (fun _ found => found) (fun _ => rfl) fun use => ?_
    exact .pure (by simp_all) id
  · intro a s b t htakes _ h
    cases h
    exact htakes

/-- How the block around stands to the super constructor is restored behind the reading. -/
theorem freshSuper_approaches (hbody : x.Approaches begun Matches N body body') :
    x.Approaches begun Matches N (freshSuper body) (freshSuper body') where
  goes {s t} hst hs := by
    have hin : x.Along { s with superFound := false } { t with superFound := false } := by
      have := hst.note s.functions false
      rwa [show ({ t with functions := s.functions, superFound := false } : ParserState) =
        { t with superFound := false } by rw [hst.sees.functions x.layered]] at this
    have hgoes : x.Arrives Matches N (body { s with superFound := false })
      (body' { t with superFound := false }) :=
        hbody.goes hin fun hend => hs ⟨hend.kind, hend.rest, hend.notes⟩
    unfold freshSuper
    generalize body { s with superFound := false } = p at hgoes
    generalize body' { t with superFound := false } = q at hgoes
    cases hgoes with
    | abreast value close leaves =>
      rename_i a b u v
      refine .abreast value ?_ fun hend => leaves ⟨hend.kind, hend.rest, hend.notes⟩
      have := close.note u.functions s.superFound
      rwa [show ({ v with functions := u.functions, superFound := s.superFound } : ParserState) =
        { v with superFound := t.superFound } by
          rw [close.sees.functions x.layered, hst.sees.superFound x.layered]] at this
    | taken ended takes loses =>
      refine .taken ⟨ended.kind, ended.rest, ended.notes⟩ takes fun hrest b v h => ?_
      cases q with
      | error stop w => cases h
      | ok b' w =>
        cases h
        have hlost := loses hrest b w rfl
        exact ⟨hlost.token, hlost.rest⟩
    | gone gone => exact .gone (gone.rests (gone.ended.note _ _))
    | stopped => exact .stopped
  stays {s a t} hs h := by
    unfold freshSuper at h
    cases hb : body { s with superFound := false } with
    | ok b u =>
      rw [hb] at h
      cases h
      have hin := hs.note s.functions false
      have hout := hbody.stays hin.ended hb
      exact hin.trans (hout.trans (hout.ended.note _ _))
    | error stop u =>
      rw [hb] at h
      cases h

end Surroundings

section Lists

variable [Bare α] {M : Manner α} {item item' : Parse α}

/-- The last item is at the end. -/
theorem separated_approaches (hitem : x.Approaches True Matches M item item') (honward : Onward item') :
    ∀ {fuel fuel' : Nat}, fuel ≤ fuel' →
      x.Approaches True Matches M.last (separated item fuel) (separated item' fuel')
  | 0, _, _ => .exhausted
  | fuel + 1, fuel' + 1, hle => by
    refine .matched hitem (fun first first' hfirst => ?_) ?_ fun first => ?_
    · refine consume_approaches (by decide) (by decide) ?_ (.pure (by simp_all) fun hleaves => ?_)
      · refine .given (separated_approaches hitem honward (Nat.le_of_succ_le_succ hle))
          (fun rest rest' hrest => by simp_all) ?_ ?_
        all_goals
          rintro rest ⟨last, hlast, hmanner⟩
          exact ⟨last, by simp [List.getLast?_cons, hlast], hmanner⟩
      · exact ⟨first, rfl, hleaves⟩
    · intro a s b t htakes hs h
      rw [bind_of_ok (consume_no (by simp [hs.kind]))] at h
      cases h
      exact ⟨a, rfl, htakes⟩
    · refine .bind (.consume (by decide)) fun more => .ite ?_ (.pure _)
      exact .bind (.separated honward fuel') fun rest => .pure _

end Lists

end Parse

end ActionSyntax
