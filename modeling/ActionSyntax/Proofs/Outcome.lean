import ActionSyntax.Proofs.Reach

/-!
How a reading may end. It leads to its last state by steps of the parser; when it stops, the problem
it stopped at has been recorded; and it uses up its depth only with an excuse. What it takes from the
text is counted in so far as to tell whether it has taken anything.
-/

namespace ActionSyntax

set_option autoImplicit false

/-- What a reading relies on. -/
structure Setting where
  readFile : String → Option String
  /-- What has to hold for a reading to use up its depth. -/
  excuse : Prop

/-- The script of a file. One that cannot be read counts as empty. -/
def Setting.file (S : Setting) (path : String) : Script :=
  Script.ofSource path ((S.readFile path).getD "")

/-- A setting in which the depth may be used up at any time. -/
def Setting.lenient (readFile : String → Option String) : Setting where
  readFile
  excuse := True

/-- A stop that is accounted for. -/
def Setting.Recorded (S : Setting) : Stop → ParserState → Prop
  | .problem p, t => t.Has p
  | .exhausted, _ => S.excuse

namespace Setting

variable (S : Setting)

/-- Less than `n` tokens may still come. -/
def Ready (n : Nat) (s : ParserState) : Prop := S.excuse ∨ s.left < n

/-- Steps of the parser lead to the second state, and if `moved`, they have taken something. -/
structure After (moved : Bool) (s t : ParserState) : Prop where
  reaches : Reaches none s t
  left : t.left + moved.toNat ≤ s.left

/-- The outcome of a reading from `s`, whose values tell whether anything has been taken. -/
def Ends {α : Type} (moved : α → Bool) (s : ParserState) :
    EStateM.Result Stop ParserState α → Prop
  | .ok a t => After (moved a) s t
  | .error stop t => Reaches (some stop) s t ∧ S.Recorded stop t

/-- The outcome of reading a script in place. Only when the depth is used up does it stop what is
around; otherwise a stop is noted in the script that is handed over. -/
def Splices (s : ParserState) (script : Script) :
    EStateM.Result Stop ParserState (Script × List Statement) → Prop
  | .ok (child, _) t => ∃ stop u, Reaches stop (s.inside script) u ∧
      stop ≠ some .exhausted ∧ child = u.script ∧ t = s.outside u
  | .error stop t => stop = .exhausted ∧ Reaches (some .exhausted) s t ∧ S.excuse

end Setting

abbrev never {α : Type} (_ : α) : Bool := false

abbrev always {α : Type} (_ : α) : Bool := true

namespace Setting

variable {S : Setting} {s t u : ParserState} {n : Nat}

namespace Ready

theorem mono {m : Nat} (hs : S.Ready n s) (h : n ≤ m) : S.Ready m s :=
  hs.imp_right fun hl => Nat.lt_of_lt_of_le hl h

theorem succ (hs : S.Ready n s) : S.Ready (n + 1) s := hs.mono (Nat.le_succ n)

theorem after {moved : Bool} (hs : S.Ready n s) (h : After moved s t) : S.Ready n t :=
  hs.imp_right fun hl => by have := h.left; omega

theorem moved (hs : S.Ready n s) (h : After true s t) : S.Ready (n - 1) t :=
  hs.imp_right fun hl => by have := h.left; simp at this; omega

end Ready

namespace After

theorem refl (s : ParserState) : After false s s := ⟨.refl s, by simp⟩

theorem trans {a b : Bool} (hst : After a s t) (htu : After b t u) : After (a || b) s u where
  reaches := hst.reaches.trans htu.reaches
  left := by
    have hst := hst.left
    have htu := htu.left
    cases a <;> cases b <;> simp_all <;> omega

theorem weaken {a b : Bool} (h : After a s t) (hb : b = true → a = true) : After b s t where
  reaches := h.reaches
  left := by
    have := h.left
    cases a <;> cases b <;> simp_all
    omega

end After

namespace Ends

variable {α β : Type} {x : Parse α} {f : α → Parse β} {c : α → Bool} {d : β → Bool}

theorem weaken {e : α → Bool} {r : EStateM.Result Stop ParserState α} (h : S.Ends c s r)
    (he : ∀ a, e a = true → c a = true) : S.Ends e s r := by
  cases r with
  | ok a t => exact After.weaken h (he a)
  | error stop t => exact h

theorem never_of {r : EStateM.Result Stop ParserState α} (h : S.Ends c s r) : S.Ends never s r :=
  h.weaken nofun

theorem pure (a : α) (s : ParserState) : S.Ends never s ((Pure.pure a : Parse α) s) := .refl s

/-- What the first reading has taken need not be taken by the second. -/
theorem bind_after (hx : S.Ends c s (x s))
    (hf : ∀ a t, x s = .ok a t → After (c a) s t → S.Ends (fun b => d b && !c a) t (f a t)) :
    S.Ends d s ((x >>= f) s) := by
  show S.Ends d s (EStateM.bind x f s)
  unfold EStateM.bind
  cases hxs : x s with
  | error stop t =>
    rw [hxs] at hx
    exact hx
  | ok a t =>
    rw [hxs] at hx
    have h := hf a t hxs hx
    dsimp only
    cases hft : f a t with
    | error stop u =>
      rw [hft] at h
      exact ⟨hx.reaches.trans h.1, h.2⟩
    | ok b u =>
      rw [hft] at h
      exact (After.trans hx h).weaken fun hd => by cases c a <;> simp [hd]

theorem map {g : α → β} (hx : S.Ends c s (x s)) (hd : ∀ a, d (g a) = true → c a = true) :
    S.Ends d s ((g <$> x) s) := by
  show S.Ends d s (EStateM.map g x s)
  unfold EStateM.map
  cases hxs : x s with
  | error stop t =>
    rw [hxs] at hx
    exact hx
  | ok a t =>
    rw [hxs] at hx
    exact After.weaken hx (hd a)

end Ends

section Reads

variable (S)
variable {α β : Type}

/-- The reading ends well from every state that is ready. -/
def Reads (n : Nat) (moved : α → Bool) (x : Parse α) : Prop :=
  ∀ s, S.Ready n s → S.Ends moved s (x s)

/-- The reading begins by taking the current token, if there is one. -/
structure Begins (n : Nat) (x : Parse α) : Prop where
  taken : ∀ s, s.token.kind ≠ .endOfProgram → S.Ready (n + 1) s → S.Ends always s (x s)
  reads : S.Reads n never x

end Reads

namespace Reads

variable {α β : Type} {x : Parse α} {f : α → Parse β} {c : α → Bool} {d : β → Bool} {m : Nat}

theorem mono (hx : S.Reads n c x) (h : m ≤ n) : S.Reads m c x := fun s hs => hx s (hs.mono h)

theorem pure (a : α) : S.Reads n never (Pure.pure a : Parse α) := fun s _ => .pure a s

theorem pure_none : S.Reads n Option.isSome (Pure.pure none : Parse (Option α)) :=
  fun s _ => .refl s

theorem never_of (hx : S.Reads n c x) : S.Reads n never x := fun s hs => (hx s hs).never_of

/-- Nothing has to be taken. -/
theorem seq (hx : S.Reads n c x) (hf : ∀ a, S.Reads n never (f a)) : S.Reads n never (x >>= f) :=
  fun s hs => Ends.bind_after (hx s hs) fun a t _ ht => (hf a t (hs.after ht)).weaken nofun

/-- The first reading takes something, and nothing more has to be taken. -/
theorem paid (hx : S.Reads n always x) (hf : ∀ a, S.Reads n never (f a)) :
    S.Reads n d (x >>= f) := fun s hs =>
  Ends.bind_after (hx s hs) fun a t _ ht => (hf a t (hs.after ht)).weaken fun _ hb => by simp_all

theorem moved (hx : S.Reads n always x) (hf : ∀ a, S.Reads (n - 1) never (f a)) :
    S.Reads n d (x >>= f) := fun s hs =>
  Ends.bind_after (hx s hs) fun a t _ ht => (hf a t (hs.moved ht)).weaken fun _ hb => by simp_all

/-- The first reading takes nothing that counts. -/
theorem look (hx : S.Reads n c x) (hf : ∀ a, S.Reads n d (f a)) : S.Reads n d (x >>= f) :=
  fun s hs => Ends.bind_after (hx s hs) fun a t _ ht =>
    (hf a t (hs.after ht)).weaken fun _ hb => by simp_all

theorem bool {x : Parse Bool} {f : Bool → Parse β} (hx : S.Reads n id x)
    (htrue : S.Reads (n - 1) never (f true)) (hfalse : S.Reads n d (f false)) :
    S.Reads n d (x >>= f) := by
  intro s hs
  refine Ends.bind_after (hx s hs) ?_
  rintro (_ | _) t - ht
  · exact (hfalse t (hs.after ht)).weaken fun _ hb => by simp_all
  · exact (htrue t (hs.moved ht)).weaken fun _ hb => by simp_all

theorem option {x : Parse (Option α)} {f : Option α → Parse β} (hx : S.Reads n Option.isSome x)
    (hsome : ∀ a, S.Reads (n - 1) never (f (some a))) (hnone : S.Reads n d (f none)) :
    S.Reads n d (x >>= f) := by
  intro s hs
  refine Ends.bind_after (hx s hs) ?_
  rintro (_ | a) t - ht
  · exact (hnone t (hs.after ht)).weaken fun _ hb => by simp_all
  · exact (hsome a t (hs.moved ht)).weaken fun _ hb => by simp_all

theorem ite {condition : Prop} {_ : Decidable condition} {y : Parse α} (hx : S.Reads n c x)
    (hy : S.Reads n c y) : S.Reads n c (if condition then x else y) := by
  split
  · exact hx
  · exact hy

/-- One of two readings, whose value is taken on in the same way. -/
theorem branch {condition : Prop} {_ : Decidable condition} {y : Parse α} (hx : S.Reads n never x)
    (hy : S.Reads n never y) (hf : ∀ a, S.Reads n d (f a)) :
    S.Reads n d (if condition then x >>= f else y >>= f) := by
  split
  · exact .look hx hf
  · exact .look hy hf

/-- A reading that is left out unless a condition holds. -/
theorem optional {condition : Prop} {_ : Decidable condition} {x : Parse Unit} {f : Unit → Parse β}
    (hx : S.Reads n never x) (hf : ∀ a, S.Reads n d (f a)) :
    S.Reads n d (if condition then x >>= f else f ()) := by
  split
  · exact .look hx hf
  · exact hf ()

theorem foldlM {step : β → α → Parse β} (hstep : ∀ b a, S.Reads n never (step b a)) :
    ∀ (items : List α) (start : β), S.Reads n never (items.foldlM step start)
  | [], start => .pure start
  | a :: items, start => .seq (hstep start a) fun next => foldlM hstep items next

theorem forM {step : α → Parse Unit} (hstep : ∀ a, S.Reads n never (step a)) :
    ∀ items : List α, S.Reads n never (items.forM step)
  | [] => .pure ()
  | a :: items => .seq (hstep a) fun _ => forM hstep items

theorem map {g : α → β} (hx : S.Reads n c x) (hd : ∀ a, d (g a) = true → c a = true) :
    S.Reads n d (g <$> x) := fun s hs => (hx s hs).map hd

end Reads

namespace Begins

variable {α β : Type} {x : Parse α}

theorem seq {f : α → Parse β} (hx : S.Begins n x) (hf : ∀ a, S.Reads n never (f a)) :
    S.Begins n (x >>= f) where
  taken s hk hs := Ends.bind_after (hx.taken s hk hs) fun a t _ ht =>
    (hf a t (hs.moved ht)).weaken fun _ hb => by simp_all
  reads := .seq hx.reads hf

end Begins

end Setting

end ActionSyntax
