import ActionSyntax.Proofs.Literals.CodePoints
import ActionSyntax.Proofs.ScanAmid

/-!
The parts of a number: runs of digits, the point and what stands behind it, the exponent. Each part goes as
far as it can, and its reading stops with a failure just where it has begun something that is not carried
through. Parts in sequence do likewise, since no part holds a character that the next one begins with.
-/

namespace ActionSyntax.Scan

set_option autoImplicit false

open Cursor

/-- The text is the longest of its kind at the beginning of `rest`. -/
structure Longest (good : List Char → Prop) (text rest : List Char) : Prop where
  fits : good text
  begins : text <+: rest
  most : ∀ other, good other → other <+: rest → other <+: text

/-- Here the reading passes the longest text that is good, or it fails since something bad begins. -/
def ExactAt (good bad : List Char → Prop) (c : Cursor) (read : Except Failure Cursor) : Prop :=
  (∃ text d, Longest good text c.rest ∧ c.Passes text [] d ∧ ¬ bad c.rest ∧ read = .ok d) ∨
    (bad c.rest ∧ ∃ failure, read = .error failure)

def Exact (good bad : List Char → Prop) (read : Cursor → Except Failure Cursor) : Prop :=
  ∀ c, ExactAt good bad c (read c)

/-- A text of the first kind with one of the second kind behind it. -/
def Behind (first second : List Char → Prop) (text : List Char) : Prop :=
  ∃ before after, first before ∧ second after ∧ text = before ++ after

/-- A character of the class with a text of the kind behind it. -/
def Led (p : Char → Bool) (second : List Char → Prop) (text : List Char) : Prop :=
  ∃ ch after, p ch = true ∧ second after ∧ text = ch :: after

/-- Whether the text begins with a character of the class. -/
def Begins (p : Char → Bool) (text : List Char) : Prop := text.head?.any p = true

section Exact

variable {first second bad more good : List Char → Prop} {p : Char → Bool}
  {f g : Cursor → Except Failure Cursor} {text rest before after : List Char} {ch : Char}

theorem nextIs_iff {c : Cursor} : nextIs p c = true ↔ Begins p c.rest := Iff.rfl

@[simp] theorem begins_cons : Begins p (ch :: text) ↔ p ch = true := Iff.rfl

@[simp] theorem not_begins_nil : ¬ Begins p [] := Bool.false_ne_true

theorem Begins.cons (h : Begins p text) : ∃ ch after, text = ch :: after ∧ p ch = true := by
  cases text with
  | nil => exact absurd h not_begins_nil
  | cons ch after => exact ⟨ch, after, rfl, h⟩

theorem Led.begins (h : Led p second text) : Begins p text := by
  obtain ⟨ch, after, hch, -, rfl⟩ := h
  exact hch

@[simp] theorem led_cons : Led p second (ch :: text) ↔ p ch = true ∧ second text := by
  constructor
  · rintro ⟨_, _, hch, hafter, heq⟩
    cases heq
    exact ⟨hch, hafter⟩
  · exact fun h => ⟨ch, text, h.1, h.2, rfl⟩

/-- A text that ends before a character that the longest one does not hold is the longest one. -/
theorem Longest.eq_of_parted (h : Longest first text rest) (hbefore : first before)
    (hrest : before ++ ch :: after = rest) (hch : ch ∉ text) : before = text := by
  obtain ⟨tail, htail⟩ := h.most before hbefore ⟨_, hrest⟩
  obtain ⟨further, hfurther⟩ := h.begins
  cases tail with
  | nil => rw [← htail, List.append_nil]
  | cons next tail =>
    rw [← hrest, ← htail, List.append_assoc] at hfurther
    cases List.append_cancel_left hfurther
    rw [← htail] at hch
    exact absurd (List.mem_append_right _ List.mem_cons_self) hch

/-- In sequence the longest texts make the longest one, if what begins the second is not in the first. -/
theorem Longest.append (hwithin : ∀ text, first text → ∀ ch ∈ text, p ch = false)
    (hbegins : ∀ text, second text → text = [] ∨ Begins p text) (h : Longest first before rest)
    (hrest : rest = before ++ after) (h' : Longest second text after) :
    Longest (Behind first second) (before ++ text) rest where
  fits := ⟨before, text, h.fits, h'.fits, rfl⟩
  begins := hrest ▸ (List.prefix_append_right_inj before).mpr h'.begins
  most := by
    rintro _ ⟨other, others, hother, hothers, rfl⟩ ⟨further, hfurther⟩
    cases others with
    | nil =>
      rw [List.append_nil] at hfurther ⊢
      exact (h.most other hother ⟨further, hfurther⟩).trans (List.prefix_append _ _)
    | cons ch others =>
      have hp : p ch = true := (hbegins _ hothers).resolve_left (List.cons_ne_nil _ _)
      have hch : ch ∉ before := fun hmem => by simp [hwithin _ h.fits ch hmem] at hp
      rw [List.append_assoc] at hfurther
      obtain rfl := h.eq_of_parted hother hfurther hch
      rw [hrest] at hfurther
      exact (List.prefix_append_right_inj other).mpr
        (h'.most _ hothers ⟨further, List.append_cancel_left hfurther⟩)

theorem Exact.append (hf : Exact first bad f) (hg : Exact second more g)
    (hwithin : ∀ text, first text → ∀ ch ∈ text, p ch = false)
    (hbegins : ∀ text, second text → text = [] ∨ Begins p text)
    (hmore : ∀ text, more text → Begins p text) :
    Exact (Behind first second) (fun rest => bad rest ∨ Behind first more rest)
      (fun c => f c >>= g) := by
  intro c
  dsimp only
  rcases hf c with ⟨text, d, hlongest, hpasses, hgood, hread⟩ | ⟨hbad, failure, hread⟩
  · rw [hread]
    rcases hg d with ⟨text', e, hlongest', hpasses', hgood', hread'⟩ | ⟨hbad', failure, hread'⟩
    · left
      refine ⟨text ++ text', e, hlongest.append hwithin hbegins hpasses.rest hlongest',
        hpasses.trans hpasses', ?_, hread'⟩
      rintro (hbad | ⟨before, after, hbefore, hafter, hrest⟩)
      · exact hgood hbad
      · obtain ⟨ch, after, rfl, hp⟩ := (hmore after hafter).cons
        have hch : ch ∉ text := fun hmem => by simp [hwithin _ hlongest.fits ch hmem] at hp
        obtain rfl := hlongest.eq_of_parted hbefore hrest.symm hch
        rw [hpasses.rest] at hrest
        exact hgood' (List.append_cancel_left hrest ▸ hafter)
    · exact Or.inr ⟨Or.inr ⟨text, d.rest, hlongest.fits, hbad', hpasses.rest⟩, failure, hread'⟩
  · rw [hread]
    exact Or.inr ⟨Or.inl hbad, failure, rfl⟩

/-- Behind a character of the class, which leads nothing else that is good. -/
theorem Exact.behind_lead (hg : Exact second bad g) (hp : ∀ ch, p ch = true → Narrow ch)
    (hgood : ∀ text, good text → Begins p text → Led p second text)
    (hled : ∀ text, Led p second text → good text) {c : Cursor} (hc : Begins p c.rest) :
    ExactAt good (Led p bad) c (g (c.skip 1)) := by
  obtain ⟨ch, after, hrest, hch⟩ := hc.cons
  have hrest' : c.rest = [ch] ++ after := hrest
  have hpassed : c.Passes [ch] [] (c.skip 1) :=
    passes_skip hrest' fun d hd => List.mem_singleton.mp hd ▸ hp ch hch
  have hskip : (c.skip 1).rest = after := rest_skip hrest'
  rw [ExactAt, hrest, led_cons]
  rcases hg (c.skip 1) with ⟨text, d, hlongest, hpasses, hnot, hread⟩ | ⟨hbad, hread⟩
  · left
    rw [hskip] at hlongest hnot
    refine ⟨ch :: text, d, ⟨hled _ ⟨ch, text, hch, hlongest.fits, rfl⟩, ?_, ?_⟩,
      hpassed.trans hpasses, fun h => hnot h.2, hread⟩
    · exact (List.prefix_cons_inj ch).mpr hlongest.begins
    · intro other hother hbegin
      cases other with
      | nil => exact List.nil_prefix
      | cons first others =>
        obtain ⟨rfl, hothers⟩ := List.cons_prefix_cons.mp hbegin
        have hsecond := led_cons.mp (hgood _ hother hch)
        exact (List.prefix_cons_inj first).mpr (hlongest.most others hsecond.2 hothers)
  · exact Or.inr ⟨⟨hch, hskip ▸ hbad⟩, hread⟩

/-- What may be left out, and is there only if it begins. -/
theorem Exact.optional (hg : Exact second bad g) (hp : ∀ ch, p ch = true → Narrow ch) :
    Exact (fun text => text = [] ∨ Led p second text) (Led p bad)
      (fun c => if nextIs p c then g (c.skip 1) else .ok c) := by
  intro c
  dsimp only
  by_cases hc : nextIs p c = true
  · rw [if_pos hc]
    refine hg.behind_lead hp (fun text hgood hbegins => hgood.resolve_left ?_)
      (fun text h => Or.inr h) hc
    rintro rfl
    exact not_begins_nil hbegins
  · rw [if_neg hc]
    left
    refine ⟨[], c, ⟨Or.inl rfl, List.nil_prefix, ?_⟩, .refl c, fun h => hc h.begins, rfl⟩
    rintro other (rfl | hled) hbegin
    · exact List.nil_prefix
    · obtain ⟨ch, after, hch, -, rfl⟩ := hled
      obtain ⟨further, hfurther⟩ := hbegin
      exact absurd (show Begins p c.rest from hfurther ▸ hch) hc

/-- A character of the class may stand before, which is not taken for the beginning. -/
theorem Exact.preceded (hg : Exact second bad g) (hp : ∀ ch, p ch = true → Narrow ch)
    (hbegins : ∀ text, second text → text ≠ [] ∧ ¬ Begins p text) :
    Exact (fun text => second text ∨ Led p second text)
      (fun rest => Led p bad rest ∨ ¬ Begins p rest ∧ bad rest)
      (fun c => g (if nextIs p c then c.skip 1 else c)) := by
  intro c
  dsimp only
  by_cases hc : nextIs p c = true
  · rw [if_pos hc]
    have hbad : (Led p bad c.rest ∨ ¬ Begins p c.rest ∧ bad c.rest) ↔ Led p bad c.rest :=
      or_iff_left fun h => h.1 hc
    rw [ExactAt, hbad]
    exact hg.behind_lead hp (fun text hgood h => hgood.resolve_left fun h' => (hbegins _ h').2 h)
      (fun text h => Or.inr h) hc
  · rw [if_neg hc]
    have hbad : (Led p bad c.rest ∨ ¬ Begins p c.rest ∧ bad c.rest) ↔ bad c.rest :=
      ⟨fun h => h.elim (fun h => absurd h.begins hc) And.right, fun h => Or.inr ⟨hc, h⟩⟩
    rw [ExactAt, hbad]
    rcases hg c with ⟨text, d, hlongest, hpasses, hnot, hread⟩ | hfails
    · left
      refine ⟨text, d, ⟨Or.inl hlongest.fits, hlongest.begins, ?_⟩, hpasses, hnot, hread⟩
      rintro other (hother | hled) hbegin
      · exact hlongest.most other hother hbegin
      · obtain ⟨ch, after, hch, -, rfl⟩ := hled
        obtain ⟨further, hfurther⟩ := hbegin
        exact absurd (show Begins p c.rest from hfurther ▸ hch) hc
    · exact Or.inr hfails

end Exact

section Digits

variable {isDigit : Char → Bool} {text rest : List Char} {ch : Char}

/-- Digits, each with at most one separator before it. -/
inductive Digits (isDigit : Char → Bool) : List Char → Prop
  | nil : Digits isDigit []
  | digit {ch : Char} {text : List Char} : isDigit ch = true → Digits isDigit text →
      Digits isDigit (ch :: text)
  | separated {ch : Char} {text : List Char} : isDigit ch = true → Digits isDigit text →
      Digits isDigit ('_' :: ch :: text)

/-- Digits, of which the first has no separator before it. -/
def Run (isDigit : Char → Bool) : List Char → Prop := Led isDigit (Digits isDigit)

/-- Behind some digits a separator stands that has no digit behind it. -/
def LoseDigits (isDigit : Char → Bool) : List Char → Prop :=
  Behind (Digits isDigit) (Led (· == '_') fun rest => ¬ Begins isDigit rest)

/-- There is no digit at all, or some that go on with a separator without a digit behind it. -/
def LoseRun (isDigit : Char → Bool) (rest : List Char) : Prop :=
  ¬ Begins isDigit rest ∨ LoseDigits isDigit rest

theorem Digits.forall {P : Char → Prop} (h : Digits isDigit text) (hsep : P '_')
    (hdigit : ∀ ch, isDigit ch = true → P ch) : ∀ ch ∈ text, P ch := by
  induction h with
  | nil => exact fun ch hmem => nomatch hmem
  | digit hch _ ih => exact List.forall_mem_cons.mpr ⟨hdigit _ hch, ih⟩
  | separated hch _ ih =>
    exact List.forall_mem_cons.mpr ⟨hsep, List.forall_mem_cons.mpr ⟨hdigit _ hch, ih⟩⟩

/-- Passes digits where one has to be. -/
def run (isDigit : Char → Bool) (c : Cursor) : Except Failure Cursor :=
  if nextIs isDigit c then digits isDigit c else .error (.unexpected c)

theorem Run.digits (h : Run isDigit text) : Digits isDigit text := by
  obtain ⟨ch, after, hch, hafter, rfl⟩ := h
  exact .digit hch hafter

variable (hsep : isDigit '_' = false)
include hsep

@[simp] theorem digits_digit (hch : isDigit ch = true) :
    Digits isDigit (ch :: text) ↔ Digits isDigit text := by
  refine ⟨fun h => ?_, .digit hch⟩
  cases h with
  | digit _ h => exact h
  | separated => simp [hsep] at hch

omit hsep in
/-- Where no digit is next, nothing is a run of digits. -/
theorem longest_nil (hch : ¬ Begins isDigit rest)
    (hseparated : ∀ ch after, rest = '_' :: ch :: after → isDigit ch = false) :
    Longest (Digits isDigit) [] rest := by
  refine ⟨.nil, List.nil_prefix, ?_⟩
  rintro other hother ⟨further, rfl⟩
  cases hother with
  | nil => exact List.nil_prefix
  | digit h => exact absurd h hch
  | separated h => simp [hseparated _ _ rfl] at h

theorem longest_digit (hch : isDigit ch = true) (h : Longest (Digits isDigit) text rest) :
    Longest (Digits isDigit) (ch :: text) (ch :: rest) := by
  refine ⟨.digit hch h.fits, (List.prefix_cons_inj ch).mpr h.begins, ?_⟩
  rintro (_ | ⟨first, others⟩) hother hbegin
  · exact List.nil_prefix
  · obtain ⟨rfl, hothers⟩ := List.cons_prefix_cons.mp hbegin
    exact (List.prefix_cons_inj first).mpr
      (h.most others ((digits_digit hsep hch).mp hother) hothers)

theorem longest_separated (hch : isDigit ch = true) (h : Longest (Digits isDigit) text rest) :
    Longest (Digits isDigit) ('_' :: ch :: text) ('_' :: ch :: rest) := by
  refine ⟨.separated hch h.fits, by simpa using h.begins, ?_⟩
  intro other hother hbegin
  cases hother with
  | nil => exact List.nil_prefix
  | digit hfirst =>
    obtain ⟨rfl, -⟩ := List.cons_prefix_cons.mp hbegin
    simp [hsep] at hfirst
  | separated _ hothers =>
    obtain ⟨heq, hinside⟩ := List.cons_prefix_cons.mp (List.cons_prefix_cons.mp hbegin).2
    subst heq
    simpa using h.most _ hothers hinside

theorem loseDigits_digit (hch : isDigit ch = true) :
    LoseDigits isDigit (ch :: rest) ↔ LoseDigits isDigit rest := by
  constructor
  · rintro ⟨before, after, hdigits, hsepled, hrest⟩
    cases hdigits with
    | nil =>
      rw [List.nil_append] at hrest
      rw [← hrest, led_cons] at hsepled
      rw [eq_of_beq hsepled.1, hsep] at hch
      cases hch
    | digit _ h => cases hrest; exact ⟨_, after, h, hsepled, rfl⟩
    | separated => cases hrest; simp [hsep] at hch
  · rintro ⟨before, after, hdigits, hsepled, rfl⟩
    exact ⟨ch :: before, after, .digit hch hdigits, hsepled, rfl⟩

theorem loseDigits_separated (hch : isDigit ch = true) :
    LoseDigits isDigit ('_' :: ch :: rest) ↔ LoseDigits isDigit rest := by
  constructor
  · rintro ⟨before, after, hdigits, hsepled, hrest⟩
    cases hdigits with
    | nil =>
      rw [List.nil_append] at hrest
      rw [← hrest, led_cons] at hsepled
      exact absurd hch hsepled.2
    | digit h =>
      obtain ⟨rfl, -⟩ := List.cons.inj hrest
      simp [hsep] at h
    | separated _ h => cases hrest; exact ⟨_, after, h, hsepled, rfl⟩
  · rintro ⟨before, after, hdigits, hsepled, rfl⟩
    exact ⟨'_' :: ch :: before, after, .separated hch hdigits, hsepled, rfl⟩

/-- A run of digits is read as far as it goes, and it is well formed unless a separator spoils it. -/
theorem digitRun_exact (rest : List Char) :
    (∃ text after, rest = text ++ after ∧ digitRun isDigit rest = (text.length, true) ∧
      Longest (Digits isDigit) text rest ∧ ¬ LoseDigits isDigit rest) ∨
    ((digitRun isDigit rest).2 = false ∧ LoseDigits isDigit rest) := by
  induction rest using digitRun.induct isDigit with
  | case1 =>
    refine Or.inl ⟨[], [], rfl, rfl, longest_nil not_begins_nil nofun, ?_⟩
    rintro ⟨before, after, hdigits, hsepled, hrest⟩
    obtain ⟨-, rfl⟩ := List.append_eq_nil_iff.mp hrest.symm
    exact not_begins_nil hsepled.begins
  | case2 ch rest hch length good heq ih =>
    rw [loseDigits_separated hsep hch]
    simp only [digitRun, hch, if_true]
    rcases ih with ⟨text, after, rfl, hrun, hlongest, hnot⟩ | ⟨hrun, hbad⟩
    · exact Or.inl ⟨'_' :: ch :: text, after, rfl, by rw [hrun]; rfl,
        longest_separated hsep hch hlongest, hnot⟩
    · exact Or.inr ⟨hrun, hbad⟩
  | case3 ch rest hch =>
    right
    simp only [digitRun, hch]
    exact ⟨rfl, [], '_' :: ch :: rest, .nil, ⟨'_', ch :: rest, rfl, hch, rfl⟩, rfl⟩
  | case4 => exact Or.inr ⟨rfl, [], ['_'], .nil, ⟨'_', [], rfl, not_begins_nil, rfl⟩, rfl⟩
  | case5 ch rest hnot hend hch length good heq ih =>
    have hne : ch ≠ '_' := by
      rintro rfl
      simp [hsep] at hch
    rw [loseDigits_digit hsep hch, digitRun_cons hne, if_pos hch]
    rcases ih with ⟨text, after, rfl, hrun, hlongest, hgood⟩ | ⟨hrun, hbad⟩
    · exact Or.inl ⟨ch :: text, after, rfl, by rw [hrun]; rfl,
        longest_digit hsep hch hlongest, hgood⟩
    · exact Or.inr ⟨hrun, hbad⟩
  | case6 ch rest hnot hend hch =>
    have hne : ch ≠ '_' := by
      rintro rfl
      cases rest with
      | nil => exact hend rfl rfl
      | cons next rest => exact hnot next rest rfl rfl
    rw [digitRun_cons hne, if_neg hch]
    refine Or.inl ⟨[], ch :: rest, rfl, rfl, longest_nil hch fun next after h => ?_, ?_⟩
    · cases h
      exact absurd rfl hne
    · rintro ⟨before, after, hdigits, hsepled, hrest⟩
      cases hdigits with
      | nil =>
        rw [List.nil_append] at hrest
        rw [← hrest, led_cons] at hsepled
        exact hne (eq_of_beq hsepled.1)
      | digit h => cases hrest; exact hch h
      | separated => cases hrest; exact hne rfl

theorem digits_exact (hdigit : ∀ ch, isDigit ch = true → Narrow ch) :
    Exact (Digits isDigit) (LoseDigits isDigit) (digits isDigit) := by
  intro c
  have hsepNarrow : Narrow '_' := by decide
  unfold digits
  rcases digitRun_exact hsep c.rest with ⟨text, after, hrest, hrun, hlongest, hgood⟩ | ⟨hrun, hbad⟩
  · rw [hrun]
    exact Or.inl ⟨text, c.skip text.length, hlongest,
      passes_skip hrest (hlongest.fits.forall hsepNarrow hdigit), hgood, rfl⟩
  · dsimp only
    rw [hrun, if_neg Bool.false_ne_true]
    exact Or.inr ⟨hbad, _, rfl⟩

/-- Behind a digit the run goes on as it does from that digit. -/
theorem digits_skip {c : Cursor} (hc : Begins isDigit c.rest) :
    digits isDigit (c.skip 1) = digits isDigit c := by
  obtain ⟨ch, after, hrest, hch⟩ := hc.cons
  have hne : ch ≠ '_' := by
    rintro rfl
    simp [hsep] at hch
  have hskip : (c.skip 1).rest = after := by rw [skip, hrest]; rfl
  unfold digits
  rw [hskip, hrest, digitRun_cons hne, if_pos hch]
  simp only [skip_skip, Nat.add_comm]

theorem run_exact (hdigit : ∀ ch, isDigit ch = true → Narrow ch) :
    Exact (Run isDigit) (LoseRun isDigit) (run isDigit) := by
  intro c
  unfold run
  by_cases hc : nextIs isDigit c = true
  · rw [if_pos hc]
    have hbad : LoseRun isDigit c.rest ↔ LoseDigits isDigit c.rest :=
      or_iff_right (not_not_intro hc)
    rw [ExactAt, hbad]
    rcases digits_exact hsep hdigit c with ⟨text, d, hlongest, hpasses, hgood, hread⟩ | hfails
    · left
      refine ⟨text, d, ⟨?_, hlongest.begins, ?_⟩, hpasses, hgood, hread⟩
      · obtain ⟨ch, after, hrest, hch⟩ := Begins.cons hc
        obtain ⟨more, rfl⟩ := hlongest.most [ch] (.digit hch .nil) ⟨after, hrest.symm⟩
        exact ⟨ch, more, hch, (digits_digit hsep hch).mp hlongest.fits, rfl⟩
      · rintro other hother
        exact hlongest.most other hother.digits
    · exact Or.inr hfails
  · rw [if_neg hc]
    exact Or.inr ⟨Or.inl hc, _, rfl⟩

end Digits

section Decimal

open CharClass Decimal

/-- Nothing, or a point with any number of digits behind it. -/
def Fraction (text : List Char) : Prop := text = [] ∨ Led (· == '.') (Digits isDecimalDigit) text

/-- The digits behind a point are lost. -/
def LoseFraction : List Char → Prop := Led (· == '.') (LoseDigits isDecimalDigit)

def isSign (ch : Char) : Bool := ch == '+' || ch == '-'

/-- Digits with at most one sign before them. -/
def SignedRun (text : List Char) : Prop :=
  Run isDecimalDigit text ∨ Led isSign (Run isDecimalDigit) text

/-- There is no run of digits behind the sign, if there is one, or it is lost. -/
def LoseSignedRun (rest : List Char) : Prop :=
  Led isSign (LoseRun isDecimalDigit) rest ∨ ¬ Begins isSign rest ∧ LoseRun isDecimalDigit rest

/-- Nothing, or a mark with digits behind it, which may have a sign. -/
def Exponent (text : List Char) : Prop := text = [] ∨ Led isExponentMark SignedRun text

/-- The digits behind an exponent mark are lost. -/
def LoseExponent : List Char → Prop := Led isExponentMark LoseSignedRun

theorem isExponentMark_narrow (ch : Char) (h : isExponentMark ch = true) : Narrow ch := by
  simp only [isExponentMark, Bool.or_eq_true, beq_iff_eq] at h
  rcases h with rfl | rfl <;> decide

theorem isSign_narrow (ch : Char) (h : isSign ch = true) : Narrow ch := by
  simp only [isSign, Bool.or_eq_true, beq_iff_eq] at h
  rcases h with rfl | rfl <;> decide

theorem isSign_not_digit {ch : Char} (h : isSign ch = true) : isDecimalDigit ch = false := by
  simp only [isSign, Bool.or_eq_true, beq_iff_eq] at h
  rcases h with rfl | rfl <;> decide

theorem fractionPart_exact : Exact Fraction LoseFraction fractionPart := by
  refine (digits_exact (by decide) fun _ => .isDecimalDigit).optional fun ch h => ?_
  rw [eq_of_beq h]
  decide

theorem exponentPart_exact : Exact Exponent LoseExponent exponentPart := by
  have hrun : Exact (Run isDecimalDigit) (LoseRun isDecimalDigit) (run isDecimalDigit) :=
    run_exact (by decide) fun _ => .isDecimalDigit
  refine (hrun.preceded isSign_narrow fun text h => ?_).optional isExponentMark_narrow
  obtain ⟨ch, after, hch, -, rfl⟩ := h
  refine ⟨List.cons_ne_nil _ _, fun hsign => ?_⟩
  rw [isSign_not_digit hsign] at hch
  cases hch

end Decimal

end ActionSyntax.Scan
