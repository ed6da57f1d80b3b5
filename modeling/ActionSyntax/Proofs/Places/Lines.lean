import ActionSyntax.Span
import ActionSyntax.Text.CharClass
import ActionSyntax.Text.Utf8

/-!
The lines of a text. A line ends behind a line terminator, where a carriage return and a line feed
behind it are one terminator. A place in a text is true when it counts the lines before it, and does
not stand inside such a pair.
-/

namespace ActionSyntax

set_option autoImplicit false

namespace Lines

open Utf8

/-- Whether a line ends behind a character. A carriage return leaves that to a line feed. -/
def endsLine (ch : Char) (rest : List Char) : Bool :=
  CharClass.isLineTerminator ch && !(ch == '\r' && rest.head? == some '\n')

/-- The offsets behind the line terminators of a text that stands at the given offset. -/
def ends : Nat → List Char → List Nat
  | _, [] => []
  | offset, ch :: rest =>
    if endsLine ch rest then (offset + ch.utf8Size) :: ends (offset + ch.utf8Size) rest
    else ends (offset + ch.utf8Size) rest

/-- The offsets at which the lines of a text begin. -/
def starts (text : List Char) : List Nat := 0 :: ends 0 text

/-- The number of the line that holds an offset. -/
def lineAt (text : List Char) (offset : Nat) : Nat := (starts text).countP (· ≤ offset)

/-- The last beginning of a line at or before an offset. -/
def startAt (text : List Char) (offset : Nat) : Nat :=
  ((starts text).filter (· ≤ offset)).getLast?.getD 0

theorem startAt_le (text : List Char) (offset : Nat) : startAt text offset ≤ offset := by
  unfold startAt
  cases hlast : ((starts text).filter (· ≤ offset)).getLast? with
  | none => exact Nat.zero_le _
  | some start =>
    have hmem := List.mem_of_getLast? hlast
    simpa using (List.mem_filter.mp hmem).2

/-- Between the two parts a carriage return is torn from its line feed. -/
def Splits (before after : List Char) : Prop :=
  before.getLast? = some '\r' ∧ after.head? = some '\n'

section Ends

variable {a b c : List Char}

@[simp] theorem ends_nil (offset : Nat) : ends offset [] = [] := rfl

theorem not_splits_nil (b : List Char) : ¬ Splits [] b := fun h => by cases h.1

theorem not_splits_end (a : List Char) : ¬ Splits a [] := fun h => by cases h.2

theorem not_splits_of_head {ch : Char} (h : ch ≠ '\n') (a b : List Char) :
    ¬ Splits a (ch :: b) := fun hs => h (Option.some.inj hs.2)

theorem not_splits_of_last {ch : Char} (h : ch ≠ '\r') (a b : List Char) :
    ¬ Splits (a ++ [ch]) b := fun hs => h (by simpa using hs.1)

theorem not_splits_left (hab : ¬ Splits a (b ++ c)) : ¬ Splits a b := fun h => hab ⟨h.1, by
  cases b with
  | nil => cases h.2
  | cons ch b => exact h.2⟩

theorem not_splits_append (hab : ¬ Splits a (b ++ c)) (hbc : ¬ Splits b c) :
    ¬ Splits (a ++ b) c := by
  rintro ⟨hlast, hhead⟩
  cases b with
  | nil => exact hab ⟨by simpa using hlast, by simpa using hhead⟩
  | cons ch b => exact hbc ⟨by simpa using hlast, hhead⟩

theorem endsLine_append {ch : Char} (h : ¬ Splits (ch :: a) b) :
    endsLine ch (a ++ b) = endsLine ch a := by
  cases a with
  | cons => rfl
  | nil =>
    cases b with
    | nil => rfl
    | cons next b =>
      have hnone : ¬ (ch = '\r' ∧ next = '\n') := by
        rintro ⟨rfl, rfl⟩
        exact h ⟨rfl, rfl⟩
      by_cases hr : ch = '\r' <;> simp_all [endsLine]

theorem ends_append : ∀ {a : List Char} {offset : Nat}, ¬ Splits a b →
    ends offset (a ++ b) = ends offset a ++ ends (offset + byteLength a) b
  | [], _, _ => by simp
  | ch :: a, offset, h => by
    have htail : ¬ Splits a b := fun hs => h ⟨by
      cases a with
      | nil => cases hs.1
      | cons => exact hs.1, hs.2⟩
    simp only [List.cons_append, ends, endsLine_append h, ends_append htail, byteLength_cons,
      Nat.add_assoc]
    split <;> rfl

theorem lt_of_mem_ends : ∀ {text : List Char} {offset e : Nat}, e ∈ ends offset text →
    offset < e
  | ch :: text, offset, e, h => by
    have hpos := ch.utf8Size_pos
    unfold ends at h
    split at h
    · rcases List.mem_cons.mp h with rfl | h
      · omega
      · exact Nat.lt_of_le_of_lt (Nat.le_add_right _ _) (lt_of_mem_ends h)
    · exact Nat.lt_of_le_of_lt (Nat.le_add_right _ _) (lt_of_mem_ends h)

theorem le_of_mem_ends : ∀ {text : List Char} {offset e : Nat}, e ∈ ends offset text →
    e ≤ offset + byteLength text
  | ch :: text, offset, e, h => by
    unfold ends at h
    rw [byteLength_cons]
    split at h
    · rcases List.mem_cons.mp h with rfl | h
      · omega
      · have := le_of_mem_ends h
        omega
    · have := le_of_mem_ends h
      omega

theorem ends_pairwise : ∀ (text : List Char) (offset : Nat), (ends offset text).Pairwise (· < ·)
  | [], _ => List.Pairwise.nil
  | ch :: text, offset => by
    unfold ends
    split
    · exact List.pairwise_cons.mpr ⟨fun _ => lt_of_mem_ends, ends_pairwise _ _⟩
    · exact ends_pairwise _ _

/-- The beginnings of lines are in order, and none is listed twice. -/
theorem starts_pairwise (text : List Char) : (starts text).Pairwise (· < ·) :=
  List.pairwise_cons.mpr ⟨fun _ => lt_of_mem_ends, ends_pairwise text 0⟩

/-- The ends are those behind the terminators of the text, but for a carriage return that a line
feed follows. -/
theorem mem_ends : ∀ {text : List Char} {offset e : Nat}, e ∈ ends offset text ↔
    ∃ before ch after, text = before ++ ch :: after ∧ endsLine ch after = true ∧
      e = offset + byteLength before + ch.utf8Size
  | [], _, _ => by simp
  | ch :: text, offset, e => by
    have hrest : e ∈ ends (offset + ch.utf8Size) text ↔ ∃ before c after,
        ch :: text = (ch :: before) ++ c :: after ∧ endsLine c after = true ∧
          e = offset + byteLength (ch :: before) + c.utf8Size := by
      rw [mem_ends]
      simp [Nat.add_assoc]
    unfold ends
    constructor
    · intro h
      have hor : e = offset + ch.utf8Size ∧ endsLine ch text = true ∨
          e ∈ ends (offset + ch.utf8Size) text := by
        split at h
        · exact (List.mem_cons.mp h).imp_left fun he => ⟨he, by assumption⟩
        · exact Or.inr h
      rcases hor with ⟨he, hend⟩ | h
      · exact ⟨[], ch, text, rfl, hend, by simpa using he⟩
      · obtain ⟨before, c, after, heq, hend, he⟩ := hrest.mp h
        exact ⟨ch :: before, c, after, heq, hend, he⟩
    · rintro ⟨before, c, after, heq, hend, he⟩
      cases before with
      | nil =>
        cases heq
        rw [if_pos hend]
        simpa using Or.inl he
      | cons b before =>
        cases heq
        have := hrest.mpr ⟨before, c, after, rfl, hend, he⟩
        split
        · exact List.mem_cons_of_mem _ this
        · exact this

theorem ends_of_forall_not : ∀ {text : List Char} (_ : ∀ ch ∈ text,
    CharClass.isLineTerminator ch = false) (offset : Nat), ends offset text = []
  | [], _, _ => rfl
  | ch :: text, h, offset => by
    have hch : endsLine ch text = false := by simp [endsLine, h ch (by simp)]
    simp [ends, hch, ends_of_forall_not fun c hc => h c (List.mem_cons_of_mem _ hc)]

end Ends

/-- The range of the text behind a text that stands at the beginning. -/
def spanOf (before text : List Char) : Span where
  firstLine := (ends 0 before).length + 1
  lastLine := (ends 0 (before ++ text)).length + 1
  start := byteLength before
  stop := byteLength (before ++ text)

/-- A place of a text at or before `limit`: a line, and an offset in it between two characters. -/
def At (text : List Char) (limit line offset : Nat) : Prop :=
  ∃ before after, text = before ++ after ∧ ¬ Splits before after ∧ offset = byteLength before ∧
    offset ≤ limit ∧ line = (ends 0 before).length + 1

namespace At

variable {text : List Char} {limit line offset : Nat}

theorem mono {more : Nat} (h : At text limit line offset) (hle : limit ≤ more) :
    At text more line offset := by
  obtain ⟨before, after, htext, hwhole, hoffset, hlimit, hline⟩ := h
  exact ⟨before, after, htext, hwhole, hoffset, Nat.le_trans hlimit hle, hline⟩

/-- Behind a place only later lines begin. -/
theorem filter_starts {before after : List Char} (hwhole : ¬ Splits before after) :
    (starts (before ++ after)).filter (· ≤ byteLength before) = starts before := by
  unfold starts
  rw [ends_append hwhole, ← List.cons_append, List.filter_append, List.filter_eq_self.mpr,
    List.filter_eq_nil_iff.mpr, List.append_nil]
  · intro e he hle
    have := lt_of_mem_ends he
    simp at hle
    omega
  · intro e he
    rcases List.mem_cons.mp he with rfl | he
    · simp
    · simpa using le_of_mem_ends he

/-- The line of a place is the one that holds its offset. -/
theorem lineAt_eq (h : At text limit line offset) : lineAt text offset = line := by
  obtain ⟨before, after, rfl, hwhole, rfl, -, rfl⟩ := h
  unfold lineAt
  rw [List.countP_eq_length_filter, filter_starts hwhole]
  rfl

theorem startAt_eq {before after : List Char} (hwhole : ¬ Splits before after) :
    startAt (before ++ after) (byteLength before) = (ends 0 before).getLast?.getD 0 := by
  unfold startAt
  rw [filter_starts hwhole]
  unfold starts
  cases ends 0 before <;> simp

end At

/-- Both ends of a range are places of the text, at or before `limit`. -/
def Range (text : List Char) (limit : Nat) (span : Span) : Prop :=
  At text limit span.firstLine span.start ∧ At text limit span.lastLine span.stop

theorem Range.mono {text : List Char} {limit more : Nat} {span : Span}
    (h : Range text limit span) (hle : limit ≤ more) : Range text more span :=
  ⟨h.1.mono hle, h.2.mono hle⟩

theorem byteLength_eq_zero {text : List Char} (h : byteLength text = 0) : text = [] := by
  cases text with
  | nil => rfl
  | cons ch text =>
    have := ch.utf8Size_pos
    simp at h
    omega

/-- Of two texts that begin a third, the shorter begins the longer. -/
theorem append_of_byteLength_le {a b c d : List Char} (h : a ++ b = c ++ d)
    (hle : byteLength a ≤ byteLength c) : ∃ more, c = a ++ more ∧ b = more ++ d := by
  rcases List.append_eq_append_iff.mp h with ⟨more, hc, hb⟩ | ⟨more, ha, hd⟩
  · exact ⟨more, hc, hb⟩
  · have hmore : more = [] := byteLength_eq_zero (by simp [ha] at hle; omega)
    subst hmore
    exact ⟨[], by simpa using ha.symm, by simpa using hd.symm⟩

/-- Once a place has been passed, the beginning of its line is among those passed. -/
theorem At.getElem? {text scanned rest : List Char} {line offset : Nat}
    (h : At text (byteLength scanned) line offset) (htext : text = scanned ++ rest) :
    0 < line ∧ (starts scanned)[line - 1]? = some (startAt text offset) := by
  obtain ⟨before, after, heq, hwhole, rfl, hlimit, rfl⟩ := h
  obtain ⟨more, rfl, rfl⟩ := append_of_byteLength_le (heq.symm.trans htext) hlimit
  subst heq
  refine ⟨by omega, ?_⟩
  rw [startAt_eq hwhole]
  have hmore : ¬ Splits before more := not_splits_left hwhole
  simp only [starts, ends_append hmore, Nat.add_sub_cancel]
  rw [← List.cons_append, List.getElem?_append_left (by simp)]
  cases hends : ends 0 before with
  | nil => rfl
  | cons e es => simp [List.getLast?_eq_getElem?]

end Lines

end ActionSyntax
