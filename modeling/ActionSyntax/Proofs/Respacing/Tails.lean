import ActionSyntax.Proofs.Respacing.Ends
import ActionSyntax.Proofs.ScanWithin

/-!
What follows a lexeme may be exchanged. A lexeme that ends in front of blanks or a comment ends there as
well when other blanks or comments follow it.
-/

namespace ActionSyntax

set_option autoImplicit false

/-- The characters that blanks and comments begin with. -/
def gapHeads : List Char := [' ', '\t', '\x0b', '\x0c', '\u00a0', '/', '<']

/-- The text begins like a blank or a comment. -/
def Heads (tail : List Char) : Prop := ∃ ch rest, tail = ch :: rest ∧ ch ∈ gapHeads

theorem Heads.begins {tail : List Char} (h : Heads tail) {P : Char → Prop} (hP : ∀ ch ∈ gapHeads, P ch) :
    ∃ ch rest, tail = ch :: rest ∧ P ch := by
  obtain ⟨ch, rest, htail, hch⟩ := h
  exact ⟨ch, rest, htail, hP ch hch⟩

/-- A text and one that may follow a lexeme in its place. Both begin like blanks or comments, and no mark is
put together with the second one that is not put together with the first one. -/
structure Tails (v w : List Char) : Prop where
  left : Heads v
  right : Heads w
  same : ∀ ch ∈ w.head?, CharClass.isBlank ch = true ∨ v.head? = some ch
  whole : ¬ ['<', '='] <+: w

/-- The mark ends where a blank or a comment begins, unless it is one that may take the first character of
a comment. -/
def Watched (mark : List Char) : Prop :=
  (∀ ch ∈ mark.tail, ch ∉ gapHeads) ∨ mark ∈ [['<', '/'], ['<', '<'], ['<', '<', '='], ['/', '/']]

instance (mark : List Char) : Decidable (Watched mark) := inferInstanceAs (Decidable (_ ∨ _))

namespace Cursor

/-- The cursor in a text that goes on. -/
def before (k : Cursor) (tail : List Char) : Cursor := { k with rest := k.rest ++ tail }

variable {k : Cursor} {v w tail mark : List Char} {n : Nat} {ch : Char}

@[simp] theorem before_rest (k : Cursor) (tail : List Char) : (k.before tail).rest = k.rest ++ tail := rfl

@[simp] theorem before_index (k : Cursor) (tail : List Char) : (k.before tail).index = k.index := rfl

theorem before_skip (h : n ≤ k.rest.length) : (k.before tail).skip n = (k.skip n).before tail := by
  simp only [before, skip, List.drop_append_of_le_length h]

theorem before_skip_one (h : k.rest ≠ []) : (k.before tail).skip 1 = (k.skip 1).before tail :=
  before_skip (List.length_pos_iff.mpr h)

theorem before_advance (h : k.rest ≠ []) : (k.before tail).advance = k.advance.before tail := by
  obtain ⟨ch, rest, hrest⟩ := List.exists_cons_of_ne_nil h
  simp [before, advance, hrest]

/-- No mark is put together with what begins like a blank or a comment, unless the mark says so. -/
theorem before_startsWith (ht : Heads tail) (hmark : ∀ ch ∈ mark.tail, ch ∉ gapHeads)
    (hne : k.rest ≠ []) : (k.before tail).startsWith mark = k.startsWith mark := by
  obtain ⟨a, more, rfl, ha⟩ := ht
  rw [Bool.eq_iff_iff, startsWith_iff, startsWith_iff]
  refine ⟨fun hwhole => ?_, fun hin => hin.trans (List.prefix_append _ _)⟩
  rcases List.prefix_or_prefix_of_prefix hwhole (List.prefix_append k.rest (a :: more)) with
    hin | ⟨out, hout⟩
  · exact hin
  · obtain ⟨first, rest, hrest⟩ := List.exists_cons_of_ne_nil hne
    cases out with
    | nil => exact ⟨[], by rw [← hout, List.append_nil, List.append_nil]⟩
    | cons b out =>
      obtain ⟨after, hafter⟩ := hwhole
      rw [before_rest, ← hout, List.append_assoc, List.append_cancel_left_eq, List.cons_append] at hafter
      obtain rfl : b = a := (List.cons.inj hafter).1
      refine absurd ha (hmark b ?_)
      rw [← hout, hrest]
      simp

theorem before_startsWith_one (ht : Heads tail) (hmark : ch ∉ gapHeads) :
    (k.before tail).startsWith [ch] = k.startsWith [ch] := by
  obtain ⟨a, more, rfl, ha⟩ := ht
  have hne : ch ≠ a := by
    rintro rfl
    exact hmark ha
  cases hrest : k.rest with
  | nil => simp [startsWith, hrest, List.isPrefixOf, hne]
  | cons first rest => simp [startsWith, hrest, List.isPrefixOf]

theorem startsWith_length (h : k.startsWith mark = true) : mark.length ≤ k.rest.length :=
  (startsWith_iff.mp h).length_le

/-- A text that goes on is one that stands within another, with nothing in front of it. -/
theorem before_eq_within (k : Cursor) (tail : List Char) :
    k.before tail = k.within { offset := 0, lines := 0, tail } := by
  rw [within_eq]
  simp [before, Span.moved]

theorem before_newline? (ht : Heads tail) :
    (k.before tail).newline? = k.newline?.map (·.before tail) := by
  obtain ⟨a, more, rfl, ha⟩ := ht
  have hplain : CharClass.isLineTerminator a = false ∧ a ≠ '\n' ∧ a ≠ '|' ∧ a ≠ '=' := by
    revert a
    decide
  cases hrest : k.rest with
  | nil =>
    have hnone : k.newline? = none := by simp [newline?, hrest]
    have hbegins : (k.before (a :: more)).rest = a :: more := by simp [hrest]
    rw [hnone, (newline?_eq_none hbegins).mpr hplain.1, Option.map_none]
  | cons first rest =>
    have hapart : (Surroundings.within { offset := 0, lines := 0, tail := a :: more }).Apart k := by
      intro last _ ch hch
      obtain rfl : a = ch := Option.some.inj hch
      exact ⟨fun _ => hplain.2.2, fun _ => hplain.2.1⟩
    simp only [before_eq_within]
    exact newline?_within hapart (by simp [hrest])

theorem newline?_shorter {d : Cursor} (hne : k.rest ≠ []) (h : k.newline? = some d) :
    d.rest.length < k.rest.length := by
  have hlength := (Leads.newline h).length_le
  have hpos := List.length_pos_iff.mpr hne
  simp only [skip, List.length_drop] at hlength
  omega

theorem advance_shorter (hne : k.rest ≠ []) : k.advance.rest.length < k.rest.length := by
  obtain ⟨ch, rest, hrest⟩ := List.exists_cons_of_ne_nil hne
  simp [advance, hrest]

end Cursor

namespace Tails

open Cursor

variable {v w : List Char} {k : Cursor} {mark : List Char}

theorem startsWith_pair (hx : Tails v w) {p q : Char} (hplain : CharClass.isBlank q = false)
    (hne : k.rest ≠ []) (h : (k.before w).startsWith [p, q] = true) :
    (k.before v).startsWith [p, q] = true := by
  obtain ⟨first, rest, hrest⟩ := List.exists_cons_of_ne_nil hne
  rw [startsWith_iff, before_rest, hrest, List.cons_append, List.cons_prefix_cons] at h ⊢
  obtain ⟨rfl, after, hafter⟩ := h
  refine ⟨rfl, ?_⟩
  cases rest with
  | nil =>
    have hhead : w.head? = some q := by rw [← List.nil_append w, ← hafter]; rfl
    obtain hblank | hsame := hx.same q hhead
    · rw [hblank] at hplain
      cases hplain
    · obtain ⟨more, rfl⟩ := List.head?_eq_some_iff.mp hsame
      exact ⟨more, rfl⟩
  | cons second rest =>
    obtain ⟨rfl, -⟩ := List.cons.inj hafter
    exact ⟨rest ++ v, rfl⟩

theorem startsWith_shift (hx : Tails v w) (hne : k.rest ≠ [])
    (h : (k.before w).startsWith ['<', '<', '='] = true) :
    (k.before v).startsWith ['<', '<', '='] = true := by
  obtain ⟨first, rest, hrest⟩ := List.exists_cons_of_ne_nil hne
  rw [startsWith_iff, before_rest, hrest, List.cons_append, List.cons_prefix_cons] at h ⊢
  obtain ⟨rfl, hbelow⟩ := h
  refine ⟨rfl, ?_⟩
  match rest, hbelow with
  | [], hbelow => exact absurd hbelow hx.whole
  | [second], hbelow =>
    obtain ⟨ch, more, rfl, hch⟩ := hx.right
    obtain ⟨after, hafter⟩ := hbelow
    obtain rfl : '=' = ch := (List.cons.inj (List.cons.inj hafter).2).1
    exact absurd hch (by decide)
  | second :: third :: rest, ⟨after, hafter⟩ =>
    obtain ⟨rfl, hthird⟩ := List.cons.inj hafter
    obtain ⟨rfl, -⟩ := List.cons.inj hthird
    exact ⟨rest ++ v, rfl⟩

/-- What begins with the second text begins with the first one as well. -/
theorem startsWith (hx : Tails v w) (hmark : Watched mark) (hne : k.rest ≠ [])
    (h : (k.before w).startsWith mark = true) : (k.before v).startsWith mark = true := by
  obtain hplain | hspecial := hmark
  · rwa [before_startsWith hx.left hplain hne, ← before_startsWith hx.right hplain hne]
  simp only [List.mem_cons, List.not_mem_nil, or_false] at hspecial
  obtain rfl | rfl | rfl | rfl := hspecial
  · exact hx.startsWith_pair (by decide) hne h
  · exact hx.startsWith_pair (by decide) hne h
  · exact hx.startsWith_shift hne h
  · exact hx.startsWith_pair (by decide) hne h

end Tails

/-- What a reading gives: a cursor, or a value with the cursor behind it. -/
class Ending (α : Type) where
  cursor : α → Cursor
  before : List Char → α → α

instance : Ending Cursor := ⟨id, fun tail k => k.before tail⟩

instance {β : Type} : Ending (β × Cursor) := ⟨Prod.snd, fun tail a => (a.1, a.2.before tail)⟩

namespace Scan

open Cursor

/-- If the first reading ends in front of the first tail or before, the second one reads the same up to the
second tail. -/
def Carries {α : Type} [Ending α] (v w : List Char) (p q : Except Failure α) : Prop :=
  ∀ a, p = .ok a → v.length ≤ (Ending.cursor a).rest.length →
    ∃ b, a = Ending.before v b ∧ q = .ok (Ending.before w b)

variable {v w : List Char}

namespace Carries

variable {α β : Type} [Ending α] [Ending β] {p q : Except Failure α} {f f' : α → Except Failure β}

theorem ok (b : α) : Carries v w (.ok (Ending.before v b)) (.ok (Ending.before w b)) := by
  rintro a ⟨⟩ _
  exact ⟨b, rfl, rfl⟩

theorem error {failure : Failure} : Carries v w (.error failure) q := nofun

/-- Nothing is asked where the first reading goes on into the tail. -/
theorem of_short (h : ∀ a, p = .ok a → (Ending.cursor a).rest.length < v.length) : Carries v w p q :=
  fun a ha hle => absurd hle (Nat.not_le_of_lt (h a ha))

theorem bind (hp : Carries v w p q)
    (hleads : ∀ a b, f a = .ok b → (Ending.cursor b).rest.length ≤ (Ending.cursor a).rest.length)
    (hf : ∀ b, p = .ok (Ending.before v b) →
      Carries v w (f (Ending.before v b)) (f' (Ending.before w b))) :
    Carries v w (p >>= f) (q >>= f') := by
  intro c hc hle
  obtain ⟨a, ha, hfa⟩ := ok_of_bind hc
  obtain ⟨b, rfl, hq⟩ := hp a ha (hle.trans (hleads a c hfa))
  obtain ⟨d, hd, hf'⟩ := hf b ha c hfa hle
  refine ⟨d, hd, ?_⟩
  rw [hq]
  exact hf'

end Carries

variable (hx : Tails v w)
include hx

section Escapes

theorem hexDigit_carries (k : Cursor) : Carries v w (hexDigit (k.before v)) (hexDigit (k.before w)) := by
  unfold hexDigit
  cases hrest : k.rest with
  | nil =>
    obtain ⟨a, more, rfl, hnone⟩ :=
      hx.left.begins (P := fun ch => CharClass.hexDigitValue? ch = none) (by decide)
    simp only [before_rest, hrest, List.nil_append, hnone]
    exact .error
  | cons ch rest =>
    have hne : k.rest ≠ [] := by simp [hrest]
    simp only [before_rest, hrest, List.cons_append, before_skip_one hne]
    cases CharClass.hexDigitValue? ch with
    | none => exact .error
    | some value => exact .ok (value, k.skip 1)

theorem fixedDigits_carries : ∀ (count value : Nat) (k : Cursor),
    Carries v w (fixedDigits count value (k.before v)) (fixedDigits count value (k.before w))
  | 0, _, k => .ok (_, k)
  | count + 1, _, k => .bind (hexDigit_carries hx k)
    (fun _ _ h => (fixedDigits_leads h).length_le) fun _ _ => fixedDigits_carries count _ _

theorem bracedDigits_carries : ∀ (fuel fuel' value : Nat) (k : Cursor), k.rest.length < fuel' →
    Carries v w (bracedDigits fuel value (k.before v)) (bracedDigits fuel' value (k.before w))
  | 0, _, _, _, _ => .error
  | fuel + 1, 0, _, _, h => absurd h (Nat.not_lt_zero _)
  | fuel + 1, fuel' + 1, _, k, h => by
    have hplain : '\x7d' ∉ gapHeads := by decide
    unfold bracedDigits
    rw [before_startsWith_one hx.left hplain, before_startsWith_one hx.right hplain]
    split
    · rename_i hclose
      have hlength : 1 ≤ k.rest.length := startsWith_length hclose
      rw [before_skip hlength, before_skip hlength]
      exact .ok (_, k.skip 1)
    · refine .bind (hexDigit_carries hx k) (fun _ _ hread => ?_) ?_
      · dsimp only at hread
        split at hread
        · cases hread
        · exact (bracedDigits_leads hread).length_le
      · rintro ⟨digit, d⟩ hread
        show Carries v w (if _ then _ else _) (if _ then _ else _)
        split
        · exact .error
        · have hless := (hexDigit_firm hread).length_lt
          simp only [before_rest, List.length_append] at hless
          exact bracedDigits_carries fuel fuel' _ d (by omega)

theorem escapeValue_carries (count : Nat) (k : Cursor) :
    Carries v w (escapeValue count (k.before v)) (escapeValue count (k.before w)) := by
  have hplain : '\x7b' ∉ gapHeads := by decide
  unfold escapeValue
  rw [before_startsWith_one hx.left hplain, before_startsWith_one hx.right hplain]
  split
  · rename_i hopen
    have hlength : 1 ≤ k.rest.length := startsWith_length hopen
    unfold bracedValue
    rw [before_skip hlength, before_skip hlength]
    refine .bind (hexDigit_carries hx _) (fun _ _ h => (bracedDigits_leads h).length_le) fun ⟨_, d⟩ _ => ?_
    refine bracedDigits_carries hx _ _ _ d ?_
    simp only [before_rest, List.length_append]
    omega
  · exact fixedDigits_carries hx count 0 k

theorem escapedChar_carries (k : Cursor) :
    Carries v w (escapedChar (k.before v)) (escapedChar (k.before w)) := by
  have value : ∀ count, k.rest ≠ [] →
      Carries v w (escapeValue count ((k.before v).skip 1) >>= fun x => pure (charOfValue x.1, x.2))
        (escapeValue count ((k.before w).skip 1) >>= fun x => pure (charOfValue x.1, x.2)) := by
    intro count hne
    rw [before_skip_one hne, before_skip_one hne]
    refine .bind (escapeValue_carries hx count _) (fun _ _ h => ?_) fun ⟨value, d⟩ _ => ?_
    · cases h
      exact Nat.le_refl _
    · exact .ok (charOfValue value, d)
  unfold escapedChar
  dsimp only
  cases hrest : k.rest with
  | nil =>
    obtain ⟨a, more, rfl, hother⟩ := hx.left.begins (P := fun ch => ch ≠ 'u' ∧ ch ≠ 'x') (by decide)
    simp only [before_rest, hrest, List.nil_append]
    split
    · rename_i heq
      exact absurd (List.cons.inj heq).1 hother.1
    · rename_i heq
      exact absurd (List.cons.inj heq).1 hother.2
    · exact .error
  | cons ch rest =>
    have hne : k.rest ≠ [] := by simp [hrest]
    simp only [before_rest, hrest, List.cons_append]
    by_cases hu : ch = 'u'
    · subst hu
      exact value 4 hne
    by_cases hx' : ch = 'x'
    · subst hx'
      exact value 2 hne
    · split
      · rename_i heq
        exact absurd (List.cons.inj heq).1 hu
      · rename_i heq
        exact absurd (List.cons.inj heq).1 hx'
      · exact .error

end Escapes

section Names

variable {allowed : Char → Bool}

theorem nameEscape_carries {k : Cursor} (hne : k.rest ≠ []) :
    Carries v w (nameEscape allowed (k.before v)) (nameEscape allowed (k.before w)) := by
  unfold nameEscape
  rw [before_skip_one hne, before_skip_one hne]
  refine .bind (escapedChar_carries hx _) (fun _ _ h => ?_) fun ⟨ch, d⟩ _ => ?_
  · dsimp only at h
    split at h
    · cases h
      exact Nat.le_refl _
    · cases h
  · show Carries v w (if _ then _ else _) (if _ then _ else _)
    split
    · exact .ok (ch, d)
    · exact .error

theorem nameChars_carries : ∀ (fuel fuel' : Nat) (read : List Char) (k : Cursor),
    k.rest.length < fuel → k.rest.length < fuel' →
      Carries v w (nameChars allowed fuel read (k.before v)) (nameChars allowed fuel' read (k.before w))
  | 0, _, _, _, h, _ => absurd h (Nat.not_lt_zero _)
  | _ + 1, 0, _, _, _, h => absurd h (Nat.not_lt_zero _)
  | fuel + 1, fuel' + 1, read, k, h, h' => by
    have stops : ∀ ch ∈ gapHeads, CharClass.isIdentifierPart ch = false ∧ (ch == '\\') = false := by
      decide +kernel
    unfold nameChars
    cases hrest : k.rest with
    | nil =>
      obtain ⟨a, more, rfl, ha⟩ := hx.left.begins stops
      obtain ⟨b, more', rfl, hb⟩ := hx.right.begins stops
      simp only [before_rest, hrest, List.nil_append, ha, hb]
      exact .ok (read, k)
    | cons ch rest =>
      have hne : k.rest ≠ [] := by simp [hrest]
      rw [hrest, List.length_cons] at h h'
      simp only [before_rest, hrest, List.cons_append]
      split
      · rw [before_advance hne, before_advance hne]
        have hless := advance_shorter hne
        rw [hrest, List.length_cons] at hless
        exact nameChars_carries fuel fuel' _ _ (by omega) (by omega)
      · split
        · refine .bind (nameEscape_carries hx hne) (fun _ _ hread => (nameChars_leads hread).length_le)
            fun ⟨escaped, d⟩ hread => ?_
          have hless := (nameEscape_firm hread).length_lt
          simp only [before_rest, hrest, List.length_append, List.length_cons] at hless
          exact nameChars_carries fuel fuel' _ d (by omega) (by omega)
        · exact .ok (read, k)

theorem nameFrom_carries {start start' : Cursor} (hstart : start.index = start'.index)
    (read : List Char) (reserving : Bool) (k : Cursor) :
    Carries v w (nameFrom start read reserving (k.before v))
      (nameFrom start' read reserving (k.before w)) := by
  have hfuel : ∀ tail, k.rest.length < (k.before tail).rest.length + 1 := by
    intro tail
    rw [before_rest, List.length_append]
    omega
  refine .bind (nameChars_carries hx _ _ read k (hfuel v) (hfuel w)) (fun _ _ h => ?_)
    fun ⟨out, d⟩ _ => ?_
  · dsimp only at h
    split at h
    · split at h
      · cases h
        exact Nat.le_refl _
      · cases h
    · cases h
      exact Nat.le_refl _
  · show Carries v w (if _ then if d.index - start.index == _ then _ else _ else _)
      (if _ then if d.index - start'.index == _ then _ else _ else _)
    rw [hstart]
    split
    · split
      · exact .ok (_, d)
      · exact .error
    · exact .ok (_, d)

theorem escapedName_carries {k : Cursor} (hne : k.rest ≠ []) :
    Carries v w (escapedName (k.before v)) (escapedName (k.before w)) :=
  .bind (nameEscape_carries hx hne)
    (fun _ _ h => (nameChars_leads (nameFrom_chars h).2.choose_spec).length_le)
    fun ⟨_, d⟩ _ => nameFrom_carries hx rfl _ _ d

theorem unreservedName_carries {k : Cursor} (hne : k.rest ≠ []) :
    Carries v w (unreservedName (k.before v)) (unreservedName (k.before w)) := by
  unfold unreservedName
  rw [before_skip_one hne, before_skip_one hne]
  dsimp only
  cases hrest : (k.skip 1).rest with
  | nil =>
    obtain ⟨a, more, rfl, ha⟩ := hx.left.begins (P := fun ch => isNamePart ch = false) (by decide +kernel)
    simp only [before_rest, hrest, List.nil_append, ha]
    exact .error
  | cons ch rest =>
    simp only [before_rest, hrest, List.cons_append]
    split
    · exact nameFrom_carries hx rfl _ _ _
    · exact .error

end Names

section Numerals

variable {isDigit : Char → Bool} {tail : List Char}

omit hx in
theorem digitRun_before {a : Char} {more : List Char} (ha : a ≠ '_' ∧ isDigit a = false) :
    ∀ text : List Char, digitRun isDigit (text ++ a :: more) = digitRun isDigit text
  | [] => by
    rw [List.nil_append, digitRun_cons ha.1, ha.2]
    rfl
  | ch :: text => by
    by_cases hch : ch = '_'
    · subst hch
      cases text with
      | nil => simp [digitRun, ha.2]
      | cons next text => simp only [List.cons_append, digitRun, digitRun_before ha text]
    · rw [List.cons_append, digitRun_cons hch, digitRun_cons hch, digitRun_before ha text]

theorem digits_carries (hdigit : ∀ ch ∈ gapHeads, ch ≠ '_' ∧ isDigit ch = false) (k : Cursor) :
    Carries v w (digits isDigit (k.before v)) (digits isDigit (k.before w)) := by
  have both : ∀ {tail : List Char}, Heads tail →
      digits isDigit (k.before tail) =
        if (digitRun isDigit k.rest).2 then .ok ((k.skip (digitRun isDigit k.rest).1).before tail)
        else .error (.unexpected ((k.skip (digitRun isDigit k.rest).1).before tail)) := by
    intro tail ht
    obtain ⟨a, more, rfl, ha⟩ := ht.begins hdigit
    unfold digits
    rw [before_rest, digitRun_before ha, ← before_skip (digitRun_le k.rest)]
  rw [both hx.left, both hx.right]
  split
  · exact .ok (k.skip _)
  · exact .error

omit hx in
theorem nextIs_before {p : Char → Bool} (ht : Heads tail) (hp : ∀ ch ∈ gapHeads, p ch = false)
    (k : Cursor) : nextIs p (k.before tail) = nextIs p k := by
  obtain ⟨a, more, rfl, ha⟩ := ht.begins hp
  unfold nextIs
  cases hrest : k.rest with
  | nil => simp [hrest, ha]
  | cons ch rest => simp [hrest]

theorem nextIs_same {p : Char → Bool} (hp : ∀ ch ∈ gapHeads, p ch = false) (k : Cursor) :
    nextIs p (k.before v) = nextIs p k ∧ nextIs p (k.before w) = nextIs p k :=
  ⟨nextIs_before hx.left hp k, nextIs_before hx.right hp k⟩

omit hx in
/-- The text between two places does not depend on what follows it. -/
theorem textTo_before {k d : Cursor} (h : (k.before v).Onto (d.before v)) :
    (k.before w).textTo (d.before w) = (k.before v).textTo (d.before v) := by
  obtain ⟨text, hp⟩ := h
  have hrest : k.rest = text ++ d.rest := by
    have hwhole := hp.rest
    rw [before_rest, before_rest, ← List.append_assoc] at hwhole
    exact List.append_cancel_right hwhole
  have hindex : d.index = k.index + Utf8.byteLength text := hp.index
  unfold textTo
  simp only [before_rest, before_index, hrest, hindex, Nat.add_sub_cancel_left, List.append_assoc,
    Utf8.takeBytes_append]

theorem radixLiteral_carries (radix : Nat) (hnarrow : ∀ ch, isDigit ch = true → Narrow ch)
    (hdigit : ∀ ch ∈ gapHeads, ch ≠ '_' ∧ isDigit ch = false) {k : Cursor} (hne : k.rest ≠ []) :
    Carries v w (radixLiteral radix isDigit (k.before v)) (radixLiteral radix isDigit (k.before w)) := by
  obtain ⟨hv, hw⟩ := nextIs_same hx (fun ch hch => (hdigit ch hch).2) (k.skip 1)
  unfold radixLiteral
  dsimp only
  rw [before_skip_one hne, before_skip_one hne, hv, hw]
  split
  · exact .error
  · refine .bind (digits_carries hx hdigit _) (fun _ _ h => ?_) fun d hd => ?_
    · cases h
      exact Nat.le_refl _
    · have honto := digits_covers hnarrow ((k.skip 1).before v)
      rw [hd] at honto
      have htext : ((k.skip 1).before w).textTo (Ending.before w d) = _ := textTo_before honto
      rw [htext]
      exact .ok (_, d)

theorem exponentPart_carries (k : Cursor) :
    Carries v w (exponentPart (k.before v)) (exponentPart (k.before w)) := by
  have hdigit : ∀ ch ∈ gapHeads, ch ≠ '_' ∧ CharClass.isDecimalDigit ch = false := by decide
  have hdecimal := fun d => nextIs_same hx (fun ch hch => (hdigit ch hch).2) d
  obtain ⟨hv, hw⟩ := nextIs_same hx (p := Decimal.isExponentMark) (by decide) k
  unfold exponentPart
  rw [hv, hw]
  split
  · rename_i hmark
    have hne : k.rest ≠ [] := List.length_pos_iff.mp (nextIs_length hmark)
    obtain ⟨hv', hw'⟩ := nextIs_same hx (p := fun ch => ch == '+' || ch == '-') (by decide) (k.skip 1)
    dsimp only
    rw [before_skip_one hne, before_skip_one hne, hv', hw']
    have signed : ∀ tail, (if nextIs (fun ch => ch == '+' || ch == '-') (k.skip 1) then
        ((k.skip 1).before tail).skip 1 else (k.skip 1).before tail) =
        (if nextIs (fun ch => ch == '+' || ch == '-') (k.skip 1) then (k.skip 1).skip 1
          else k.skip 1).before tail := by
      intro tail
      split
      · rename_i hsign
        exact before_skip_one (List.length_pos_iff.mp (nextIs_length hsign))
      · rfl
    rw [signed, signed, (hdecimal _).1, (hdecimal _).2]
    generalize (if nextIs (fun ch => ch == '+' || ch == '-') (k.skip 1) then (k.skip 1).skip 1
      else k.skip 1) = inside
    split
    · exact digits_carries hx hdigit _
    · exact .error
  · exact .ok k

theorem fractionPart_carries (k : Cursor) :
    Carries v w (fractionPart (k.before v)) (fractionPart (k.before w)) := by
  obtain ⟨hv, hw⟩ := nextIs_same hx (p := (· == '.')) (by decide) k
  unfold fractionPart
  rw [hv, hw]
  split
  · rename_i hdot
    have hne : k.rest ≠ [] := List.length_pos_iff.mp (nextIs_length hdot)
    rw [before_skip_one hne, before_skip_one hne]
    exact digits_carries hx (by decide) _
  · exact .ok k

/-- A number that ends with an exponent is made of the text in front of either tail. -/
theorem exponentEnd_carries {start k : Cursor} (honto : (start.before v).Onto (k.before v)) :
    Carries v w
      (do
        let d ← exponentPart (k.before v)
        let number := Decimal.parse (withoutSeparators ((start.before v).textTo d))
        pure ({ kind := .number, number : Lexeme }, d))
      (do
        let d ← exponentPart (k.before w)
        let number := Decimal.parse (withoutSeparators ((start.before w).textTo d))
        pure ({ kind := .number, number : Lexeme }, d)) := by
  refine .bind (exponentPart_carries hx k) (fun _ _ h => ?_) fun d hd => ?_
  · cases h
    exact Nat.le_refl _
  · have hexponent := exponentPart_covers (k.before v)
    have hkd : Covers id (k.before v) (.ok (d.before v)) := hd ▸ hexponent
    have htext : (start.before w).textTo (Ending.before w d) = _ := textTo_before (honto.trans hkd)
    rw [htext]
    exact .ok (_, d)

omit hx in
theorem exponentEnd_length {read : Cursor → Lexeme} {c : Cursor} {out : Lexeme × Cursor}
    (h : (exponentPart c >>= fun d => pure (read d, d)) = .ok out) : out.2.rest.length ≤ c.rest.length := by
  obtain ⟨_, hexponent, hpure⟩ := ok_of_bind h
  cases hpure
  exact (exponentPart_leads hexponent).length_le

theorem decimalFrom_carries {start k : Cursor} (honto : (start.before v).Onto (k.before v)) :
    Carries v w (decimalFrom (start.before v) (k.before v))
      (decimalFrom (start.before w) (k.before w)) := by
  refine .bind (fractionPart_carries hx k) (fun _ _ => exponentEnd_length) fun d hd => ?_
  have hfraction := fractionPart_covers (k.before v)
  rw [hd] at hfraction
  exact exponentEnd_carries hx (honto.trans hfraction)

theorem numberLiteral_carries {k : Cursor} {ch : Char} {rest : List Char} (hrest : k.rest = ch :: rest)
    (hch : CharClass.isDecimalDigit ch = true) :
    Carries v w (numberLiteral (k.before v)) (numberLiteral (k.before w)) := by
  have hne : k.rest ≠ [] := by simp [hrest]
  have hdecimal : ∀ ch ∈ gapHeads, ch ≠ '_' ∧ CharClass.isDecimalDigit ch = false := by decide
  have hskip : (k.before v).Onto ((k.skip 1).before v) := by
    rw [← before_skip_one hne]
    have hbegins : (k.before v).rest = ch :: (rest ++ v) := by simp [hrest]
    exact onto_skip_one hbegins (.isDecimalDigit hch)
  have whole : Carries v w
      (digits CharClass.isDecimalDigit ((k.skip 1).before v) >>= decimalFrom (k.before v))
      (digits CharClass.isDecimalDigit ((k.skip 1).before w) >>= decimalFrom (k.before w)) := by
    refine .bind (digits_carries hx hdecimal _) (fun _ _ h => (decimalFrom_leads h).2.length_le)
      fun d hd => ?_
    have honto := digits_covers (fun _ => .isDecimalDigit) ((k.skip 1).before v)
    rw [hd] at honto
    exact decimalFrom_carries hx (hskip.trans honto)
  have same : ∀ {p : Char → Bool}, (∀ ch ∈ gapHeads, p ch = false) → ∀ d,
      nextIs p (d.before v) = nextIs p d ∧ nextIs p (d.before w) = nextIs p d :=
    fun hp d => nextIs_same hx hp d
  have hzero := same (p := (· == '0')) (by decide) k
  have hsixteen := same (p := fun ch => ch == 'x' || ch == 'X') (by decide) (k.skip 1)
  have htwo := same (p := fun ch => ch == 'b' || ch == 'B') (by decide) (k.skip 1)
  have hdigit := same (p := CharClass.isDecimalDigit) (fun ch hch => (hdecimal ch hch).2) (k.skip 1)
  unfold numberLiteral
  dsimp only
  rw [before_skip_one hne, before_skip_one hne, hzero.1, hzero.2, hsixteen.1, hsixteen.2, htwo.1,
    htwo.2, hdigit.1, hdigit.2]
  split
  · split
    · rename_i hletter
      exact radixLiteral_carries hx 16 (fun _ => .isHexDigit) (by decide)
        (List.length_pos_iff.mp (nextIs_length hletter))
    · split
      · rename_i hletter
        exact radixLiteral_carries hx 2 (fun _ => .isBinaryDigit) (by decide)
          (List.length_pos_iff.mp (nextIs_length hletter))
      · split
        · exact .error
        · exact whole
  · exact whole

theorem fractionLiteral_carries {k : Cursor} {rest : List Char} (hrest : k.rest = '.' :: rest)
    (hnext : nextIs CharClass.isDecimalDigit (k.skip 1) = true) :
    Carries v w (fractionLiteral (k.before v)) (fractionLiteral (k.before w)) := by
  have hlength : 2 ≤ k.rest.length := by
    have hinside := nextIs_length hnext
    simp only [skip, List.length_drop] at hinside
    omega
  have hskip : (k.before v).Onto ((k.skip 2).before v) := by
    obtain ⟨ch, more, hmore, hch⟩ := nextIs_rest hnext
    have hspelled : k.rest = ['.', ch] ++ more := by
      simp only [skip, hrest, List.drop_succ_cons, List.drop_zero] at hmore
      rw [hrest, hmore]
      rfl
    rw [← before_skip hlength]
    have hnarrow : AllNarrow ['.', ch] := by
      intro d hd
      simp only [List.mem_cons, List.not_mem_nil, or_false] at hd
      rcases hd with rfl | rfl
      · decide
      · exact .isDecimalDigit hch
    have hbegins : (k.before v).rest = ['.', ch] ++ (more ++ v) := by simp [hspelled]
    exact ⟨_, passes_skip hbegins hnarrow⟩
  unfold fractionLiteral
  rw [before_skip hlength, before_skip hlength]
  refine .bind (digits_carries hx (by decide) _) (fun _ _ => exponentEnd_length) fun d hd => ?_
  have hdigits := digits_covers (fun _ => .isDecimalDigit) ((k.skip 2).before v)
  rw [hd] at hdigits
  exact exponentEnd_carries hx (hskip.trans hdigits)

end Numerals

section Strings

variable {quote : Char}

theorem stringEscape_carries {k : Cursor} (hne : k.rest ≠ []) :
    Carries v w (stringEscape (k.before v)) (stringEscape (k.before w)) := by
  unfold stringEscape
  rw [before_skip_one hne, before_skip_one hne]
  dsimp only
  cases hrest : (k.skip 1).rest with
  | nil =>
    obtain ⟨a, more, rfl, hletter, hnamed, hline⟩ := hx.left.begins (P := fun ch =>
      (ch == 'u' || ch == 'x') = false ∧ namedEscape? ch = none ∧
        CharClass.isLineTerminator ch = false) (by decide)
    have hinside : ((k.skip 1).before (a :: more)).rest = a :: more := by simp [hrest]
    simp only [hinside, hletter, hnamed, (newline?_eq_none hinside).mpr hline]
    refine .of_short fun value hvalue => ?_
    cases hvalue
    have hadvance : ((k.skip 1).before (a :: more)).advance.rest = more := by
      unfold advance
      rw [hinside]
    show ((k.skip 1).before (a :: more)).advance.rest.length < _
    rw [hadvance]
    exact Nat.lt_succ_self _
  | cons ch rest =>
    have hne' : (k.skip 1).rest ≠ [] := by simp [hrest]
    simp only [before_rest, hrest, List.cons_append]
    split
    · refine .bind (escapedChar_carries hx _) (fun _ _ h => ?_) fun ⟨value, d⟩ _ => ?_
      · cases h
        exact Nat.le_refl _
      · exact .ok (some value, d)
    · cases namedEscape? ch with
      | some value =>
        dsimp only
        rw [before_skip_one hne', before_skip_one hne']
        exact .ok (some value, (k.skip 1).skip 1)
      | none =>
        dsimp only
        rw [before_newline? hx.left, before_newline? hx.right, before_advance hne', before_advance hne']
        cases (k.skip 1).newline? with
        | some d => exact .ok (none, d)
        | none => exact .ok (some ch, (k.skip 1).advance)

omit hx in
/-- What is still behind a cursor where more has been passed than there was in front of the tail. -/
theorem length_of_leads {k d : Cursor} {tail : List Char} (h : ((k.before tail).skip 1).Leads (d.before tail))
    (hne : k.rest ≠ []) : d.rest.length < k.rest.length := by
  have hlength := h.length_le
  rw [before_skip_one hne] at hlength
  have hpos := List.length_pos_iff.mpr hne
  simp only [before_rest, List.length_append, skip, List.length_drop] at hlength
  omega

theorem quotedBody_carries (hquote : quote ∉ gapHeads ∧ Solid quote) :
    ∀ (fuel fuel' : Nat) (read : QuotedText) (k : Cursor), k.rest.length < fuel' →
      Carries v w (quotedBody quote fuel read (k.before v)) (quotedBody quote fuel' read (k.before w))
  | 0, _, _, _, _ => .error
  | _ + 1, 0, _, _, h => absurd h (Nat.not_lt_zero _)
  | fuel + 1, fuel' + 1, read, k, h => by
    cases hrest : k.rest with
    | nil =>
      refine .of_short fun a ha => ?_
      have hless := (quotedBody_firm hquote.2 ha).length_lt
      rwa [before_rest, hrest, List.nil_append] at hless
    | cons ch rest =>
      have hne : k.rest ≠ [] := by simp [hrest]
      unfold quotedBody
      simp only [before_rest, hrest, List.cons_append]
      split
      · rw [before_skip_one hne, before_skip_one hne]
        exact .ok (read, k.skip 1)
      · split
        · refine .bind (stringEscape_carries hx hne) (fun _ _ hread => (quotedBody_leads hread).length_le)
            fun ⟨value, d⟩ hread => ?_
          have hless := length_of_leads (d := d) (stringEscape_leads hread) hne
          exact quotedBody_carries hquote fuel fuel' _ d (by omega)
        · rw [before_newline? hx.left, before_newline? hx.right, before_advance hne, before_advance hne]
          cases hline : k.newline? with
          | some d =>
            have hless := newline?_shorter hne hline
            exact quotedBody_carries hquote fuel fuel' _ d (by omega)
          | none =>
            have hless := advance_shorter hne
            exact quotedBody_carries hquote fuel fuel' _ k.advance (by omega)

theorem blockBody_carries (hquote : quote ∉ gapHeads ∧ Solid quote) :
    ∀ (fuel fuel' : Nat) (read : BlockText) (k : Cursor), k.rest.length < fuel' →
      Carries v w (blockBody quote fuel read (k.before v)) (blockBody quote fuel' read (k.before w))
  | 0, _, _, _, _ => .error
  | _ + 1, 0, _, _, h => absurd h (Nat.not_lt_zero _)
  | fuel + 1, fuel' + 1, read, k, h => by
    have hmark : ∀ ch ∈ [quote, quote, quote].tail, ch ∉ gapHeads := by
      intro ch hch
      simp only [List.tail_cons, List.mem_cons, List.not_mem_nil, or_false, or_self] at hch
      exact hch ▸ hquote.1
    cases hrest : k.rest with
    | nil =>
      refine .of_short fun a ha => ?_
      have hless := (blockBody_firm hquote.2 ha).length_lt
      rwa [before_rest, hrest, List.nil_append] at hless
    | cons ch rest =>
      have hne : k.rest ≠ [] := by simp [hrest]
      unfold blockBody
      rw [before_startsWith hx.left hmark hne, before_startsWith hx.right hmark hne]
      simp only [before_rest, hrest, List.cons_append]
      split
      · rename_i hclose
        have hlength : 3 ≤ k.rest.length := startsWith_length hclose
        rw [before_skip hlength, before_skip hlength]
        exact .ok (_, k.skip 3)
      · split
        · refine .bind (stringEscape_carries hx hne) (fun _ _ hread => (blockBody_leads hread).length_le)
            fun ⟨value, d⟩ hread => ?_
          have hless := length_of_leads (d := d) (stringEscape_leads hread) hne
          exact blockBody_carries hquote fuel fuel' _ d (by omega)
        · rw [before_newline? hx.left, before_newline? hx.right, before_advance hne, before_advance hne]
          cases hline : k.newline? with
          | some d =>
            have hless := newline?_shorter hne hline
            exact blockBody_carries hquote fuel fuel' _ d (by omega)
          | none =>
            have hless := advance_shorter hne
            exact blockBody_carries hquote fuel fuel' _ k.advance (by omega)

theorem blockLiteral_carries (hquote : quote ∉ gapHeads ∧ Solid quote) (k : Cursor) :
    Carries v w (blockLiteral quote (k.before v)) (blockLiteral quote (k.before w)) := by
  have inside : ∀ tail : List Char, (k.newline?.map (·.before tail)).getD (k.before tail) =
      (k.newline?.getD k).before tail := by
    intro tail
    cases k.newline? <;> rfl
  unfold blockLiteral
  dsimp only
  rw [before_newline? hx.left, before_newline? hx.right, inside, inside, Option.isSome_map,
    Option.isSome_map]
  refine .bind (blockBody_carries hx hquote _ _ _ _ ?_) (fun _ _ h => ?_) fun ⟨read, d⟩ _ => ?_
  · simp only [before_rest, List.length_append]
    omega
  · cases h
    exact Nat.le_refl _
  · exact .ok (_, d)

theorem stringLiteral_carries (hquote : quote ∉ gapHeads ∧ Solid quote) {k : Cursor}
    (hne : k.rest ≠ []) :
    Carries v w (stringLiteral quote (k.before v)) (stringLiteral quote (k.before w)) := by
  have hmark : ∀ ch ∈ [quote, quote, quote].tail, ch ∉ gapHeads := by
    intro ch hch
    simp only [List.tail_cons, List.mem_cons, List.not_mem_nil, or_false, or_self] at hch
    exact hch ▸ hquote.1
  unfold stringLiteral
  rw [before_startsWith hx.left hmark hne, before_startsWith hx.right hmark hne]
  split
  · rename_i hopen
    have hlength : 3 ≤ k.rest.length := startsWith_length hopen
    rw [before_skip hlength, before_skip hlength]
    exact blockLiteral_carries hx hquote _
  · dsimp only
    rw [before_skip_one hne, before_skip_one hne]
    refine .bind (quotedBody_carries hx hquote _ _ _ _ ?_) (fun _ _ h => ?_) fun ⟨read, d⟩ _ => ?_
    · simp only [before_rest, List.length_append]
      omega
    · split at h
      · cases h
      · cases h
        exact Nat.le_refl _
    · show Carries v w (if read.broken then _ else _) (if read.broken then _ else _)
      split
      · exact .error
      · exact .ok (_, d)

end Strings

section Lexemes

omit hx in
theorem spelled_watched : ∀ entry ∈ spelledChars, Watched entry.1 := by decide +kernel

/-- A mark that stands in front of the first tail stands in front of the second one, and no longer one
does. -/
theorem punctuation?_carries {k d : Cursor} {l : Lexeme} (hne : k.rest ≠ [])
    (h : punctuation? (k.before v) = some (l, d)) (hlong : v.length ≤ d.rest.length) :
    ∃ e : Cursor, d = e.before v ∧ punctuation? (k.before w) = some (l, e.before w) := by
  unfold punctuation? at h ⊢
  obtain ⟨entry, hfind, heq⟩ := Option.map_eq_some_iff.mp h
  cases heq
  obtain ⟨hstarts, earlier, later, hsplit, hearlier⟩ := List.find?_eq_some_iff_append.mp hfind
  have hlength : entry.1.length ≤ k.rest.length := by
    have hwhole := startsWith_length hstarts
    simp only [skip, before_rest, List.length_drop, List.length_append] at hlong hwhole
    omega
  have hin : entry.1 <+: k.rest :=
    List.prefix_of_prefix_length_le (startsWith_iff.mp hstarts) (List.prefix_append _ _) hlength
  refine ⟨k.skip entry.1.length, before_skip hlength, ?_⟩
  have hfound : spelledChars.find? (fun entry => (k.before w).startsWith entry.1) = some entry := by
    refine List.find?_eq_some_iff_append.mpr ⟨?_, earlier, later, hsplit, fun other hother => ?_⟩
    · exact startsWith_iff.mpr (hin.trans (List.prefix_append _ _))
    · have hmem : other ∈ spelledChars := by
        rw [hsplit]
        exact List.mem_append_left _ hother
      have hnot := hearlier other hother
      simp only [Bool.not_eq_true', Bool.eq_false_iff] at hnot ⊢
      exact fun hstands => hnot (hx.startsWith (spelled_watched other hmem) hne hstands)
  rw [hfound, Option.map_some, before_skip hlength]

/-- Where no mark stands in front of the first tail, none stands in front of the second one. -/
theorem punctuation?_none_carries {k : Cursor} (hne : k.rest ≠ [])
    (h : punctuation? (k.before v) = none) : punctuation? (k.before w) = none := by
  unfold punctuation? at h ⊢
  rw [Option.map_eq_none_iff, List.find?_eq_none] at h ⊢
  exact fun entry hentry hstands =>
    h entry hentry (hx.startsWith (spelled_watched entry hentry) hne hstands)

theorem otherLexeme_carries {k : Cursor} {ch : Char} {rest : List Char} (hrest : k.rest = ch :: rest) :
    Carries v w (otherLexeme ch (k.before v)) (otherLexeme ch (k.before w)) := by
  have hne : k.rest ≠ [] := by simp [hrest]
  obtain ⟨hv, hw⟩ := nextIs_same hx (p := CharClass.isDecimalDigit) (by decide) (k.skip 1)
  unfold otherLexeme
  rw [before_skip_one hne, before_skip_one hne, hv, hw]
  split
  · rename_i hdot
    split
    · rename_i hnext
      exact fractionLiteral_carries hx (eq_of_beq hdot ▸ hrest) hnext
    · exact .ok (_, k.skip 1)
  · split
    · rename_i hquote
      simp only [Bool.or_eq_true, beq_iff_eq] at hquote
      rcases hquote with rfl | rfl <;> exact stringLiteral_carries hx (by decide) hne
    · split
      · exact unreservedName_carries hx hne
      · split
        · exact escapedName_carries hx hne
        · exact .error

/-- A lexeme that ends in front of the first tail is read in front of the second one. -/
theorem lexeme_carries (k : Cursor) : Carries v w (lexeme (k.before v)) (lexeme (k.before w)) := by
  cases hrest : k.rest with
  | nil =>
    refine .of_short fun ⟨l, d⟩ h => ?_
    have hsame : (k.before v).rest = v := by simp [hrest]
    refine hsame ▸ (lexeme_firm h fun hkind => ?_).length_lt
    have hnil := (lexeme_weight h).1.resolve_right fun hproper => hproper hkind
    obtain ⟨a, more, hv, -⟩ := hx.left
    simp [hv] at hnil
  | cons ch rest =>
    have hne : k.rest ≠ [] := by simp [hrest]
    unfold lexeme
    simp only [before_rest, hrest, List.cons_append]
    split
    · exact nameFrom_carries hx rfl _ _ k
    · split
      · rename_i hdigit
        exact numberLiteral_carries hx hrest hdigit
      · cases hmark : punctuation? (k.before v) with
        | none =>
          rw [punctuation?_none_carries hx hne hmark]
          exact otherLexeme_carries hx hrest
        | some reading =>
          rintro _ ⟨⟩ hlong
          obtain ⟨e, he, hfound⟩ := punctuation?_carries hx hne hmark hlong
          refine ⟨(reading.1, e), Prod.ext rfl he, ?_⟩
          rw [hfound]
          rfl

end Lexemes

section RegularExpressions

omit hx in
theorem passAny_leads_skip {c d : Cursor} (h : passAny c = .ok d) : (c.skip 1).Leads d := by
  unfold passAny at h
  split at h
  · rename_i hline
    cases h
    exact .newline hline
  · split at h
    · cases h
    · cases h
      exact .of_advance (.refl _)

theorem passAny_carries {k : Cursor} (hne : k.rest ≠ []) :
    Carries v w (passAny (k.before v)) (passAny (k.before w)) := by
  have hend : ∀ tail : List Char, (k.before tail).atEnd = false := by
    intro tail
    obtain ⟨ch, rest, hrest⟩ := List.exists_cons_of_ne_nil hne
    simp [atEnd, hrest]
  unfold passAny
  rw [before_newline? hx.left, before_newline? hx.right, hend, hend, before_advance hne,
    before_advance hne]
  cases k.newline? with
  | some d => exact .ok d
  | none => exact .ok k.advance

theorem regularBody_carries : ∀ (fuel fuel' : Nat) (k : Cursor), k.rest.length < fuel' →
    Carries v w (regularBody fuel (k.before v)) (regularBody fuel' (k.before w))
  | 0, _, _, _ => .error
  | _ + 1, 0, _, h => absurd h (Nat.not_lt_zero _)
  | fuel + 1, fuel' + 1, k, h => by
    cases hrest : k.rest with
    | nil =>
      refine .of_short fun a ha => ?_
      have hless := (regularBody_firm ha).length_lt
      rwa [before_rest, hrest, List.nil_append] at hless
    | cons ch rest =>
      have hne : k.rest ≠ [] := by simp [hrest]
      have hescape : ∀ {tail}, Heads tail → (k.before tail).startsWith ['\\'] = k.startsWith ['\\'] :=
        fun ht => before_startsWith ht (by simp) hne
      have hslash : ∀ {tail}, Heads tail → (k.before tail).startsWith ['/'] = k.startsWith ['/'] :=
        fun ht => before_startsWith ht (by simp) hne
      unfold regularBody
      rw [hescape hx.left, hescape hx.right, hslash hx.left, hslash hx.right, before_skip_one hne,
        before_skip_one hne]
      rw [hrest, List.length_cons] at h
      split
      · cases hrest' : (k.skip 1).rest with
        | nil =>
          refine .of_short fun d hd => ?_
          obtain ⟨e, he, hmore⟩ := ok_of_bind hd
          have hless := ((regularBody_firm hmore).after (passAny_leads he)).length_lt
          rwa [before_rest, hrest', List.nil_append] at hless
        | cons next more =>
          have hne' : (k.skip 1).rest ≠ [] := by simp [hrest']
          refine .bind (passAny_carries hx hne') (fun _ _ hread => (regularBody_leads hread).length_le)
            fun d hd => ?_
          have hless := (passAny_leads hd).length_le
          simp only [before_rest, List.length_append, skip, hrest, List.drop_succ_cons, List.drop_zero,
            Ending.before] at hless
          exact regularBody_carries fuel fuel' d (by omega)
      · split
        · exact .ok (k.skip 1)
        · refine .bind (passAny_carries hx hne) (fun _ _ hread => (regularBody_leads hread).length_le)
            fun d hd => ?_
          have hless := length_of_leads (d := d) (passAny_leads_skip hd) hne
          rw [hrest, List.length_cons] at hless
          exact regularBody_carries fuel fuel' d (by omega)

theorem regularFlags_carries (k : Cursor) :
    Carries v w (regularFlags (k.before v)) (regularFlags (k.before w)) := by
  have hfuel : ∀ tail, k.rest.length < (k.before tail).rest.length + 1 := by
    intro tail
    rw [before_rest, List.length_append]
    omega
  refine .bind (nameChars_carries hx _ _ [] k (hfuel v) (hfuel w)) (fun _ _ h => ?_)
    fun ⟨out, d⟩ _ => ?_
  · cases h
    exact Nat.le_refl _
  · exact .ok (out.reverse, d)

end RegularExpressions

end Scan

end ActionSyntax
