import ActionSyntax.Proofs.Places.LineEnd
import ActionSyntax.Proofs.Places.Lines
import ActionSyntax.Proofs.ScanSuffix

/-!
What a cursor passes. From one cursor to the next stands a text; the later one has counted its bytes
and its lines, and does not stand inside a pair of carriage return and line feed. Every step of the
scanner inside a lexeme goes on like that, whether it succeeds or fails.
-/

namespace ActionSyntax

set_option autoImplicit false

open Utf8

/-- A character of one byte that ends no line. -/
def Narrow (ch : Char) : Prop := ch.utf8Size = 1 ∧ CharClass.isLineTerminator ch = false

namespace Narrow

instance (ch : Char) : Decidable (Narrow ch) := inferInstanceAs (Decidable (_ ∧ _))

theorem of_visible {ch : Char} (hlow : 32 ≤ ch.toNat) (hhigh : ch.toNat < 128) : Narrow ch := by
  constructor
  · have hle : ch.val ≤ 127 := by
      rw [UInt32.le_iff_toNat_le]
      exact Nat.le_of_lt_succ hhigh
    unfold Char.utf8Size
    exact if_pos hle
  · rw [Bool.eq_false_iff]
    intro h
    rw [LineSearch.isLineTerminator_iff] at h
    omega

theorem of_between {lo hi ch : Char} (hlo : 32 ≤ lo.toNat) (hhi : hi.toNat < 128) (hl : lo ≤ ch)
    (hh : ch ≤ hi) : Narrow ch := by
  rw [Char.le_def, UInt32.le_iff_toNat_le] at hl hh
  exact of_visible (Nat.le_trans hlo hl) (Nat.lt_of_le_of_lt hh hhi)

theorem hexDigit {ch : Char} {v : Nat} (h : CharClass.hexDigitValue? ch = some v) : Narrow ch := by
  unfold CharClass.hexDigitValue? at h
  split at h
  · rename_i hr
    simp only [Bool.and_eq_true, decide_eq_true_eq] at hr
    exact of_between (by decide) (by decide) hr.1 hr.2
  · split at h
    · rename_i hr
      simp only [Bool.and_eq_true, decide_eq_true_eq] at hr
      exact of_between (by decide) (by decide) hr.1 hr.2
    · split at h
      · rename_i hr
        simp only [Bool.and_eq_true, decide_eq_true_eq] at hr
        exact of_between (by decide) (by decide) hr.1 hr.2
      · cases h

theorem isHexDigit {ch : Char} (h : CharClass.isHexDigit ch = true) : Narrow ch := by
  obtain ⟨v, hv⟩ := Option.isSome_iff_exists.mp h
  exact hexDigit hv

theorem isDecimalDigit {ch : Char} (h : CharClass.isDecimalDigit ch = true) : Narrow ch := by
  simp only [CharClass.isDecimalDigit, Bool.and_eq_true, decide_eq_true_eq] at h
  exact of_between (by decide) (by decide) h.1 h.2

theorem isBinaryDigit {ch : Char} (h : CharClass.isBinaryDigit ch = true) : Narrow ch := by
  simp only [CharClass.isBinaryDigit, Bool.or_eq_true, beq_iff_eq] at h
  rcases h with rfl | rfl <;> decide

end Narrow

/-- A text of narrow characters. To decide it, only those of the text are looked at. -/
def AllNarrow (text : List Char) : Prop := ∀ ch ∈ text, Narrow ch

instance (text : List Char) : Decidable (AllNarrow text) :=
  decidable_of_iff ((text.all fun ch => decide (Narrow ch)) = true) (by simp [AllNarrow])

theorem AllNarrow.plain {text : List Char} (h : AllNarrow text) :
    ∀ ch ∈ text, CharClass.isLineTerminator ch = false := fun ch hch => (h ch hch).2

theorem CharClass.not_lineTerminator_of_blank {ch : Char} (h : isBlank ch = true) :
    isLineTerminator ch = false := by
  rw [Bool.eq_false_iff]
  intro hl
  rw [not_blank_of_lineTerminator hl] at h
  cases h

theorem CharClass.not_lineTerminator_of_part {ch : Char} (h : isIdentifierPart ch = true) :
    isLineTerminator ch = false := by
  rw [Bool.eq_false_iff]
  intro hl
  simp only [isLineTerminator, Bool.or_eq_true, beq_iff_eq] at hl
  rcases hl with ((rfl | rfl) | rfl) | rfl <;> revert h <;> decide +kernel

namespace Cursor

/-- Between the cursors stand the text and, as noted, the comments. -/
structure Passes (c : Cursor) (text : List Char) (comments : List Comment) (d : Cursor) :
    Prop where
  rest : c.rest = text ++ d.rest
  index : d.index = c.index + byteLength text
  line : d.line = c.line + (Lines.ends c.index text).length
  lines : d.passedLines = (Lines.ends c.index text).reverse ++ c.passedLines
  noted : d.passedComments = comments.reverse ++ c.passedComments
  whole : ¬ Lines.Splits text d.rest

/-- The second cursor is reached from the first without passing a comment. -/
def Onto (c d : Cursor) : Prop := ∃ text, c.Passes text [] d

variable {c d e : Cursor}

theorem Passes.refl (c : Cursor) : c.Passes [] [] c where
  rest := rfl
  index := rfl
  line := rfl
  lines := rfl
  noted := rfl
  whole := Lines.not_splits_nil _

theorem Passes.trans {a b : List Char} {m n : List Comment} (hcd : c.Passes a m d)
    (hde : d.Passes b n e) : c.Passes (a ++ b) (m ++ n) e := by
  have hwhole : ¬ Lines.Splits a (b ++ e.rest) := hde.rest ▸ hcd.whole
  have hends : Lines.ends c.index (a ++ b) = Lines.ends c.index a ++ Lines.ends d.index b := by
    rw [Lines.ends_append (Lines.not_splits_left hwhole), hcd.index]
  constructor
  · rw [hcd.rest, hde.rest, List.append_assoc]
  · rw [hde.index, hcd.index, byteLength_append, Nat.add_assoc]
  · rw [hde.line, hcd.line, hends, List.length_append, Nat.add_assoc]
  · rw [hde.lines, hcd.lines, hends, List.reverse_append, List.append_assoc]
  · rw [hde.noted, hcd.noted, List.reverse_append, List.append_assoc]
  · exact Lines.not_splits_append hwhole hde.whole

namespace Onto

theorem refl (c : Cursor) : c.Onto c := ⟨[], .refl c⟩

theorem trans (hcd : c.Onto d) (hde : d.Onto e) : c.Onto e := by
  obtain ⟨a, ha⟩ := hcd
  obtain ⟨b, hb⟩ := hde
  exact ⟨a ++ b, ha.trans hb⟩

end Onto

/-- Characters that end no line are passed. -/
theorem Passes.of_plain {text : List Char} (hrest : c.rest = text ++ d.rest)
    (hindex : d.index = c.index + byteLength text) (hline : d.line = c.line)
    (hlines : d.passedLines = c.passedLines) (hnoted : d.passedComments = c.passedComments)
    (hplain : ∀ ch ∈ text, CharClass.isLineTerminator ch = false) : c.Passes text [] d := by
  have hends := Lines.ends_of_forall_not hplain c.index
  refine ⟨hrest, hindex, by simp [hline, hends], by simp [hlines, hends], hnoted, ?_⟩
  rintro ⟨hlast, -⟩
  have := hplain '\r' (List.mem_of_getLast? hlast)
  revert this
  decide

theorem byteLength_narrow : ∀ {text : List Char}, (∀ ch ∈ text, Narrow ch) →
    byteLength text = text.length
  | [], _ => rfl
  | ch :: text, h => by
    rw [byteLength_cons, (h ch (by simp)).1, byteLength_narrow fun d hd => h d (by simp [hd]),
      List.length_cons, Nat.add_comm]

theorem passes_skip {text rest : List Char} (h : c.rest = text ++ rest)
    (hnarrow : AllNarrow text) : c.Passes text [] (c.skip text.length) := by
  refine .of_plain ?_ ?_ rfl rfl rfl fun ch hch => (hnarrow ch hch).2
  · simp [Cursor.skip, h]
  · simp [Cursor.skip, byteLength_narrow hnarrow]

theorem onto_skip_one {ch : Char} {rest : List Char} (h : c.rest = ch :: rest) (hch : Narrow ch) :
    c.Onto (c.skip 1) :=
  by
  have hpasses : c.Passes [ch] [] (c.skip [ch].length) :=
    passes_skip h fun d hd => by rwa [List.mem_singleton.mp hd]
  exact ⟨[ch], hpasses⟩

theorem skip_skip (c : Cursor) (m n : Nat) : (c.skip m).skip n = c.skip (m + n) := by
  simp [skip, Nat.add_assoc]

theorem startsWith_iff {text : List Char} : c.startsWith text = true ↔ text <+: c.rest :=
  List.isPrefixOf_iff_prefix

theorem passes_skip_startsWith {text : List Char} (h : c.startsWith text = true)
    (hnarrow : AllNarrow text) : c.Passes text [] (c.skip text.length) := by
  obtain ⟨rest, hrest⟩ := List.isPrefixOf_iff_prefix.mp h
  exact passes_skip hrest.symm hnarrow

theorem onto_skip_startsWith {text : List Char} (h : c.startsWith text = true)
    (hnarrow : AllNarrow text) : c.Onto (c.skip text.length) :=
  ⟨text, passes_skip_startsWith h hnarrow⟩

theorem passes_advance {ch : Char} {rest : List Char} (h : c.rest = ch :: rest)
    (hch : CharClass.isLineTerminator ch = false) : c.Passes [ch] [] c.advance := by
  have hadvance : c.advance = { c with rest, index := c.index + ch.utf8Size } := by
    unfold Cursor.advance
    rw [h]
  rw [hadvance]
  exact .of_plain h (by simp) rfl rfl rfl fun d hd => by rwa [List.mem_singleton.mp hd]

/-- A line terminator is passed as a whole. -/
theorem passes_startLine {text rest : List Char} (h : c.rest = text ++ rest)
    (hends : Lines.ends c.index text = [c.index + byteLength text])
    (hwhole : ¬ Lines.Splits text rest) : c.Passes text [] (c.startLine rest (byteLength text)) where
  rest := h
  index := rfl
  line := by simp [hends, startLine]
  lines := by simp [hends, startLine]
  noted := rfl
  whole := hwhole

/-- The spellings of a line terminator. -/
def terminators : List (List Char) := [['\r', '\n'], ['\n'], ['\r'], ['\u2028'], ['\u2029']]

theorem newline?_passes (h : c.newline? = some d) :
    ∃ text ∈ terminators, c.Passes text [] d := by
  unfold Cursor.newline? at h
  split at h
  · cases h
  · rename_i rest heq
    cases h
    exact ⟨['\r', '\n'], by decide, passes_startLine heq (by simp [Lines.ends, Lines.endsLine]; rfl)
      (Lines.not_splits_of_last (by decide) ['\r'] rest)⟩
  · rename_i ch rest hpair heq
    split at h
    · rename_i hch
      cases h
      have hwhole : ¬ Lines.Splits [ch] rest := by
        rintro ⟨hlast, hhead⟩
        cases rest with
        | nil => cases hhead
        | cons next rest =>
          cases Option.some.inj hlast
          cases Option.some.inj hhead
          exact hpair rest rfl rfl
      have hends : Lines.ends c.index [ch] = [c.index + byteLength [ch]] := by
        simp [Lines.ends, Lines.endsLine, hch]
      refine ⟨[ch], ?_, by simpa using passes_startLine heq hends hwhole⟩
      simp only [CharClass.isLineTerminator, Bool.or_eq_true, beq_iff_eq] at hch
      rcases hch with ((rfl | rfl) | rfl) | rfl <;> decide
    · cases h

theorem onto_newline (h : c.newline? = some d) : c.Onto d :=
  have ⟨text, _, hp⟩ := newline?_passes h
  ⟨text, hp⟩

theorem newline?_eq_none {ch : Char} {rest : List Char} (hrest : c.rest = ch :: rest) :
    c.newline? = none ↔ CharClass.isLineTerminator ch = false := by
  unfold Cursor.newline?
  split
  · simp_all
  · rename_i more heq
    cases hrest.symm.trans heq
    simp
    decide
  · rename_i heq
    cases hrest.symm.trans heq
    simp

/-- One character, if it ends no line. -/
theorem onto_advance (hne : c.rest ≠ []) (h : c.newline? = none) : c.Onto c.advance := by
  cases hrest : c.rest with
  | nil => exact absurd hrest hne
  | cons ch rest => exact ⟨[ch], passes_advance hrest ((newline?_eq_none hrest).mp h)⟩

end Cursor

end ActionSyntax
