import ActionSyntax.Proofs.Respacing.Ends
import ActionSyntax.Proofs.Shadows.Passages

/-!
The indentation of lines. It is that of the lines of a text that ends with a solid character, whatever
follows the text, and what is exchanged within a line behind such a text takes no part in it.
-/

namespace ActionSyntax

set_option autoImplicit false

open Utf8

/-- The text ends with a character that a token may end with. -/
def EndsSolid (text : List Char) : Prop := ∃ init ch, text = init ++ [ch] ∧ Solid ch

namespace EndsSolid

variable {text more : List Char}

theorem ne_nil (h : EndsSolid text) : text ≠ [] := by
  obtain ⟨init, ch, rfl, -⟩ := h
  simp

theorem length_pos (h : EndsSolid text) : 0 < byteLength text :=
  Nat.pos_of_ne_zero fun hzero => h.ne_nil (Lines.byteLength_eq_zero hzero)

theorem of_firm {c d : Cursor} {read : List Char} (h : c.Firm d) (htext : c.rest = text ++ d.rest) :
    EndsSolid (read ++ text) := by
  obtain ⟨passed, ch, hrest, hch⟩ := h
  have hwhole : text ++ d.rest = passed ++ [ch] ++ d.rest := by simp [← htext, hrest]
  exact ⟨read ++ passed, ch, by simp [List.append_cancel_right hwhole], hch⟩

theorem not_splits (h : EndsSolid text) (more : List Char) : ¬ Lines.Splits text more := by
  obtain ⟨init, ch, rfl, hch⟩ := h
  refine Lines.not_splits_of_last ?_ init more
  rintro rfl
  exact absurd hch (by decide)

/-- Every line of the text begins within it. -/
theorem starts_lt (h : EndsSolid text) : ∀ start ∈ Lines.starts text, start < byteLength text := by
  intro start hstart
  rcases List.mem_cons.mp hstart with rfl | hmem
  · exact h.length_pos
  obtain ⟨init, ch, rfl, hch⟩ := h
  have hlast : Lines.ends (0 + byteLength init) [ch] = [] :=
    Lines.ends_of_forall_not (by simpa using hch.not_lineTerminator) _
  have hwhole : ¬ Lines.Splits init [ch] := by
    refine Lines.not_splits_of_head ?_ init []
    rintro rfl
    exact absurd hch (by decide)
  rw [Lines.ends_append hwhole, hlast, List.append_nil] at hmem
  have hle := Lines.le_of_mem_ends hmem
  have hpos := ch.utf8Size_pos
  rw [byteLength_append, byteLength_cons]
  omega

/-- The blanks at the beginning of such a text end within it. -/
theorem takeWhile_append (h : EndsSolid text) (more : List Char) :
    (text ++ more).takeWhile CharClass.isBlank = text.takeWhile CharClass.isBlank := by
  obtain ⟨init, ch, rfl, hch⟩ := h
  have hstop : [ch].takeWhile CharClass.isBlank = [] := by simp [hch.not_blank]
  have hstop' : (ch :: more).takeWhile CharClass.isBlank = [] := by simp [hch.not_blank]
  rw [List.append_assoc, List.singleton_append, List.takeWhile_append, List.takeWhile_append, hstop, hstop']

theorem suffix {rest : List Char} (h : EndsSolid text) (hrest : rest <:+ text) (hne : rest ≠ []) :
    EndsSolid rest := by
  obtain ⟨init, ch, rfl, hch⟩ := h
  obtain ⟨passed, hpassed⟩ := hrest
  obtain ⟨most, last, rfl⟩ := (List.eq_nil_or_concat' rest).resolve_left hne
  rw [← List.append_assoc] at hpassed
  obtain ⟨-, hlast⟩ := List.append_inj' hpassed rfl
  cases hlast
  exact ⟨most, ch, rfl, hch⟩

end EndsSolid

/-- The number of blanks behind an offset. -/
def indentAt (content : List Char) (start : Nat) : Nat :=
  match dropBytes? content start with
  | some rest => (rest.takeWhile CharClass.isBlank).length
  | none => 0

theorem Script.lineIndent_eq (s : Script) (line : Nat) :
    s.lineIndent line = indentAt s.content (s.lineStart line) := rfl

theorem indentAt_append {text : List Char} (h : EndsSolid text) {start : Nat}
    (hlt : start < byteLength text) (more : List Char) :
    indentAt (text ++ more) start = indentAt text start := by
  unfold indentAt
  rw [dropBytes?_append_of_le (Nat.le_of_lt hlt)]
  cases hdrop : dropBytes? text start with
  | none => rfl
  | some rest =>
    obtain ⟨passed, rfl, hpassed⟩ := dropBytes?_eq_some hdrop
    have hne : rest ≠ [] := by
      rintro rfl
      rw [List.append_nil, hpassed] at hlt
      exact absurd hlt (Nat.lt_irrefl _)
    have hsolid := h.suffix (List.suffix_append passed rest) hne
    dsimp only [Option.map_some]
    rw [hsolid.takeWhile_append]

/-- A slice of what stands behind a text. -/
theorem Utf8.slice?_add (front text : List Char) (start stop : Nat) :
    slice? (front ++ text) (byteLength front + start) (byteLength front + stop) = slice? text start stop := by
  unfold slice?
  rw [dropBytes?_add, Nat.add_sub_add_left]
  by_cases hlt : stop < start
  · rw [if_pos hlt, if_pos (by omega)]
  · rw [if_neg hlt, if_neg (by omega)]

theorem indentAt_add (front text : List Char) (start : Nat) :
    indentAt (front ++ text) (byteLength front + start) = indentAt text start := by
  unfold indentAt
  rw [dropBytes?_add]

namespace Scanner

variable {s t : Scanner}

/-- The beginning of a line is one of those that have been passed. -/
theorem Passed.lineStart_mem {read : List Char} (h : s.Passed read) (line : Nat) :
    s.script.lineStart line ∈ Lines.starts read := by
  cases line with
  | zero => exact List.mem_cons_self
  | succ n =>
    rw [h.lineStart_succ]
    cases hget : (Lines.starts read)[n]? with
    | some start => exact List.mem_of_getElem? hget
    | none =>
      have hne : Lines.starts read ≠ [] := List.cons_ne_nil _ _
      rw [List.getLast?_eq_some_getLast hne]
      exact List.getLast_mem hne

/-- What follows the text that has been read takes no part in the indentation of its lines. -/
theorem Passed.lineIndent_eq {read : List Char} (hs : s.Passed read) (ht : t.Passed read)
    (hend : EndsSolid read) (line : Nat) : s.script.lineIndent line = t.script.lineIndent line := by
  have hstart : s.script.lineStart line = t.script.lineStart line := by
    cases line with
    | zero => rfl
    | succ n => rw [hs.lineStart_succ, ht.lineStart_succ]
  have hlt := hend.starts_lt _ (hs.lineStart_mem line)
  rw [Script.lineIndent_eq, Script.lineIndent_eq, ← hstart, hs.content, ht.content,
    indentAt_append hend hlt, indentAt_append hend hlt]

section Parted

variable {front gap other behind : List Char}

/-- The lines begin in the front, or behind what stands on its last line. -/
theorem starts_parted (hend : EndsSolid front)
    (hplain : ∀ ch ∈ gap, CharClass.isLineTerminator ch = false) :
    Lines.starts (front ++ gap ++ behind) = ((Lines.starts front).map Sum.inl ++
      (Lines.ends 0 behind).map Sum.inr).map (Sum.elim id (byteLength (front ++ gap) + ·)) := by
  have hwhole : ¬ Lines.Splits (front ++ gap) behind := by
    refine Lines.not_splits_append (hend.not_splits _) ?_
    rintro ⟨hlast, -⟩
    have hreturn := hplain '\r' (List.mem_of_getLast? hlast)
    revert hreturn
    decide
  have hfront : Lines.ends 0 (front ++ gap) = Lines.ends 0 front := by
    rw [Lines.ends_append (hend.not_splits _), Lines.ends_of_forall_not hplain, List.append_nil]
  have hbehind := Lines.ends_add behind 0 (byteLength (front ++ gap))
  unfold Lines.starts
  rw [Lines.ends_append hwhole, hfront, hbehind]
  simp [Function.comp_def, Nat.add_comm]

/-- Where one of two texts stands within a line, the lines are indented as with the other one. -/
theorem Passed.lineIndent_parted (hs : s.Passed (front ++ gap ++ behind))
    (ht : t.Passed (front ++ other ++ behind)) (hrest : s.cursor.rest = t.cursor.rest)
    (hend : EndsSolid front) (hgap : ∀ ch ∈ gap, CharClass.isLineTerminator ch = false)
    (hother : ∀ ch ∈ other, CharClass.isLineTerminator ch = false) (line : Nat) :
    s.script.lineIndent line = t.script.lineIndent line := by
  let lines : List (Nat ⊕ Nat) := (Lines.starts front).map Sum.inl ++ (Lines.ends 0 behind).map Sum.inr
  -- A line begins at the same place of both texts, be it in the front or behind what has been exchanged.
  obtain ⟨place, hmem, hplace, hplace'⟩ : ∃ place ∈ lines,
      s.script.lineStart line = place.elim id (byteLength (front ++ gap) + ·) ∧
      t.script.lineStart line = place.elim id (byteLength (front ++ other) + ·) := by
    cases line with
    | zero => exact ⟨.inl 0, by simp [lines, Lines.starts], rfl, rfl⟩
    | succ n =>
      have hne : lines ≠ [] := by simp [lines, Lines.starts]
      rw [hs.lineStart_succ, ht.lineStart_succ, starts_parted hend hgap, starts_parted hend hother]
      show ∃ place ∈ lines, ((lines.map _)[n]?).getD ((lines.map _).getLast?.getD 0) = _ ∧
        ((lines.map _)[n]?).getD ((lines.map _).getLast?.getD 0) = _
      simp only [List.getElem?_map, List.getLast?_map, List.getLast?_eq_some_getLast hne, Option.map_some,
        Option.getD_some]
      cases hget : lines[n]? with
      | some place => exact ⟨place, List.mem_of_getElem? hget, rfl, rfl⟩
      | none => exact ⟨lines.getLast hne, List.getLast_mem hne, rfl, rfl⟩
  rw [Script.lineIndent_eq, Script.lineIndent_eq, hplace, hplace', hs.content, ht.content]
  cases place with
  | inl start =>
    have hlt : start < byteLength front := hend.starts_lt start (by simpa [lines] using hmem)
    simp only [List.append_assoc, Sum.elim_inl, id_eq]
    rw [indentAt_append hend hlt, indentAt_append hend hlt]
  | inr start =>
    simp only [Sum.elim_inr]
    rw [List.append_assoc, indentAt_add, List.append_assoc, indentAt_add, hrest]

end Parted

end Scanner

end ActionSyntax
