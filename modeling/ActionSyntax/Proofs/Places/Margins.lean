import Mathlib.Data.List.DropRight
import ActionSyntax.Proofs.Places.Passing

/-!
The margin of a text: the blanks with which its last line begins. What is put behind the text stands on
a line that is indented by them.
-/

namespace ActionSyntax.Lines

set_option autoImplicit false

open Utf8

variable {text : List Char}

/-- What stands behind the last line terminator. -/
def lastLine (text : List Char) : List Char := text.rtakeWhile (!CharClass.isLineTerminator ·)

/-- The lines that have ended. -/
def endedLines (text : List Char) : List Char := text.rdropWhile (!CharClass.isLineTerminator ·)

/-- The blanks at the beginning of the last line. -/
def margin (text : List Char) : List Char := (lastLine text).takeWhile CharClass.isBlank

theorem endedLines_append (text : List Char) : endedLines text ++ lastLine text = text :=
  List.rdropWhile_append_rtakeWhile

theorem lastLine_plain (text : List Char) :
    ∀ ch ∈ lastLine text, CharClass.isLineTerminator ch = false := by
  intro ch hch
  simpa using List.mem_rtakeWhile_imp hch

theorem margin_blank (text : List Char) : ∀ ch ∈ margin text, CharClass.isBlank ch = true := fun _ hch =>
  List.mem_takeWhile_imp hch

theorem margin_plain (text : List Char) :
    ∀ ch ∈ margin text, CharClass.isLineTerminator ch = false := fun _ hch =>
  CharClass.not_lineTerminator_of_blank (margin_blank text _ hch)

theorem margin_le (text : List Char) : byteLength (margin text) ≤ byteLength text := by
  obtain ⟨rest, hrest⟩ := List.takeWhile_prefix (p := CharClass.isBlank) (l := lastLine text)
  have hbytes := congrArg byteLength (endedLines_append text)
  rw [← hrest, byteLength_append, byteLength_append] at hbytes
  show byteLength ((lastLine text).takeWhile CharClass.isBlank) ≤ _
  omega

/-- The lines that have ended end behind the last one of them. -/
theorem starts_endedLines (text : List Char) :
    (starts (endedLines text)).getLast? = some (byteLength (endedLines text)) := by
  rcases List.eq_nil_or_concat' (endedLines text) with hnil | ⟨front, last, hlast⟩
  · rw [hnil]
    rfl
  have hne : endedLines text ≠ [] := by simp [hlast]
  have hends : CharClass.isLineTerminator last = true := by
    have hnot := List.rdropWhile_last_not (!CharClass.isLineTerminator ·) text hne
    simp only [endedLines] at hlast
    simpa [hlast] using hnot
  have hmem : byteLength (endedLines text) ∈ ends 0 (endedLines text) := by
    rw [mem_ends, hlast]
    exact ⟨front, last, [], rfl, by simp [endsLine, hends], by simp⟩
  unfold starts
  rcases List.eq_nil_or_concat' (ends 0 (endedLines text)) with hnil | ⟨earlier, final, hfinal⟩
  · rw [hnil] at hmem
    cases hmem
  have hsorted := ends_pairwise (endedLines text) 0
  have hle : final ≤ 0 + byteLength (endedLines text) := le_of_mem_ends (by rw [hfinal]; simp)
  rw [hfinal, List.pairwise_append] at hsorted
  rw [hfinal, List.mem_append, List.mem_singleton] at hmem
  have hlast' : byteLength (endedLines text) = final := by
    rcases hmem with hearlier | heq
    · have hlt := hsorted.2.2 _ hearlier final (List.mem_singleton.mpr rfl)
      omega
    · exact heq
  rw [hfinal, hlast', ← List.cons_append, List.getLast?_concat]

/-- Where the last line begins. -/
theorem starts_getLast? (text : List Char) :
    (starts text).getLast? = some (byteLength (endedLines text)) := by
  have hwhole : ¬ Splits (endedLines text) (lastLine text) := by
    rintro ⟨-, hhead⟩
    exact absurd (lastLine_plain text _ (List.mem_of_mem_head? hhead)) (by decide)
  have hstarts : starts text = starts (endedLines text) := by
    rw [starts, ← endedLines_append text, ends_append hwhole, ends_of_forall_not (lastLine_plain text),
      List.append_nil, endedLines_append]
    rfl
  rw [hstarts, starts_endedLines]

end ActionSyntax.Lines
