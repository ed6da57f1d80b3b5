import ActionSyntax.Text.CharClass
import ActionSyntax.Text.LineSearch

/-!
The search over bytes finds the first line terminator of the text. No byte of another character is
taken for one: a byte `E2` that begins a separator is told apart by the two bytes behind it, and the
bytes behind the first of a character are above all of ASCII and below `E2`.
-/

namespace ActionSyntax.LineSearch

set_option autoImplicit false

open CharClass Utf8

theorem isLineTerminator_iff (ch : Char) : isLineTerminator ch = true ↔
    ch.toNat = 10 ∨ ch.toNat = 13 ∨ ch.toNat = 0x2028 ∨ ch.toNat = 0x2029 := by
  simp only [isLineTerminator, Bool.or_eq_true, beq_iff_eq, or_assoc, ← Char.toNat_inj]
  rfl

@[simp] theorem startsTerminator_cons (b : UInt8) (more : List UInt8) :
    startsTerminator (b :: more) = true ↔
      b.toNat = 10 ∨ b.toNat = 13 ∨ (b.toNat = 226 ∧ completesSeparator more = true) := by
  simp [startsTerminator, ← UInt8.toNat_inj, or_assoc]

@[simp] theorem completesSeparator_cons (a b : UInt8) (more : List UInt8) :
    completesSeparator (a :: b :: more) = true ↔
      a.toNat = 128 ∧ (b.toNat = 168 ∨ b.toNat = 169) := by
  by_cases ha : a = 0x80
  · subst ha
    simp [completesSeparator, ← UInt8.toNat_inj]
  · have hne : ¬ a.toNat = 128 := fun h => ha (UInt8.toNat_inj.mp h)
    unfold completesSeparator
    split
    · rename_i heq
      exact absurd (List.cons.inj heq).1 ha
    · simp [hne]

theorem distance_pass {b : UInt8} {passed : Nat} {more : List UInt8}
    (h : ¬ startsTerminator (b :: more) = true) :
    distance passed (b :: more) = distance (passed + 1) more := by
  rw [distance, if_neg h]

/-- Bytes behind the first one of a character are passed. -/
theorem distance_pass_all : ∀ {bs : List UInt8} {passed : Nat} {more : List UInt8},
    (∀ b ∈ bs, 128 ≤ b.toNat ∧ b.toNat < 192) →
      distance passed (bs ++ more) = distance (passed + bs.length) more
  | [], _, _, _ => rfl
  | b :: bs, passed, more, h => by
    have hb := h b (by simp)
    rw [List.cons_append, distance_pass, distance_pass_all fun c hc => h c (by simp [hc]),
      List.length_cons]
    · congr 1
      omega
    · rw [startsTerminator_cons]
      omega

section Char

variable {ch : Char} {passed : Nat} {more : List UInt8}

/-- The first byte of a character, and the others. -/
theorem utf8EncodeChar_cases (ch : Char) :
    (ch.toNat ≤ 127 ∧ String.utf8EncodeChar ch = [UInt8.ofNat ch.toNat]) ∨
    ∃ first others, String.utf8EncodeChar ch = first :: others ∧ 127 < ch.toNat ∧
      192 ≤ first.toNat ∧ (∀ b ∈ others, 128 ≤ b.toNat ∧ b.toNat < 192) ∧
      ((first.toNat = 226 ∧ ∃ a b, others = [a, b] ∧
        ch.toNat = 0x2000 + 64 * (a.toNat - 128) + (b.toNat - 128)) ∨
        (first.toNat ≠ 226 ∧ ¬ (0x2000 ≤ ch.toNat ∧ ch.toNat < 0x3000))) := by
  have hnat : ch.val.toNat = ch.toNat := rfl
  unfold String.utf8EncodeChar
  simp only [hnat]
  generalize ch.toNat = v at *
  have small : ∀ n, n < 256 → (UInt8.ofNat n).toNat = n := fun n hn => by simp; omega
  split
  · exact Or.inl ⟨by assumption, rfl⟩
  · right
    split
    · refine ⟨_, _, rfl, by omega, ?_, ?_, Or.inr ⟨?_, by omega⟩⟩
      · rw [small _ (by omega)]; omega
      · intro b hb
        rw [List.mem_singleton.mp hb, small _ (by omega)]; omega
      · rw [small _ (by omega)]; omega
    · split
      · refine ⟨_, _, rfl, by omega, ?_, ?_, ?_⟩
        · rw [small _ (by omega)]; omega
        · intro b hb
          simp only [List.mem_cons, List.not_mem_nil, or_false] at hb
          rcases hb with rfl | rfl <;> rw [small _ (by omega)] <;> omega
        · by_cases hfirst : v / 4096 % 16 = 2
          · refine Or.inl ⟨by rw [small _ (by omega)]; omega, _, _, rfl, ?_⟩
            rw [small _ (by omega), small _ (by omega)]
            omega
          · exact Or.inr ⟨by rw [small _ (by omega)]; omega, by omega⟩
      · refine ⟨_, _, rfl, by omega, ?_, ?_, Or.inr ⟨?_, by omega⟩⟩
        · rw [small _ (by omega)]; omega
        · intro b hb
          simp only [List.mem_cons, List.not_mem_nil, or_false] at hb
          rcases hb with rfl | rfl | rfl <;> rw [small _ (by omega)] <;> omega
        · rw [small _ (by omega)]; omega

theorem distance_terminator (h : isLineTerminator ch = true) :
    distance passed (String.utf8EncodeChar ch ++ more) = passed := by
  rw [isLineTerminator_iff] at h
  obtain ⟨hle, heq⟩ | ⟨first, others, heq, hlt, -, hothers, ⟨hfirst, a, b, rfl, hch⟩ | ⟨-, hch⟩⟩ :=
    utf8EncodeChar_cases ch
  · rw [heq, List.cons_append, distance, if_pos]
    rw [startsTerminator_cons, show (UInt8.ofNat ch.toNat).toNat = ch.toNat by simp; omega]
    omega
  · rw [heq, List.cons_append, distance, if_pos]
    rw [startsTerminator_cons, List.cons_append, List.cons_append, completesSeparator_cons]
    have ha := hothers a (by simp)
    have hb := hothers b (by simp)
    omega
  · omega

theorem distance_other (h : isLineTerminator ch = false) :
    distance passed (String.utf8EncodeChar ch ++ more) = distance (passed + ch.utf8Size) more := by
  have hnot : ¬ isLineTerminator ch = true := by simp [h]
  rw [isLineTerminator_iff] at hnot
  rw [← String.length_utf8EncodeChar]
  obtain ⟨hle, heq⟩ | ⟨first, others, heq, hlt, hlow, hothers, hcase⟩ := utf8EncodeChar_cases ch
  · rw [heq, List.cons_append, distance_pass]
    · rfl
    · rw [startsTerminator_cons, show (UInt8.ofNat ch.toNat).toNat = ch.toNat by simp; omega]
      omega
  · rw [heq, List.cons_append, distance_pass, distance_pass_all hothers]
    · congr 1
      simp only [List.length_cons]
      omega
    · rw [startsTerminator_cons]
      rintro (hb | hb | ⟨hb, hsep⟩)
      · omega
      · omega
      · rcases hcase with ⟨-, a, b, rfl, hch⟩ | ⟨hne, -⟩
        · rw [List.cons_append, List.cons_append, completesSeparator_cons] at hsep
          omega
        · exact hne hb

end Char

/-- The search stops where the line ends. -/
theorem distance_bytes : ∀ (text : List Char) (passed : Nat), distance passed (bytes text) =
    passed + byteLength (text.takeWhile (!isLineTerminator ·))
  | [], _ => rfl
  | ch :: text, passed => by
    have hbytes : bytes (ch :: text) = String.utf8EncodeChar ch ++ bytes text := rfl
    rw [hbytes]
    cases h : isLineTerminator ch with
    | true =>
      rw [distance_terminator h, List.takeWhile_cons_of_neg (by simp [h])]
      rfl
    | false =>
      rw [distance_other h, distance_bytes text, List.takeWhile_cons_of_pos (by simp [h]),
        byteLength_cons, Nat.add_assoc]

end ActionSyntax.LineSearch
