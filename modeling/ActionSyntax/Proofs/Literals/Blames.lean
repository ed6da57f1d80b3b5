import ActionSyntax.Scanner
import ActionSyntax.Proofs.ScanSuffix

/-!
What a reading says where it stops. Most of them find nothing but something unexpected. A string may be
blamed for a line break, and a name for an escape, and neither is blamed for the other.
-/

namespace ActionSyntax.Scan

set_option autoImplicit false

/-- If the reading stops, then with one of the problems. -/
def Blames {α : Type} (ids : List ProblemId) (x : Except Failure α) : Prop :=
  ∀ f, x = .error f → f.id ∈ ids

/-- What is said where a character cannot stand. -/
def unexpectedIds : List ProblemId := [.unexpected, .invalidOrUnexpected]

theorem unexpected_id (c : Cursor) : (Failure.unexpected c).id ∈ unexpectedIds := by
  unfold Failure.unexpected
  split <;> simp [Failure.at, unexpectedIds]

namespace Blames

variable {α β : Type} {ids more : List ProblemId} {x : Except Failure α}

theorem ok (a : α) : Blames ids (.ok a : Except Failure α) := nofun

theorem bind {f : α → Except Failure β} (hx : Blames ids x)
    (hf : ∀ a, x = .ok a → Blames ids (f a)) : Blames ids (x >>= f) := by
  cases x with
  | ok a => exact hf a rfl
  | error e => exact fun f h => hx f (by cases h; rfl)

theorem mono (h : Blames ids x) (hids : ids ⊆ more) : Blames more x := fun f hf => hids (h f hf)

theorem at_place (c : Cursor) {id : ProblemId} (hid : id ∈ ids) (span : Span)
    (arguments : List (String × Argument)) :
    Blames ids (.error (.at c id span arguments) : Except Failure α) := by
  rintro _ ⟨⟩
  exact hid

theorem unexpected (c : Cursor) :
    Blames unexpectedIds (.error (.unexpected c) : Except Failure α) := by
  rintro _ ⟨⟩
  exact unexpected_id c

theorem ite {p : Prop} [Decidable p] {y : Except Failure α} (hx : Blames ids x) (hy : Blames ids y) :
    Blames ids (if p then x else y) := by
  split
  · exact hx
  · exact hy

end Blames

section Escapes

theorem hexDigit_blames (c : Cursor) : Blames unexpectedIds (hexDigit c) := by
  unfold hexDigit
  split
  · exact .unexpected c
  · split
    · exact .ok _
    · exact .unexpected c

theorem fixedDigits_blames : ∀ (count value : Nat) (c : Cursor),
    Blames unexpectedIds (fixedDigits count value c)
  | 0, _, _ => .ok _
  | _ + 1, _, c => .bind (hexDigit_blames c) fun _ _ => fixedDigits_blames _ _ _

theorem bracedDigits_blames : ∀ (fuel value : Nat) (c : Cursor),
    Blames unexpectedIds (bracedDigits fuel value c)
  | 0, _, c => .unexpected c
  | _ + 1, _, c => .ite (.ok _) (.bind (hexDigit_blames c) fun _ _ =>
      .ite (.unexpected _) (bracedDigits_blames _ _ _))

theorem escapedChar_blames (c : Cursor) : Blames unexpectedIds (escapedChar c) := by
  have value : ∀ (count : Nat) (d : Cursor),
      Blames unexpectedIds (escapeValue count d >>= fun x => pure (charOfValue x.1, x.2)) :=
    fun count d => .bind (.ite (.bind (hexDigit_blames _) fun _ _ => bracedDigits_blames _ _ _)
      (fixedDigits_blames _ _ _)) fun _ _ => .ok _
  unfold escapedChar
  dsimp only
  split
  · exact value 4 _
  · exact value 2 _
  · exact .bind (.unexpected c) nofun

theorem nameEscape_blames (allowed : Char → Bool) (c : Cursor) :
    Blames unexpectedIds (nameEscape allowed c) :=
  .bind (escapedChar_blames _) fun _ _ => .ite (.ok _) (.at_place _ (by decide) _ _)

theorem nameChars_blames (allowed : Char → Bool) : ∀ (fuel : Nat) (read : List Char) (c : Cursor),
    Blames unexpectedIds (nameChars allowed fuel read c)
  | 0, _, _ => .ok _
  | fuel + 1, read, c => by
    unfold nameChars
    split
    · exact .ok _
    · exact .ite (nameChars_blames _ _ _ _) (.ite
        (.bind (nameEscape_blames _ _) fun _ _ => nameChars_blames _ _ _ _) (.ok _))

end Escapes

section Numbers

theorem digits_blames (isDigit : Char → Bool) (c : Cursor) :
    Blames unexpectedIds (digits isDigit c) := .ite (.ok _) (.unexpected _)

theorem radixLiteral_blames (radix : Nat) (isDigit : Char → Bool) (c : Cursor) :
    Blames unexpectedIds (radixLiteral radix isDigit c) :=
  .ite (.unexpected _) (.bind (digits_blames _ _) fun _ _ => .ok _)

theorem exponentPart_blames (c : Cursor) : Blames unexpectedIds (exponentPart c) :=
  .ite (.ite (digits_blames _ _) (.unexpected _)) (.ok _)

theorem decimalFrom_blames (start c : Cursor) : Blames unexpectedIds (decimalFrom start c) :=
  .bind (.ite (digits_blames _ _) (.ok _)) fun _ _ =>
    .bind (exponentPart_blames _) fun _ _ => .ok _

theorem numberLiteral_blames (c : Cursor) : Blames unexpectedIds (numberLiteral c) :=
  have decimal := Blames.bind (digits_blames CharClass.isDecimalDigit (c.skip 1)) fun d _ =>
    decimalFrom_blames c d
  .ite (.ite (radixLiteral_blames _ _ _) (.ite (radixLiteral_blames _ _ _)
    (.ite (.unexpected _) decimal))) decimal

theorem fractionLiteral_blames (c : Cursor) : Blames unexpectedIds (fractionLiteral c) :=
  .bind (digits_blames _ _) fun _ _ => .bind (exponentPart_blames _) fun _ _ => .ok _

end Numbers

section Strings

theorem stringEscape_blames (c : Cursor) : Blames unexpectedIds (stringEscape c) := by
  unfold stringEscape
  dsimp only
  split
  · exact .unexpected _
  · refine .ite (.bind (escapedChar_blames _) fun _ _ => .ok _) ?_
    split
    · exact .ok _
    · split
      · exact .ok _
      · exact .ok _

theorem quotedBody_blames (quote : Char) : ∀ (fuel : Nat) (read : QuotedText) (c : Cursor),
    Blames unexpectedIds (quotedBody quote fuel read c)
  | 0, _, c => .unexpected c
  | fuel + 1, read, c => by
    unfold quotedBody
    split
    · exact .unexpected c
    · refine .ite (.ok _) (.ite (.bind (stringEscape_blames c) fun _ _ =>
        quotedBody_blames quote fuel _ _) ?_)
      split
      · exact quotedBody_blames quote fuel _ _
      · exact quotedBody_blames quote fuel _ _

theorem blockBody_blames (quote : Char) : ∀ (fuel : Nat) (read : BlockText) (c : Cursor),
    Blames unexpectedIds (blockBody quote fuel read c)
  | 0, _, c => .unexpected c
  | fuel + 1, read, c => by
    unfold blockBody
    split
    · exact .unexpected c
    · refine .ite (.ok _) (.ite (.bind (stringEscape_blames c) fun _ _ =>
        blockBody_blames quote fuel _ _) ?_)
      split
      · exact blockBody_blames quote fuel _ _
      · exact blockBody_blames quote fuel _ _

theorem stringLiteral_blames (quote : Char) (c : Cursor) :
    Blames (.stringMustNotContainLineBreaks :: unexpectedIds) (stringLiteral quote c) := by
  have hids : unexpectedIds ⊆ .stringMustNotContainLineBreaks :: unexpectedIds :=
    fun _ h => List.mem_cons_of_mem _ h
  exact .ite (.bind ((blockBody_blames quote _ _ _).mono hids) fun _ _ => .ok _)
    (.bind ((quotedBody_blames quote _ _ _).mono hids) fun _ _ =>
      .ite (.at_place _ List.mem_cons_self _ _) (.ok _))

end Strings

section Trivia

theorem commentChar_blames (c : Cursor) : Blames unexpectedIds (commentChar c) := by
  unfold commentChar
  split
  · exact .ok _
  · exact .ite (.unexpected c) (.ok _)

theorem blockEnd_blames : ∀ (fuel depth : Nat) (c : Cursor),
    Blames unexpectedIds (blockEnd fuel depth c)
  | 0, _, c => .unexpected c
  | fuel + 1, depth, c => by
    refine .ite (blockEnd_blames _ _ _) (.ite ?_
      (.bind (commentChar_blames c) fun _ _ => blockEnd_blames _ _ _))
    split
    · exact .ok _
    · exact blockEnd_blames _ _ _

theorem markupEnd_blames : ∀ (fuel : Nat) (c : Cursor), Blames unexpectedIds (markupEnd fuel c)
  | 0, c => .unexpected c
  | _ + 1, c => .ite (.ok _) (.bind (commentChar_blames c) fun _ _ => markupEnd_blames _ _)

theorem comment?_blames (c : Cursor) : Blames unexpectedIds (comment? c) :=
  .ite (.bind (markupEnd_blames _ _) fun _ _ => .ok _)
    (.ite (.bind (blockEnd_blames _ _ _) fun _ _ => .ok _) (.ite (.ok _) (.ok _)))

theorem triviaStep?_blames (c : Cursor) : Blames unexpectedIds (triviaStep? c) := by
  unfold triviaStep?
  split
  · exact .ok _
  · refine .ite (.ok _) ?_
    split
    · exact .ok _
    · exact comment?_blames c

theorem triviaEnd_blames : ∀ (fuel : Nat) (c : Cursor), Blames unexpectedIds (triviaEnd fuel c)
  | 0, _ => .ok _
  | fuel + 1, c => .bind (triviaStep?_blames c) fun step _ => by
    cases step with
    | some d => exact triviaEnd_blames fuel d
    | none => exact .ok _

theorem trivia_blames (c : Cursor) : Blames unexpectedIds (trivia c) := triviaEnd_blames _ c

end Trivia

end ActionSyntax.Scan
