import ActionSyntax.Proofs.ScanWithin

/-!
Scanning does not depend on where a text stands. Behind more bytes, and with more comments noted before it,
the same text is scanned in the same way: what is read is the same, what fails fails with the same problem,
and all places lie as much further on.
-/

namespace ActionSyntax

set_option autoImplicit false

/-- How far on a text stands, and the comments that are noted in front of it. -/
structure Offset where
  bytes : Nat
  noted : List Comment := []

/-- The same place of a text that stands further on. -/
def Cursor.shifted (o : Offset) (c : Cursor) : Cursor where
  rest := c.rest
  index := c.index + o.bytes
  line := c.line
  passedLines := c.passedLines.map (· + o.bytes)
  passedComments := (c.passedComments.map fun comment =>
    { comment with span := comment.span.moved o.bytes 0 }) ++ o.noted

namespace Cursor

variable {o : Offset}

@[simp] theorem shifted_rest (c : Cursor) : (c.shifted o).rest = c.rest := rfl

@[simp] theorem shifted_line (c : Cursor) : (c.shifted o).line = c.line := rfl

@[simp] theorem shifted_index (c : Cursor) : (c.shifted o).index = c.index + o.bytes := rfl

@[simp] theorem shifted_startsWith (c : Cursor) (text : List Char) :
    (c.shifted o).startsWith text = c.startsWith text := rfl

@[simp] theorem shifted_atEnd (c : Cursor) : (c.shifted o).atEnd = c.atEnd := rfl

theorem shifted_width (c d : Cursor) :
    (d.shifted o).index - (c.shifted o).index = d.index - c.index := Nat.add_sub_add_right _ _ _

theorem shifted_textTo (c d : Cursor) : (c.shifted o).textTo (d.shifted o) = c.textTo d := by
  unfold textTo
  rw [shifted_width, shifted_rest]

theorem shifted_skip (c : Cursor) (n : Nat) : (c.shifted o).skip n = (c.skip n).shifted o := by
  simp only [shifted, skip, Nat.add_right_comm]

theorem shifted_advance (c : Cursor) : (c.shifted o).advance = c.advance.shifted o := by
  unfold advance
  rw [shifted_rest]
  cases c.rest with
  | nil => rfl
  | cons ch rest => simp only [shifted, Nat.add_right_comm]

theorem shifted_startLine (c : Cursor) (rest : List Char) (width : Nat) :
    (c.shifted o).startLine rest width = (c.startLine rest width).shifted o := by
  simp only [shifted, startLine, List.map_cons, Nat.add_right_comm]

theorem shifted_newline? (c : Cursor) :
    (c.shifted o).newline? = c.newline?.map (·.shifted o) := by
  unfold newline?
  rw [shifted_rest]
  split
  · rfl
  · rw [shifted_startLine]
    rfl
  · rw [shifted_startLine]
    split <;> rfl

end Cursor

namespace Scan

variable {o : Offset}

/-- The same failure, further on. -/
def Failure.shifted (o : Offset) (f : Failure) : Failure where
  id := f.id
  span := f.span.moved o.bytes 0
  arguments := f.arguments
  cursor := f.cursor.shifted o

theorem Failure.shifted_unexpected (c : Cursor) :
    Failure.unexpected (c.shifted o) = (Failure.unexpected c).shifted o := by
  unfold Failure.unexpected
  rw [Cursor.shifted_atEnd]
  split <;> rfl

/-- The outcome further on: the cursors that are found, and the failure, have been moved. -/
def moved {α : Type} (o : Offset) (place : α → α) : Except Failure α → Except Failure α
  | .ok a => .ok (place a)
  | .error f => .error (f.shifted o)

/-- A value together with the cursor behind it. -/
abbrev behind {α : Type} (o : Offset) (a : α × Cursor) : α × Cursor := (a.1, a.2.shifted o)

theorem moved_unexpected {α : Type} {place : α → α} (c : Cursor) :
    (.error (.unexpected (c.shifted o)) : Except Failure α) =
      moved o place (.error (.unexpected c)) := by
  rw [Failure.shifted_unexpected]
  rfl

theorem moved_bind {α β : Type} {place : α → α} {place' : β → β} {x y : Except Failure α}
    {f f' : α → Except Failure β} (hx : x = moved o place y)
    (hf : ∀ a, f (place a) = moved o place' (f' a)) : x >>= f = moved o place' (y >>= f') := by
  rw [hx]
  cases y with
  | ok a => exact hf a
  | error failure => rfl

section Escapes

theorem hexDigit_shifted (c : Cursor) : hexDigit (c.shifted o) = moved o (behind o) (hexDigit c) := by
  unfold hexDigit
  rw [Cursor.shifted_rest]
  cases c.rest with
  | nil => exact moved_unexpected c
  | cons ch rest =>
    dsimp only
    cases CharClass.hexDigitValue? ch with
    | none => exact moved_unexpected c
    | some value =>
      dsimp only
      rw [Cursor.shifted_skip]
      rfl

theorem fixedDigits_shifted : ∀ (count value : Nat) (c : Cursor),
    fixedDigits count value (c.shifted o) = moved o (behind o) (fixedDigits count value c)
  | 0, _, _ => rfl
  | count + 1, _, c => moved_bind (hexDigit_shifted c) fun _ => fixedDigits_shifted count _ _

theorem bracedDigits_shifted : ∀ (fuel value : Nat) (c : Cursor),
    bracedDigits fuel value (c.shifted o) = moved o (behind o) (bracedDigits fuel value c)
  | 0, _, c => moved_unexpected c
  | fuel + 1, value, c => by
    unfold bracedDigits
    rw [Cursor.shifted_startsWith]
    split
    · rw [Cursor.shifted_skip]
      rfl
    · refine moved_bind (hexDigit_shifted c) ?_
      rintro ⟨digit, d⟩
      dsimp only
      split
      · exact moved_unexpected d
      · exact bracedDigits_shifted fuel _ d

theorem escapeValue_shifted (count : Nat) (c : Cursor) :
    escapeValue count (c.shifted o) = moved o (behind o) (escapeValue count c) := by
  unfold escapeValue
  rw [Cursor.shifted_startsWith]
  split
  · unfold bracedValue
    rw [Cursor.shifted_skip]
    exact moved_bind (hexDigit_shifted _) fun _ => bracedDigits_shifted _ _ _
  · exact fixedDigits_shifted count 0 c

theorem escapedChar_shifted (c : Cursor) :
    escapedChar (c.shifted o) = moved o (behind o) (escapedChar c) := by
  have value : ∀ count, (escapeValue count ((c.shifted o).skip 1) >>= fun x =>
      pure (charOfValue x.1, x.2)) = moved o (behind o)
        (escapeValue count (c.skip 1) >>= fun x => pure (charOfValue x.1, x.2)) := by
    intro count
    rw [Cursor.shifted_skip]
    exact moved_bind (escapeValue_shifted _ _) fun _ => rfl
  unfold escapedChar
  dsimp only
  rw [Cursor.shifted_rest]
  split
  · exact value 4
  · exact value 2
  · exact moved_unexpected c

end Escapes

section Names

variable {allowed : Char → Bool}

theorem nameEscape_shifted (c : Cursor) :
    nameEscape allowed (c.shifted o) = moved o (behind o) (nameEscape allowed c) := by
  unfold nameEscape
  rw [Cursor.shifted_skip]
  refine moved_bind (escapedChar_shifted _) fun ⟨ch, d⟩ => ?_
  dsimp only
  split <;> rfl

theorem nameChars_shifted : ∀ (fuel : Nat) (read : List Char) (c : Cursor),
    nameChars allowed fuel read (c.shifted o) = moved o (behind o) (nameChars allowed fuel read c)
  | 0, _, _ => rfl
  | fuel + 1, read, c => by
    unfold nameChars
    rw [Cursor.shifted_rest]
    cases c.rest with
    | nil => rfl
    | cons ch rest =>
      dsimp only
      split
      · rw [Cursor.shifted_advance]
        exact nameChars_shifted fuel _ _
      · split
        · exact moved_bind (nameEscape_shifted c) fun _ => nameChars_shifted fuel _ _
        · rfl

theorem nameFrom_shifted (start : Cursor) (read : List Char) (reserving : Bool) (c : Cursor) :
    nameFrom (start.shifted o) read reserving (c.shifted o) =
      moved o (behind o) (nameFrom start read reserving c) := by
  refine moved_bind (nameChars_shifted _ read c) fun ⟨out, d⟩ => ?_
  dsimp only
  rw [Cursor.shifted_width]
  split
  · split <;> rfl
  · rfl

theorem escapedName_shifted (c : Cursor) :
    escapedName (c.shifted o) = moved o (behind o) (escapedName c) :=
  moved_bind (nameEscape_shifted c) fun _ => nameFrom_shifted c _ _ _

theorem unreservedName_shifted (c : Cursor) :
    unreservedName (c.shifted o) = moved o (behind o) (unreservedName c) := by
  unfold unreservedName
  dsimp only
  rw [Cursor.shifted_skip, Cursor.shifted_rest]
  cases (c.skip 1).rest with
  | nil => exact moved_unexpected _
  | cons ch rest =>
    dsimp only
    split
    · exact nameFrom_shifted c _ _ _
    · exact moved_unexpected _

end Names

section Numerals

variable {isDigit : Char → Bool}

theorem nextIs_shifted (p : Char → Bool) (c : Cursor) : nextIs p (c.shifted o) = nextIs p c := rfl

theorem digits_shifted (c : Cursor) :
    digits isDigit (c.shifted o) = moved o (Cursor.shifted o) (digits isDigit c) := by
  unfold digits
  rw [Cursor.shifted_rest]
  dsimp only
  rw [Cursor.shifted_skip]
  split
  · rfl
  · exact moved_unexpected _

theorem radixLiteral_shifted (radix : Nat) (c : Cursor) :
    radixLiteral radix isDigit (c.shifted o) = moved o (behind o) (radixLiteral radix isDigit c) := by
  unfold radixLiteral
  dsimp only
  rw [Cursor.shifted_skip, nextIs_shifted]
  split
  · exact moved_unexpected _
  · refine moved_bind (digits_shifted _) fun d => ?_
    rw [Cursor.shifted_textTo]
    rfl

theorem exponentPart_shifted (c : Cursor) :
    exponentPart (c.shifted o) = moved o (Cursor.shifted o) (exponentPart c) := by
  have sign : (if nextIs (fun ch => ch == '+' || ch == '-') (c.skip 1) then
      ((c.skip 1).shifted o).skip 1 else (c.skip 1).shifted o) =
      (if nextIs (fun ch => ch == '+' || ch == '-') (c.skip 1) then (c.skip 1).skip 1
        else c.skip 1).shifted o := by
    split
    · exact Cursor.shifted_skip _ 1
    · rfl
  unfold exponentPart
  rw [nextIs_shifted, Cursor.shifted_skip]
  split
  · dsimp only
    rw [nextIs_shifted, sign, nextIs_shifted]
    generalize (if nextIs (fun ch => ch == '+' || ch == '-') (c.skip 1) then (c.skip 1).skip 1
      else c.skip 1) = signed
    split
    · exact digits_shifted _
    · exact moved_unexpected _
  · rfl

theorem fractionPart_shifted (c : Cursor) :
    fractionPart (c.shifted o) = moved o (Cursor.shifted o) (fractionPart c) := by
  unfold fractionPart
  rw [nextIs_shifted, Cursor.shifted_skip]
  split
  · exact digits_shifted _
  · rfl

theorem decimalFrom_shifted (start c : Cursor) :
    decimalFrom (start.shifted o) (c.shifted o) = moved o (behind o) (decimalFrom start c) := by
  refine moved_bind (fractionPart_shifted c) fun d => ?_
  refine moved_bind (exponentPart_shifted d) fun e => ?_
  rw [Cursor.shifted_textTo]
  rfl

theorem numberLiteral_shifted (c : Cursor) :
    numberLiteral (c.shifted o) = moved o (behind o) (numberLiteral c) := by
  unfold numberLiteral
  dsimp only
  rw [Cursor.shifted_skip, nextIs_shifted, nextIs_shifted, nextIs_shifted, nextIs_shifted]
  split
  · split
    · exact radixLiteral_shifted _ _
    · split
      · exact radixLiteral_shifted _ _
      · split
        · exact moved_unexpected _
        · exact moved_bind (digits_shifted _) fun d => decimalFrom_shifted c d
  · exact moved_bind (digits_shifted _) fun d => decimalFrom_shifted c d

theorem fractionLiteral_shifted (c : Cursor) :
    fractionLiteral (c.shifted o) = moved o (behind o) (fractionLiteral c) := by
  unfold fractionLiteral
  rw [Cursor.shifted_skip]
  refine moved_bind (digits_shifted _) fun d => ?_
  refine moved_bind (exponentPart_shifted d) fun e => ?_
  rw [Cursor.shifted_textTo]
  rfl

end Numerals

section Strings

theorem stringEscape_shifted (c : Cursor) :
    stringEscape (c.shifted o) = moved o (behind o) (stringEscape c) := by
  unfold stringEscape
  dsimp only
  rw [Cursor.shifted_skip, Cursor.shifted_rest]
  cases (c.skip 1).rest with
  | nil => exact moved_unexpected _
  | cons ch rest =>
    dsimp only
    split
    · exact moved_bind (escapedChar_shifted _) fun _ => rfl
    · cases namedEscape? ch with
      | some value =>
        dsimp only
        rw [Cursor.shifted_skip]
        rfl
      | none =>
        dsimp only
        rw [Cursor.shifted_newline?, Cursor.shifted_advance]
        cases (c.skip 1).newline? <;> rfl

theorem quotedBody_shifted (quote : Char) : ∀ (fuel : Nat) (read : QuotedText) (c : Cursor),
    quotedBody quote fuel read (c.shifted o) = moved o (behind o) (quotedBody quote fuel read c)
  | 0, _, c => moved_unexpected c
  | fuel + 1, read, c => by
    unfold quotedBody
    rw [Cursor.shifted_rest]
    cases c.rest with
    | nil => exact moved_unexpected c
    | cons ch rest =>
      dsimp only
      split
      · rw [Cursor.shifted_skip]
        rfl
      · split
        · exact moved_bind (stringEscape_shifted c) fun _ => quotedBody_shifted quote fuel _ _
        · rw [Cursor.shifted_newline?, Cursor.shifted_advance]
          cases c.newline? with
          | some d => exact quotedBody_shifted quote fuel _ d
          | none => exact quotedBody_shifted quote fuel _ _

theorem blockBody_shifted (quote : Char) : ∀ (fuel : Nat) (read : BlockText) (c : Cursor),
    blockBody quote fuel read (c.shifted o) = moved o (behind o) (blockBody quote fuel read c)
  | 0, _, c => moved_unexpected c
  | fuel + 1, read, c => by
    unfold blockBody
    rw [Cursor.shifted_rest]
    cases c.rest with
    | nil => exact moved_unexpected c
    | cons ch rest =>
      dsimp only
      rw [Cursor.shifted_startsWith]
      split
      · rw [Cursor.shifted_skip]
        rfl
      · split
        · exact moved_bind (stringEscape_shifted c) fun _ => blockBody_shifted quote fuel _ _
        · rw [Cursor.shifted_newline?, Cursor.shifted_advance]
          cases c.newline? with
          | some d => exact blockBody_shifted quote fuel _ d
          | none => exact blockBody_shifted quote fuel _ _

theorem blockLiteral_shifted (quote : Char) (c : Cursor) :
    blockLiteral quote (c.shifted o) = moved o (behind o) (blockLiteral quote c) := by
  have inside : ((c.newline?.map (·.shifted o)).getD (c.shifted o)) = (c.newline?.getD c).shifted o := by
    cases c.newline? <;> rfl
  unfold blockLiteral
  dsimp only
  rw [Cursor.shifted_newline?, inside]
  refine moved_bind (blockBody_shifted quote _ _ _) fun _ => ?_
  rw [Option.isSome_map]
  rfl

theorem stringLiteral_shifted (quote : Char) (c : Cursor) :
    stringLiteral quote (c.shifted o) = moved o (behind o) (stringLiteral quote c) := by
  unfold stringLiteral
  rw [Cursor.shifted_startsWith]
  split
  · rw [Cursor.shifted_skip]
    exact blockLiteral_shifted quote _
  · dsimp only
    rw [Cursor.shifted_skip]
    refine moved_bind (quotedBody_shifted quote _ _ _) fun ⟨read, d⟩ => ?_
    dsimp only
    split <;> rfl

end Strings

theorem punctuation?_shifted (c : Cursor) :
    punctuation? (c.shifted o) = (punctuation? c).map (behind o) := by
  unfold punctuation?
  simp only [Cursor.shifted_startsWith, Cursor.shifted_skip, Option.map_map]
  rfl

theorem otherLexeme_shifted (ch : Char) (c : Cursor) :
    otherLexeme ch (c.shifted o) = moved o (behind o) (otherLexeme ch c) := by
  unfold otherLexeme
  rw [Cursor.shifted_skip, nextIs_shifted]
  split
  · split
    · exact fractionLiteral_shifted c
    · rfl
  · split
    · exact stringLiteral_shifted ch c
    · split
      · exact unreservedName_shifted c
      · split
        · exact escapedName_shifted c
        · exact moved_unexpected c

theorem lexeme_shifted (c : Cursor) : lexeme (c.shifted o) = moved o (behind o) (lexeme c) := by
  unfold lexeme
  rw [Cursor.shifted_rest]
  cases c.rest with
  | nil => rfl
  | cons ch rest =>
    dsimp only
    split
    · exact nameFrom_shifted c _ _ c
    · split
      · exact numberLiteral_shifted c
      · rw [punctuation?_shifted]
        cases punctuation? c with
        | some reading => rfl
        | none => exact otherLexeme_shifted ch c

section RegularExpressions

theorem passAny_shifted (c : Cursor) : passAny (c.shifted o) = moved o (Cursor.shifted o) (passAny c) := by
  unfold passAny
  rw [Cursor.shifted_newline?, Cursor.shifted_atEnd, Cursor.shifted_advance]
  cases c.newline? with
  | some d => rfl
  | none =>
    dsimp only [Option.map_none]
    split
    · exact moved_unexpected c
    · rfl

theorem regularBody_shifted : ∀ (fuel : Nat) (c : Cursor),
    regularBody fuel (c.shifted o) = moved o (Cursor.shifted o) (regularBody fuel c)
  | 0, c => moved_unexpected c
  | fuel + 1, c => by
    unfold regularBody
    rw [Cursor.shifted_startsWith, Cursor.shifted_startsWith, Cursor.shifted_skip]
    split
    · exact moved_bind (passAny_shifted _) fun _ => regularBody_shifted fuel _
    · split
      · rfl
      · exact moved_bind (passAny_shifted c) fun _ => regularBody_shifted fuel _

theorem regularFlags_shifted (c : Cursor) :
    regularFlags (c.shifted o) = moved o (behind o) (regularFlags c) :=
  moved_bind (nameChars_shifted _ [] c) fun _ => rfl

end RegularExpressions

section Trivia

theorem commentChar_shifted (c : Cursor) :
    commentChar (c.shifted o) = moved o (Cursor.shifted o) (commentChar c) := passAny_shifted c

theorem blockEnd_shifted : ∀ (fuel depth : Nat) (c : Cursor),
    blockEnd fuel depth (c.shifted o) = moved o (Cursor.shifted o) (blockEnd fuel depth c)
  | 0, _, c => moved_unexpected c
  | fuel + 1, depth, c => by
    unfold blockEnd
    rw [Cursor.shifted_startsWith, Cursor.shifted_startsWith, Cursor.shifted_skip]
    split
    · exact blockEnd_shifted fuel _ _
    · split
      · cases depth with
        | zero => rfl
        | succ depth => exact blockEnd_shifted fuel depth _
      · exact moved_bind (commentChar_shifted c) fun _ => blockEnd_shifted fuel depth _

theorem markupEnd_shifted : ∀ (fuel : Nat) (c : Cursor),
    markupEnd fuel (c.shifted o) = moved o (Cursor.shifted o) (markupEnd fuel c)
  | 0, c => moved_unexpected c
  | fuel + 1, c => by
    unfold markupEnd
    rw [Cursor.shifted_startsWith, Cursor.shifted_skip]
    split
    · rfl
    · exact moved_bind (commentChar_shifted c) fun _ => markupEnd_shifted fuel _

theorem noteBlock_shifted (c d : Cursor) (opening closing : Nat) :
    noteBlock (c.shifted o) (d.shifted o) opening closing =
      (noteBlock c d opening closing).shifted o := by
  unfold noteBlock
  rw [Cursor.shifted_width, Cursor.shifted_skip]
  rfl

theorem lineComment_shifted (c : Cursor) :
    lineComment (c.shifted o) = (lineComment c).shifted o := by
  unfold lineComment
  rw [Cursor.shifted_skip]
  simp only [Cursor.shifted_rest, Cursor.shifted_index, Nat.add_right_comm _ o.bytes]
  rfl

theorem comment?_shifted (c : Cursor) :
    comment? (c.shifted o) = moved o (Option.map (·.shifted o)) (comment? c) := by
  unfold comment?
  rw [Cursor.shifted_startsWith, Cursor.shifted_startsWith, Cursor.shifted_startsWith,
    Cursor.shifted_skip, Cursor.shifted_skip]
  split
  · refine moved_bind (markupEnd_shifted _ _) fun stop => ?_
    rw [noteBlock_shifted]
    rfl
  · split
    · refine moved_bind (blockEnd_shifted _ _ _) fun stop => ?_
      rw [noteBlock_shifted]
      rfl
    · split
      · rw [lineComment_shifted]
        rfl
      · rfl

theorem triviaStep?_shifted (c : Cursor) :
    triviaStep? (c.shifted o) = moved o (Option.map (·.shifted o)) (triviaStep? c) := by
  unfold triviaStep?
  rw [Cursor.shifted_rest]
  cases c.rest with
  | nil => rfl
  | cons ch rest =>
    dsimp only
    rw [Cursor.shifted_advance, Cursor.shifted_newline?]
    split
    · rfl
    · cases c.newline? with
      | some d => rfl
      | none => exact comment?_shifted c

theorem triviaEnd_shifted : ∀ (fuel : Nat) (c : Cursor),
    triviaEnd fuel (c.shifted o) = moved o (Cursor.shifted o) (triviaEnd fuel c)
  | 0, _ => rfl
  | fuel + 1, c => by
    unfold triviaEnd
    refine moved_bind (triviaStep?_shifted c) fun step => ?_
    cases step with
    | some d => exact triviaEnd_shifted fuel d
    | none => rfl

theorem trivia_shifted (c : Cursor) : trivia (c.shifted o) = moved o (Cursor.shifted o) (trivia c) :=
  triviaEnd_shifted _ c

end Trivia

end Scan

end ActionSyntax
