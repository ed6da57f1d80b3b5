import ActionSyntax.Proofs.Literals.Elements
import ActionSyntax.Scanner

/-!
Strings between single quotes. What stands between the quotes is taken element by element, and the value
is made of their values; a line break among them is reported once the literal has been passed. Every text
is the value of such a literal.
-/

namespace ActionSyntax

set_option autoImplicit false

open Scan Cursor StringElement

namespace Scan

variable {quote : Char} {c d : Cursor} {e : StringElement} {elements : List StringElement}
  {following rest : List Char}

theorem punctuation?_eq_none (h : ∀ entry ∈ spelledChars, ¬ entry.1 <+: c.rest) :
    punctuation? c = none := by
  unfold punctuation?
  rw [List.find?_eq_none.mpr]
  · rfl
  exact fun entry hentry => mt startsWith_iff.mp (h entry hentry)

/-- No mark stands where a character stands that none begins with. -/
theorem punctuation?_none {ch : Char} (hrest : c.rest = ch :: rest)
    (hmarks : (spelledChars.all fun entry => entry.1.head?.any (· != ch)) = true) :
    punctuation? c = none := by
  refine punctuation?_eq_none fun entry hentry hbegin => ?_
  have hhead := List.all_eq_true.mp hmarks entry hentry
  rw [hrest] at hbegin
  cases hspelled : entry.1 with
  | nil => simp [hspelled] at hhead
  | cons first others =>
    rw [hspelled] at hhead hbegin
    obtain ⟨rfl, -⟩ := List.cons_prefix_cons.mp hbegin
    simp at hhead

/-- The only mark that begins with a point has another one behind it. -/
theorem punctuation?_point (hrest : c.rest = '.' :: rest) (hsecond : rest.head? ≠ some '.') :
    punctuation? c = none := by
  have hmarks : (spelledChars.all fun entry =>
      entry.1.head?.any (· != '.') || entry.1.tail.head? == some '.') = true := by decide +kernel
  refine punctuation?_eq_none fun entry hentry hbegin => ?_
  have hmark := List.all_eq_true.mp hmarks entry hentry
  rw [hrest] at hbegin
  match hspelled : entry.1 with
  | [] => simp [hspelled] at hmark
  | [first] =>
    rw [hspelled] at hmark hbegin
    obtain ⟨rfl, -⟩ := List.cons_prefix_cons.mp hbegin
    simp at hmark
  | first :: second :: others =>
    rw [hspelled] at hmark hbegin
    obtain ⟨rfl, more, rfl⟩ := List.cons_prefix_cons.mp hbegin
    obtain rfl : second = '.' := by simpa using hmark
    exact hsecond rfl

/-- What begins with a quote is a string. -/
theorem lexeme_quote (hquote : quote = '"' ∨ quote = '\'') (hrest : c.rest = quote :: rest) :
    lexeme c = stringLiteral quote c := by
  have hnone : punctuation? c = none := by
    rcases hquote with rfl | rfl <;> exact punctuation?_none hrest (by decide +kernel)
  have hclass : CharClass.isIdentifierStart quote = false ∧ CharClass.isDecimalDigit quote = false ∧
      (quote == '.') = false ∧ (quote == '"' || quote == '\'') = true := by
    rcases hquote with rfl | rfl <;> decide
  unfold lexeme otherLexeme
  simp only [hrest, hclass, hnone, Bool.false_eq_true, if_false, if_true]

namespace QuotedText

/-- What has been read once the element has been read as well. -/
def add (read : QuotedText) (e : StringElement) : QuotedText :=
  { chars := e.value.reverse ++ read.chars, broken := read.broken || e.breaks }

theorem foldl_add (elements : List StringElement) (read : QuotedText) : elements.foldl add read =
    { chars := (values elements).reverse ++ read.chars
      broken := read.broken || elements.any StringElement.breaks } := by
  induction elements generalizing read with
  | nil => simp
  | cons e elements ih =>
    rw [List.foldl_cons, ih]
    simp [add, Bool.or_assoc]

end QuotedText

/-- Every element other than the quote is taken in one step. -/
theorem StringElement.Stands.quotedBody (h : e.Stands c d) (hquote : c.rest.head? ≠ some quote)
    (fuel : Nat) (read : QuotedText) :
    quotedBody quote (fuel + 1) read c = quotedBody quote fuel (read.add e) d := by
  have hne : ∀ {ch : Char} {rest : List Char}, c.rest = ch :: rest → ¬ ((ch == quote) = true) := by
    rintro ch rest hrest heq
    exact hquote (by rw [hrest, List.head?_cons, eq_of_beq heq])
  rw [Scan.quotedBody]
  cases h with
  | plain hrest hch hnone =>
    simp only [hrest]
    rw [if_neg (hne hrest), if_neg (by simpa using hch), hnone]
    simp [QuotedText.add, StringElement.value, StringElement.breaks]
  | escape hrest hread =>
    simp only [hrest]
    rw [if_neg (hne hrest), if_pos (by decide), hread]
    rename_i escape rest
    cases hvalue : escape.value <;>
      simp [QuotedText.add, StringElement.value, StringElement.breaks, hvalue, bind, Except.bind]
  | lineBreak hrest hch hsome =>
    simp only [hrest]
    rw [if_neg (hne hrest), if_neg (by simpa using hch), hsome]
    simp [QuotedText.add, StringElement.value, StringElement.breaks]

/-- Elements that can stand between single quotes. -/
structure Quotable (quote : Char) (elements : List StringElement) : Prop extends Sound elements where
  unquoted : .plain quote ∉ elements

def quoted (quote : Char) (elements : List StringElement) : List Char :=
  quote :: (texts elements ++ [quote])

namespace Quotable

theorem tail (h : Quotable quote (e :: elements)) : Quotable quote elements :=
  ⟨h.toSound.tail, fun hmem => h.unquoted (List.mem_cons_of_mem _ hmem)⟩

/-- No element begins with the quote. -/
theorem head_ne (h : Quotable quote (e :: elements)) (hquote : quote = '"' ∨ quote = '\'')
    (hrest : c.rest = e.text ++ rest) : c.rest.head? ≠ some quote := by
  intro hhead
  obtain ⟨ch, more, htext⟩ := List.exists_cons_of_ne_nil h.toSound.head.text_ne_nil
  rw [hrest, htext] at hhead
  cases hhead
  have hplain : e = .plain quote := by
    rcases hquote with rfl | rfl
    · exact h.toSound.head.eq_plain htext (by decide) (by decide)
    · exact h.toSound.head.eq_plain htext (by decide) (by decide)
  exact h.unquoted (hplain ▸ List.mem_cons_self)

end Quotable

section Literals

variable (hquote : quote = '"' ∨ quote = '\'')
include hquote

/-- The elements are taken one by one, and then the quote is. -/
theorem quotedBody_of_elements {fuel : Nat} {read : QuotedText} (h : Quotable quote elements)
    (hrest : c.rest = texts elements ++ quote :: following) (hfuel : c.rest.length < fuel) :
    ∃ d, quotedBody quote fuel read c = .ok (elements.foldl QuotedText.add read, d) ∧
      c.Passes (texts elements ++ [quote]) [] d ∧ d.rest = following := by
  induction elements generalizing fuel read c with
  | nil =>
    obtain ⟨fuel, rfl⟩ : ∃ n, fuel = n + 1 := ⟨fuel - 1, by omega⟩
    have hrest : c.rest = [quote] ++ following := hrest
    have hnarrow : AllNarrow [quote] := by rcases hquote with rfl | rfl <;> decide
    refine ⟨c.skip 1, ?_, passes_skip hrest hnarrow, by simp [skip, hrest]⟩
    simp [quotedBody, hrest]
  | cons e elements ih =>
    obtain ⟨fuel, rfl⟩ : ∃ n, fuel = n + 1 := ⟨fuel - 1, by omega⟩
    have hrest : c.rest = e.text ++ (texts elements ++ quote :: following) := by
      rw [hrest, texts_cons, List.append_assoc]
    have hline : quote ≠ '\n' := by rcases hquote with rfl | rfl <;> decide
    obtain ⟨d, hstands, hpasses⟩ :=
      h.toSound.head.stands hrest (h.toSound.not_splits hline following)
    have hd : d.rest = texts elements ++ quote :: following :=
      List.append_cancel_left (hpasses.rest.symm.trans hrest)
    have hshorter : d.rest.length < fuel := by
      have hpos := List.length_pos_iff.mpr h.toSound.head.text_ne_nil
      rw [hpasses.rest, List.length_append] at hfuel
      omega
    obtain ⟨stop, hread, hpasses', hstop⟩ := ih h.tail hd hshorter
    refine ⟨stop, ?_, ?_, hstop⟩
    · rw [hstands.quotedBody (h.head_ne hquote hrest)]
      exact hread
    · rw [texts_cons, List.append_assoc]
      exact hpasses.trans hpasses'

theorem stringLiteral_of_elements (h : Quotable quote elements)
    (hrest : c.rest = quoted quote elements ++ following)
    (hsingle : ¬ [quote, quote, quote] <+: c.rest) :
    ∃ d, c.Passes (quoted quote elements) [] d ∧ d.rest = following ∧
      stringLiteral quote c =
        if elements.any StringElement.breaks then
          .error (.at d .stringMustNotContainLineBreaks (c.spanTo d))
        else .ok ({ kind := .string, text := String.ofList (values elements) }, d) := by
  have hrest' : c.rest = [quote] ++ (texts elements ++ quote :: following) := by
    rw [hrest, quoted]
    simp
  have hnarrow : AllNarrow [quote] := by rcases hquote with rfl | rfl <;> decide
  obtain ⟨d, hread, hpasses, hd⟩ : ∃ d, quotedBody quote ((c.skip 1).rest.length + 1) {} (c.skip 1) =
      .ok (elements.foldl QuotedText.add {}, d) ∧
      (c.skip 1).Passes (texts elements ++ [quote]) [] d ∧ d.rest = following :=
    quotedBody_of_elements hquote h (rest_skip hrest') (Nat.lt_succ_self _)
  refine ⟨d, (passes_skip hrest' hnarrow).trans hpasses, hd, ?_⟩
  unfold stringLiteral
  rw [if_neg (mt startsWith_iff.mp hsingle)]
  dsimp only
  rw [hread, QuotedText.foldl_add, List.append_nil]
  show (if (false || elements.any StringElement.breaks) = true then _ else _) = _
  rw [Bool.false_or]
  split
  · rfl
  · rw [List.reverse_reverse]
    rfl

end Literals

section Spelling

/-- A way to spell a character between quotes. -/
def StringElement.ofChar (quote ch : Char) : StringElement :=
  if ch = '\n' then .escape (.named 'n')
  else if ch = '\r' then .escape (.named 'r')
  else if ch = '\u2028' then .escape (.codePoint ⟨'u', false, ['2', '0', '2', '8']⟩)
  else if ch = '\u2029' then .escape (.codePoint ⟨'u', false, ['2', '0', '2', '9']⟩)
  else if ch = quote ∨ ch = '\\' then .escape (.named ch)
  else .plain ch

/-- The spelling is one of the character, it is no quote, and no carriage return ends it. -/
structure StringElement.Spells (quote ch : Char) (e : StringElement) : Prop where
  proper : e.Proper
  value : e.value = [ch]
  steady : e.breaks = false
  unquoted : e ≠ .plain quote
  last : e.text.getLast? ≠ some '\r'

theorem StringElement.ofChar_spells (hquote : quote = '"' ∨ quote = '\'') (ch : Char) :
    Spells quote ch (ofChar quote ch) := by
  have hseparators : CodePoint.Proper ⟨'u', false, ['2', '0', '2', '8']⟩ ∧
      CodePoint.Proper ⟨'u', false, ['2', '0', '2', '9']⟩ :=
    ⟨⟨Or.inr rfl, by decide, by decide, by decide, by decide⟩,
      ⟨Or.inr rfl, by decide, by decide, by decide, by decide⟩⟩
  unfold ofChar
  split
  · subst ch
    exact ⟨rfl, rfl, rfl, nofun, by decide⟩
  split
  · subst ch
    exact ⟨rfl, rfl, rfl, nofun, by decide⟩
  split
  · subst ch
    exact ⟨hseparators.1, by decide, rfl, nofun, by decide⟩
  split
  · subst ch
    exact ⟨hseparators.2, by decide, rfl, nofun, by decide⟩
  rename_i hfeed hreturn hline hparagraph
  split
  · rename_i hescaped
    have hnamed : namedEscape? ch = some ch := by
      rcases hescaped with rfl | rfl
      · rcases hquote with rfl | rfl <;> rfl
      · rfl
    refine ⟨Option.isSome_of_eq_some hnamed, ?_, rfl, nofun, ?_⟩
    · simp [StringElement.value, Escape.value, hnamed]
    · simpa [StringElement.text, Escape.text, Escape.body] using hreturn
  · rename_i hescaped
    refine ⟨⟨fun h => hescaped (Or.inr h), ?_⟩, rfl, rfl, ?_, ?_⟩
    · simp [CharClass.isLineTerminator, hfeed, hreturn, hline, hparagraph]
    · rintro ⟨⟩
      exact hescaped (Or.inl rfl)
    · simpa [StringElement.text] using hreturn

/-- Every text is spelled by some elements without a line break. -/
theorem spellings_exist (hquote : quote = '"' ∨ quote = '\'') (chars : List Char) :
    Quotable quote (chars.map (ofChar quote)) ∧ values (chars.map (ofChar quote)) = chars ∧
      (chars.map (ofChar quote)).any StringElement.breaks = false := by
  induction chars with
  | nil => exact ⟨⟨.nil, nofun⟩, rfl, rfl⟩
  | cons ch chars ih =>
    obtain ⟨hquotable, hvalues, hsteady⟩ := ih
    have hch := ofChar_spells hquote ch
    refine ⟨⟨.cons hch.proper hquotable.toSound fun h => hch.last h.1, ?_⟩, ?_, ?_⟩
    · intro hmem
      rcases List.mem_cons.mp hmem with heq | hmem
      · exact hch.unquoted heq.symm
      · exact hquotable.unquoted hmem
    · rw [List.map_cons, values_cons, hch.value, hvalues, List.singleton_append]
    · rw [List.map_cons, List.any_cons, hch.steady, hsteady, Bool.or_self]

/-- No more than two quotes begin a literal that nothing follows. -/
theorem quoted_single (hquote : quote = '"' ∨ quote = '\'') (h : Quotable quote elements) :
    ¬ [quote, quote, quote] <+: quoted quote elements := by
  cases elements with
  | nil => simp [quoted]
  | cons e elements =>
    intro hbegin
    have hinside : [quote, quote] <+: texts (e :: elements) ++ [quote] :=
      (List.cons_prefix_cons.mp hbegin).2
    obtain ⟨more, hmore⟩ := hinside
    refine h.head_ne (c := Cursor.ofContent (texts (e :: elements) ++ [quote])) hquote
      (List.append_assoc ..) ?_
    show (texts (e :: elements) ++ [quote]).head? = _
    rw [← hmore]
    rfl

end Spelling

end Scan

namespace Scanner

variable {quote : Char}

theorem next_of_start {s : Scanner} {start : Cursor} (hstart : trivia s.cursor = .ok start) :
    s.next = match lexeme start with
      | .error failure =>
        (.error failure.problem, { s with token := s.startedToken start }.stopAt failure)
      | .ok (l, stop) =>
        (.ok (), { s.moveTo stop with token := { l with span := start.spanTo stop } }) := by
  unfold next
  exact hstart ▸ rfl

theorem next_of_elements (hquote : quote = '"' ∨ quote = '\'') (s : Scanner) {start : Cursor}
    {elements : List StringElement} {following : List Char} (hstart : trivia s.cursor = .ok start)
    (helements : Quotable quote elements) (hrest : start.rest = quoted quote elements ++ following)
    (hsingle : ¬ [quote, quote, quote] <+: start.rest) :
    ∃ stop, start.Passes (quoted quote elements) [] stop ∧ stop.rest = following ∧
      s.next = if elements.any StringElement.breaks then
          (.error { id := .stringMustNotContainLineBreaks, severity := .syntaxError,
                    span := start.spanTo stop, arguments := [] },
            { s with token := s.startedToken start }.stopAt
              (.at stop .stringMustNotContainLineBreaks (start.spanTo stop)))
        else (.ok (), { s.moveTo stop with
          token := { kind := .string, text := String.ofList (values elements),
                     span := start.spanTo stop } }) := by
  obtain ⟨stop, hpasses, hstop, hread⟩ := stringLiteral_of_elements hquote helements hrest hsingle
  refine ⟨stop, hpasses, hstop, ?_⟩
  rw [next_of_start hstart, lexeme_quote hquote hrest, hread]
  cases elements.any StringElement.breaks <;> rfl

/-- Between quotes that are not three in a row, whatever elements stand there are passed to the closing
quote. Their values are the text of the string, unless a line break is among them; then the whole literal
is reported. Every text is read from some literal. -/
theorem next_quoted (hquote : quote = '"' ∨ quote = '\'') :
    (∀ (s : Scanner) (start : Cursor) (elements : List StringElement) (following : List Char),
      trivia s.cursor = .ok start → Quotable quote elements →
      start.rest = quoted quote elements ++ following → ¬ [quote, quote, quote] <+: start.rest →
      ∃ stop, start.Passes (quoted quote elements) [] stop ∧ stop.rest = following ∧
        s.next = if elements.any StringElement.breaks then
            (.error { id := .stringMustNotContainLineBreaks, severity := .syntaxError,
                      span := start.spanTo stop, arguments := [] },
              { s with token := s.startedToken start }.stopAt
                (.at stop .stringMustNotContainLineBreaks (start.spanTo stop)))
          else (.ok (), { s.moveTo stop with
            token := { kind := .string, text := String.ofList (values elements),
                       span := start.spanTo stop } })) ∧
    ∀ (path value : String), ∃ elements, Quotable quote elements ∧
      ∃ s, (Scanner.ofScript (Script.ofSource path (String.ofList (quoted quote elements)))).next =
        (.ok (), s) ∧ s.cursor.rest = [] ∧ s.token.kind = .string ∧ s.token.text = value := by
  refine ⟨fun s start elements following => next_of_elements hquote s, fun path value => ?_⟩
  obtain ⟨hquotable, hvalues, hsteady⟩ := spellings_exist hquote value.toList
  refine ⟨_, hquotable, ?_⟩
  generalize value.toList.map (ofChar quote) = elements at *
  have hcontent : (Scanner.ofScript (Script.ofSource path
      (String.ofList (quoted quote elements)))).cursor = Cursor.ofContent (quoted quote elements) := by
    simp [Scanner.ofScript, Script.ofSource]
  have hstart : trivia (Scanner.ofScript (Script.ofSource path
      (String.ofList (quoted quote elements)))).cursor =
        .ok (Cursor.ofContent (quoted quote elements)) := by
    rw [hcontent]
    rcases hquote with rfl | rfl <;> rfl
  obtain ⟨stop, -, hstop, hnext⟩ := next_of_elements hquote _ hstart hquotable
    (List.append_nil _).symm (quoted_single hquote hquotable)
  rw [hsteady, if_neg Bool.false_ne_true] at hnext
  refine ⟨_, hnext, hstop, rfl, ?_⟩
  rw [hvalues, String.ofList_toList]

/-- A character, a code point and a line that is continued. -/
theorem next_quoted_continued : ∃ s,
    (Scanner.ofScript (Script.ofSource "/a.es" "'a\\x41\\\n\\'' + b")).next = (.ok (), s) ∧
      s.cursor.rest = " + b".toList ∧ s.token.text = "aA'" := by
  have hquotable : Quotable '\'' [.plain 'a', .escape (.codePoint ⟨'x', false, ['4', '1']⟩),
      .escape (.continuation ['\n']), .escape (.named '\'')] := by
    have hpoint : CodePoint.Proper ⟨'x', false, ['4', '1']⟩ :=
      ⟨Or.inl rfl, by decide, by decide, by decide, by decide⟩
    have hcontinuation : Escape.Proper (.continuation ['\n']) :=
      show ['\n'] ∈ terminators by decide
    refine ⟨.cons ⟨by decide, by decide⟩ (.cons hpoint (.cons hcontinuation (.cons rfl .nil ?_) ?_) ?_)
      ?_, nofun⟩
    · exact Lines.not_splits_end _
    · exact fun h => absurd h.1 (by decide)
    · exact fun h => absurd h.1 (by decide)
    · exact fun h => absurd h.1 (by decide)
  obtain ⟨stop, -, hstop, hnext⟩ := (next_quoted (Or.inr rfl)).1
    (Scanner.ofScript (Script.ofSource "/a.es" "'a\\x41\\\n\\'' + b")) _ _ " + b".toList rfl hquotable
    rfl (by decide)
  exact ⟨_, hnext, hstop, rfl⟩

end Scanner

end ActionSyntax
