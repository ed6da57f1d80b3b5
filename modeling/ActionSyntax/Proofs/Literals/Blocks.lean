import ActionSyntax.Proofs.Literals.Strings
import Mathlib.Data.List.TakeWhile

/-!
Strings between three quotes. A literal is read just when elements stand between its quotes and the
closing ones begin nowhere among them. Its lines are divided by raw line terminators alone. If it opens
with a line break, the last of several lines tells how far the others are indented.
-/

namespace ActionSyntax

set_option autoImplicit false

open Scan Cursor StringElement

namespace Scan

section Values

theorem joinLines_eq : ∀ lines : List (List Char), joinLines lines = ['\n'].intercalate lines
  | [] => rfl
  | [_] => by simp [joinLines]
  | line :: next :: lines => by
    rw [joinLines, List.intercalate_cons_cons, joinLines_eq (next :: lines)]
    · simp
    · simp

/-- A line without as much of its indentation as another one has. -/
def dedent (base : Nat) (line : List Char) : List Char := line.drop (min base (indent line))

/-- The text of the lines. Behind an opening line break the last one of several is a measure of
indentation, of which only what follows its blanks is kept. -/
def blockText (opened : Bool) (lines : List (List Char)) : List Char :=
  if opened = true ∧ 2 ≤ lines.length then
    let last := lines.getLastD []
    let kept := last.drop (indent last)
    ['\n'].intercalate (lines.dropLast.map (dedent (indent last))) ++
      if kept = [] then [] else '\n' :: kept
  else ['\n'].intercalate lines

theorem intercalate_concat {before : List (List Char)} (h : before ≠ []) (last : List Char) :
    ['\n'].intercalate (before ++ [last]) = ['\n'].intercalate before ++ '\n' :: last := by
  induction before with
  | nil => exact absurd rfl h
  | cons line before ih =>
    cases before with
    | nil => simp
    | cons next before =>
      rw [List.cons_append, List.cons_append, List.intercalate_cons_cons,
        List.intercalate_cons_cons, ← List.cons_append, ih (List.cons_ne_nil _ _)]
      simp

theorem blockValue_eq (opened : Bool) (lines : List (List Char)) :
    blockValue opened lines.reverse = blockText opened lines := by
  unfold blockValue blockText
  rw [joinLines_eq, List.length_reverse, List.reverse_reverse]
  by_cases hmeasured : opened = true ∧ 2 ≤ lines.length
  · obtain ⟨hopened, hlength⟩ := hmeasured
    obtain ⟨before, last, rfl⟩ : ∃ before last, lines = before ++ [last] := by
      refine ⟨lines.dropLast, lines.getLast ?_, (List.dropLast_concat_getLast _).symm⟩
      rintro rfl
      simp at hlength
    have hbefore : before ≠ [] := by
      rintro rfl
      simp at hlength
    have hboth : (opened && decide (1 < (before ++ [last]).length)) = true := by
      rw [hopened, Bool.true_and, decide_eq_true_eq]
      exact hlength
    rw [if_pos hboth, if_pos ⟨hopened, hlength⟩, List.reverse_append, List.reverse_singleton,
      List.singleton_append, dedented, List.reverse_reverse, List.getLastD_concat, List.dropLast_concat]
    dsimp only
    by_cases hkept : last.drop (indent last) = []
    · rw [if_pos hkept, hkept, List.append_nil]
      rfl
    · rw [if_neg hkept, if_neg (by simpa using hkept), intercalate_concat (by simpa using hbefore)]
      rfl
  · rw [if_neg hmeasured, if_neg (by simpa [Nat.succ_le_iff] using hmeasured)]

theorem indent_drop (line : List Char) (count : Nat) (h : count ≤ indent line) :
    indent (line.drop count) = indent line - count := by
  induction count generalizing line with
  | zero => rfl
  | succ count ih =>
    cases line with
    | nil => exact absurd h (by simp [indent])
    | cons ch line =>
      have hblank : CharClass.isBlank ch = true := by
        by_contra hnot
        simp [indent, hnot] at h
      have hindent : indent (ch :: line) = indent line + 1 := by simp [indent, hblank]
      rw [List.drop_succ_cons, ih line (by omega), hindent]
      omega

/-- Of the indentation just the common part goes. -/
theorem indent_dedent (base : Nat) (line : List Char) :
    indent (dedent base line) = indent line - base := by
  rw [dedent, indent_drop line _ (Nat.min_le_right ..)]
  omega

/-- Nothing but blanks goes. -/
theorem blank_of_dedent (base : Nat) (line : List Char) :
    ∃ removed, line = removed ++ dedent base line ∧
      ∀ ch ∈ removed, CharClass.isBlank ch = true := by
  refine ⟨line.take (min base (indent line)), (List.take_append_drop ..).symm, fun ch hmem => ?_⟩
  have hbegin : line.take (min base (indent line)) <+: line.takeWhile CharClass.isBlank := by
    have hwhole := List.takeWhile_prefix (l := line) CharClass.isBlank
    refine List.prefix_of_prefix_length_le (List.take_prefix ..) hwhole ?_
    rw [List.length_take]
    exact Nat.le_trans (Nat.min_le_left ..) (Nat.min_le_right ..)
  exact List.mem_takeWhile_imp (hbegin.subset hmem)

end Values

namespace StringElement

/-- The lines of elements in a row, which only raw line terminators divide. -/
def lines (elements : List StringElement) : List (List Char) :=
  (elements.splitOnP breaks).map values

theorem lines_cons (e : StringElement) (elements : List StringElement) :
    lines (e :: elements) =
      if e.breaks then [] :: lines elements else (lines elements).modifyHead (e.value ++ ·) := by
  unfold lines
  rw [List.splitOnP_cons_eq_if_modifyHead]
  split
  · rfl
  · cases elements.splitOnP breaks <;> rfl

theorem lines_ne_nil (elements : List StringElement) : lines elements ≠ [] := by
  simp [lines]

/-- Whether a line break stands in front of the others. -/
def opens (elements : List StringElement) : Bool := elements.head?.any breaks

/-- The elements without a line break in front of them. -/
def inner (elements : List StringElement) : List StringElement :=
  if opens elements then elements.tail else elements

end StringElement

variable {quote : Char} {c d : Cursor} {e : StringElement} {elements : List StringElement}
  {following : List Char}

namespace BlockText

/-- What has been read once the element has been read as well. -/
def add (read : BlockText) (e : StringElement) : BlockText :=
  if e.breaks then read.endLine else { read with current := e.value.reverse ++ read.current }

/-- The elements go on with the line that has been begun. -/
theorem foldl_add (elements : List StringElement) (read : BlockText) :
    (elements.foldl add read).endLine.lines.reverse =
      read.lines.reverse ++
        (StringElement.lines elements).modifyHead (read.current.reverse ++ ·) := by
  induction elements generalizing read with
  | nil => simp [endLine, StringElement.lines]
  | cons e elements ih =>
    rw [List.foldl_cons, ih, lines_cons]
    obtain ⟨line, others, hlines⟩ := List.exists_cons_of_ne_nil (lines_ne_nil elements)
    unfold add
    split <;> simp [endLine, hlines]

end BlockText

theorem StringElement.Stands.blockBody (h : e.Stands c d)
    (hopen : ¬ [quote, quote, quote] <+: c.rest) (fuel : Nat) (read : BlockText) :
    blockBody quote (fuel + 1) read c = blockBody quote fuel (read.add e) d := by
  have hstarts : ¬ (c.startsWith [quote, quote, quote] = true) := mt startsWith_iff.mp hopen
  rw [Scan.blockBody]
  cases h with
  | plain hrest hch hnone =>
    simp only [hrest]
    rw [if_neg hstarts, if_neg (by simpa using hch), hnone]
    simp [BlockText.add, StringElement.value, StringElement.breaks]
  | escape hrest hread =>
    simp only [hrest]
    rw [if_neg hstarts, if_pos (by decide), hread]
    rename_i escape rest
    cases hvalue : escape.value <;>
      simp [BlockText.add, StringElement.value, StringElement.breaks, hvalue, bind, Except.bind]
  | lineBreak hrest hch hsome =>
    simp only [hrest]
    rw [if_neg hstarts, if_neg (by simpa using hch), hsome]
    simp [BlockText.add, StringElement.breaks]

/-- Elements that can stand between three quotes: nowhere among them do three quotes begin. -/
structure Enclosed (quote : Char) (elements : List StringElement) : Prop extends Sound elements where
  unclosed : ∀ rest, rest <:+ elements → rest ≠ [] →
    ¬ [quote, quote, quote] <+: texts rest ++ [quote, quote, quote]

def enclosed (quote : Char) (elements : List StringElement) : List Char :=
  [quote, quote, quote] ++ (texts elements ++ [quote, quote, quote])

namespace Enclosed

theorem nil : Enclosed quote [] :=
  ⟨.nil, fun _ hrest hne => absurd (List.suffix_nil.mp hrest) hne⟩

theorem tail (h : Enclosed quote (e :: elements)) : Enclosed quote elements :=
  ⟨h.toSound.tail, fun rest hrest => h.unclosed rest (hrest.trans (List.suffix_cons ..))⟩

/-- In front of an element the literal is not over, whatever follows it. -/
theorem open_head (h : Enclosed quote (e :: elements)) (following : List Char) :
    ¬ [quote, quote, quote] <+: texts (e :: elements) ++ [quote, quote, quote] ++ following := by
  intro hbegin
  refine h.unclosed _ (List.suffix_refl _) (List.cons_ne_nil _ _) ?_
  exact List.prefix_of_prefix_length_le hbegin (List.prefix_append ..) (by simp; omega)

theorem cons (he : e.Proper) (h : Enclosed quote elements)
    (hwhole : ¬ Lines.Splits e.text (texts elements))
    (hopen : ¬ [quote, quote, quote] <+: texts (e :: elements) ++ [quote, quote, quote]) :
    Enclosed quote (e :: elements) := by
  refine ⟨.cons he h.toSound hwhole, fun rest hrest hne => ?_⟩
  rcases List.suffix_cons_iff.mp hrest with rfl | hrest
  · exact hopen
  · exact h.unclosed rest hrest hne

end Enclosed

section Literals

variable (hquote : quote = '"' ∨ quote = '\'')
include hquote

theorem threeQuotes_allNarrow : AllNarrow [quote, quote, quote] := by
  rcases hquote with rfl | rfl <;> decide

/-- The elements are taken one by one, and then the quotes are. -/
theorem blockBody_of_elements {fuel : Nat} {read : BlockText} (h : Enclosed quote elements)
    (hrest : c.rest = texts elements ++ [quote, quote, quote] ++ following)
    (hfuel : c.rest.length < fuel) :
    ∃ d, blockBody quote fuel read c = .ok ((elements.foldl BlockText.add read).endLine, d) ∧
      c.Passes (texts elements ++ [quote, quote, quote]) [] d := by
  induction elements generalizing fuel read c with
  | nil =>
    obtain ⟨fuel, rfl⟩ : ∃ n, fuel = n + 1 := ⟨fuel - 1, by omega⟩
    have hrest : c.rest = [quote, quote, quote] ++ following := hrest
    refine ⟨c.skip 3, ?_, passes_skip hrest (threeQuotes_allNarrow hquote)⟩
    have hrest' : c.rest = quote :: quote :: quote :: following := hrest
    rw [blockBody]
    simp only [hrest']
    rw [if_pos (startsWith_of_rest hrest)]
    rfl
  | cons e elements ih =>
    obtain ⟨fuel, rfl⟩ : ∃ n, fuel = n + 1 := ⟨fuel - 1, by omega⟩
    have hopen : ¬ [quote, quote, quote] <+: c.rest := hrest ▸ h.open_head following
    have hrest : c.rest = e.text ++ (texts elements ++ [quote, quote, quote] ++ following) := by
      rw [hrest, texts_cons, List.append_assoc, List.append_assoc, List.append_assoc]
    have hline : quote ≠ '\n' := by rcases hquote with rfl | rfl <;> decide
    obtain ⟨d, hstands, hpasses⟩ := h.toSound.head.stands hrest (by
      rw [List.append_assoc]
      exact h.toSound.not_splits hline (quote :: quote :: following))
    have hd : d.rest = texts elements ++ [quote, quote, quote] ++ following :=
      List.append_cancel_left (hpasses.rest.symm.trans hrest)
    have hshorter : d.rest.length < fuel := by
      have hpos := List.length_pos_iff.mpr h.toSound.head.text_ne_nil
      rw [hpasses.rest, List.length_append] at hfuel
      omega
    obtain ⟨stop, hread, hpasses'⟩ := ih h.tail hd hshorter
    refine ⟨stop, ?_, ?_⟩
    · rw [hstands.blockBody hopen]
      exact hread
    · rw [texts_cons, List.append_assoc]
      exact hpasses.trans hpasses'

/-- Elements stand between the quotes if the body is read. -/
theorem elements_of_blockBody {fuel : Nat} {read result : BlockText}
    (h : blockBody quote fuel read c = .ok (result, d)) :
    ∃ elements, Enclosed quote elements ∧
      c.Passes (texts elements ++ [quote, quote, quote]) [] d := by
  induction fuel generalizing read c with
  | zero => cases h
  | succ fuel ih =>
    cases hrest : c.rest with
    | nil => simp [blockBody, hrest] at h
    | cons ch rest =>
      by_cases hstarts : c.startsWith [quote, quote, quote] = true
      · rw [blockBody] at h
        simp only [hrest, hstarts, if_true] at h
        cases h
        exact ⟨[], .nil, passes_skip_startsWith hstarts (threeQuotes_allNarrow hquote)⟩
      have hopen : ¬ [quote, quote, quote] <+: c.rest := mt startsWith_iff.mpr hstarts
      rcases stands_or_fails hrest with ⟨e, e', he, hstands, hpasses⟩ | ⟨rfl, failure, hfails⟩
      · rw [hstands.blockBody hopen] at h
        obtain ⟨elements, helements, hpasses'⟩ := ih h
        refine ⟨e :: elements, .cons he helements ?_ ?_, ?_⟩
        · have hwhole := hpasses.whole
          rw [hpasses'.rest, List.append_assoc] at hwhole
          exact Lines.not_splits_left hwhole
        · intro hbegin
          refine hopen (hbegin.trans ?_)
          rw [hpasses.rest, hpasses'.rest, texts_cons, List.append_assoc]
          exact (List.prefix_append_right_inj _).mpr (List.prefix_append ..)
        · rw [texts_cons, List.append_assoc]
          exact hpasses.trans hpasses'
      · rw [blockBody] at h
        simp only [hrest] at h
        rw [if_neg hstarts, if_pos (by decide), hfails] at h
        cases h

/-- In front of elements that begin with no line break, nor nothing does. -/
theorem newline?_of_not_opens (h : Sound elements) (hopens : opens elements = false)
    (hrest : c.rest = texts elements ++ quote :: following) : c.newline? = none := by
  cases elements with
  | nil =>
    refine (newline?_eq_none hrest).mpr ?_
    rcases hquote with rfl | rfl <;> decide
  | cons e elements =>
    cases e with
    | plain ch => exact (newline?_eq_none hrest).mpr h.head.2
    | escape => exact (newline?_eq_none hrest).mpr (by decide)
    | lineBreak => cases hopens

theorem blockLiteral_of_elements (h : Enclosed quote elements)
    (hrest : c.rest = texts elements ++ [quote, quote, quote] ++ following) :
    ∃ d, c.Passes (texts elements ++ [quote, quote, quote]) [] d ∧
      blockLiteral quote c = .ok ({
        kind := .string
        text := String.ofList (blockText (opens elements) (StringElement.lines (inner elements))) },
        d) := by
  -- An opening line break is passed first, and the rest is read the same with and without one.
  obtain ⟨front, inside, hnewline, hfront, hpasses, hinner⟩ : ∃ front inside,
      (c.newline?.isSome = opens elements ∧ c.newline?.getD c = inside) ∧
        texts elements = front ++ texts (inner elements) ∧ c.Passes front [] inside ∧
        Enclosed quote (inner elements) := by
    cases hopens : opens elements with
    | false =>
      rw [List.append_assoc] at hrest
      have hnone := newline?_of_not_opens hquote h.toSound hopens hrest
      refine ⟨[], c, by simp [hnone], ?_, .refl c, ?_⟩ <;> simp [StringElement.inner, hopens, h]
    | true =>
      cases elements with
      | nil => cases hopens
      | cons e elements =>
        have hline : quote ≠ '\n' := by rcases hquote with rfl | rfl <;> decide
        have hrest : c.rest = e.text ++ (texts elements ++ [quote, quote, quote] ++ following) := by
          rw [hrest, texts_cons, List.append_assoc, List.append_assoc, List.append_assoc]
        obtain ⟨d, hstands, hpasses⟩ := h.toSound.head.stands hrest (by
          rw [List.append_assoc]
          exact h.toSound.not_splits hline (quote :: quote :: following))
        cases hstands with
        | plain => cases hopens
        | escape => cases hopens
        | lineBreak _ _ hsome => exact ⟨_, d, by simp [hsome], rfl, hpasses, h.tail⟩
  have hinside : inside.rest = texts (inner elements) ++ [quote, quote, quote] ++ following := by
    refine List.append_cancel_left (hpasses.rest.symm.trans ?_)
    rw [hrest, hfront, List.append_assoc, List.append_assoc, List.append_assoc]
  obtain ⟨d, hread, hpasses'⟩ : ∃ d, blockBody quote (inside.rest.length + 1) {} inside =
      .ok (((inner elements).foldl BlockText.add {}).endLine, d) ∧
      inside.Passes (texts (inner elements) ++ [quote, quote, quote]) [] d :=
    blockBody_of_elements hquote hinner hinside (Nat.lt_succ_self _)
  have hlines : ((inner elements).foldl BlockText.add {}).endLine.lines =
      (StringElement.lines (inner elements)).reverse := by
    rw [← List.reverse_inj, BlockText.foldl_add, List.reverse_reverse]
    cases StringElement.lines (inner elements) <;> rfl
  refine ⟨d, ?_, ?_⟩
  · rw [hfront, List.append_assoc]
    exact hpasses.trans hpasses'
  · unfold blockLiteral
    dsimp only
    rw [hnewline.2, hread, hnewline.1]
    show Except.ok _ = _
    rw [hlines, blockValue_eq]

theorem elements_of_blockLiteral {l : Lexeme} (h : blockLiteral quote c = .ok (l, d)) :
    ∃ elements, Enclosed quote elements ∧
      c.Passes (texts elements ++ [quote, quote, quote]) [] d := by
  obtain ⟨⟨read, stop⟩, hbody, hpure⟩ := ok_of_bind h
  cases hpure
  obtain ⟨elements, helements, hpasses⟩ := elements_of_blockBody hquote hbody
  cases hnewline : c.newline? with
  | none =>
    rw [hnewline] at hpasses
    exact ⟨elements, helements, hpasses⟩
  | some inside =>
    rw [hnewline, Option.getD_some] at hpasses
    obtain ⟨terminator, hmem, hfront⟩ := newline?_passes hnewline
    refine ⟨.lineBreak terminator :: elements, .cons hmem helements ?_ ?_, ?_⟩
    · have hwhole := hfront.whole
      rw [hpasses.rest, List.append_assoc] at hwhole
      exact Lines.not_splits_left hwhole
    · obtain ⟨ch, more, rfl, hends⟩ := terminators_head hmem
      intro hbegin
      obtain rfl : quote = ch := (List.cons_prefix_cons.mp hbegin).1
      rcases hquote with rfl | rfl <;> exact absurd hends (by decide)
    · rw [texts_cons, List.append_assoc]
      exact hfront.trans hpasses

end Literals

end Scan

namespace Scanner

variable {quote : Char}

/-- A literal between three quotes is read just when it is made of elements among which the closing
quotes do not begin. Its text is made of its lines; what is taken from a line are blanks, and as many of
its indentation as the last line has. -/
theorem next_enclosed (hquote : quote = '"' ∨ quote = '\'') :
    (∀ (s t : Scanner) (start : Cursor), trivia s.cursor = .ok start →
      [quote, quote, quote] <+: start.rest →
      (s.next = (.ok (), t) ↔ ∃ elements stop, Enclosed quote elements ∧
        start.Passes (enclosed quote elements) [] stop ∧
        t = { s.moveTo stop with token := {
          kind := .string
          text := String.ofList (blockText (opens elements) (StringElement.lines (inner elements)))
          span := start.spanTo stop } })) ∧
    ∀ (base : Nat) (line : List Char),
      (∃ removed, line = removed ++ dedent base line ∧
        ∀ ch ∈ removed, CharClass.isBlank ch = true) ∧
      indent (dedent base line) = indent line - base := by
  refine ⟨fun s t start hstart hquotes => ?_,
    fun base line => ⟨blank_of_dedent base line, indent_dedent base line⟩⟩
  obtain ⟨more, hmore⟩ := hquotes
  have hrest : start.rest = quote :: (quote :: quote :: more) := hmore.symm
  have hskip : start.Passes [quote, quote, quote] [] (start.skip 3) :=
    passes_skip hmore.symm (threeQuotes_allNarrow hquote)
  have hlexeme : lexeme start = blockLiteral quote (start.skip 3) := by
    rw [lexeme_quote hquote hrest, stringLiteral, if_pos (startsWith_of_rest hmore.symm)]
  have hnext : ∀ {l : Lexeme} {stop : Cursor}, blockLiteral quote (start.skip 3) = .ok (l, stop) →
      s.next = (.ok (), { s.moveTo stop with token := { l with span := start.spanTo stop } }) := by
    intro l stop hread
    rw [next_of_start hstart, hlexeme, hread]
  constructor
  · intro h
    cases hread : blockLiteral quote (start.skip 3) with
    | error failure =>
      rw [next_of_start hstart, hlexeme, hread] at h
      cases h
    | ok found =>
      obtain ⟨l, stop⟩ := found
      obtain ⟨elements, helements, hpasses⟩ := elements_of_blockLiteral hquote hread
      obtain ⟨stop', hpasses', hread'⟩ := blockLiteral_of_elements hquote helements hpasses.rest
      obtain rfl := hpasses.unique hpasses'
      cases hread.symm.trans hread'
      rw [hnext hread] at h
      cases h
      exact ⟨elements, stop, helements, hskip.trans hpasses, rfl⟩
  · rintro ⟨elements, stop, helements, hpasses, rfl⟩
    have hinside : (start.skip 3).rest = texts elements ++ [quote, quote, quote] ++ stop.rest := by
      refine List.append_cancel_left (hskip.rest.symm.trans ?_)
      rw [hpasses.rest, enclosed, List.append_assoc]
    obtain ⟨stop', hpasses', hread⟩ := blockLiteral_of_elements hquote helements hinside
    obtain rfl := hpasses.unique (hskip.trans hpasses')
    exact hnext hread

/-- The last line takes two of the four blanks, and an escaped tab stays. -/
theorem next_enclosed_indented : ∃ elements stop, Enclosed '"' elements ∧
    (Cursor.ofContent "\"\"\"\n    a\\tb\n  \"\"\"".toList).Passes (enclosed '"' elements) [] stop ∧
    stop.rest = [] ∧
    String.ofList (blockText (opens elements) (StringElement.lines (inner elements))) = "  a\tb" := by
  let s := Scanner.ofScript (Script.ofSource "/a.es" "\"\"\"\n    a\\tb\n  \"\"\"")
  have hnext : s.next = (.ok (), s.next.2) := Prod.ext (by rfl) rfl
  obtain ⟨elements, stop, helements, hpasses, hstop⟩ :=
    ((next_enclosed (Or.inl rfl)).1 s _ _ rfl ⟨_, rfl⟩).mp hnext
  refine ⟨elements, stop, helements, hpasses, ?_, ?_⟩
  · exact (congrArg (fun t => t.cursor.rest) hstop).symm.trans (by rfl)
  · exact (congrArg (fun t => t.token.text) hstop).symm.trans (by rfl)

end Scanner

end ActionSyntax
