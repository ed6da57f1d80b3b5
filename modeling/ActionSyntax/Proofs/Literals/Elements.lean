import ActionSyntax.Proofs.Literals.CodePoints
import ActionSyntax.Proofs.Places.Lexemes
import Mathlib.Data.List.Chain

/-!
What strings are spelled with: plain characters, escapes and raw line terminators. Each element that is
spelled as it should be is taken in one step, and there is such an element behind every step, so the two
kinds of strings differ only in where they end and in what they make of the elements.
-/

namespace ActionSyntax

set_option autoImplicit false

open Scan Cursor

namespace Cursor

variable {c d : Cursor} {terminator rest : List Char}

/-- A terminator begins with a character that ends lines. -/
theorem terminators_head (h : terminator ∈ terminators) :
    ∃ ch more, terminator = ch :: more ∧ CharClass.isLineTerminator ch = true := by
  simp only [terminators, List.mem_cons, List.not_mem_nil, or_false] at h
  rcases h with rfl | rfl | rfl | rfl | rfl <;> exact ⟨_, _, rfl, by decide⟩

/-- A line terminator that is not torn is passed, and nothing but it. -/
theorem newline?_of_rest (hterminator : terminator ∈ terminators) (hrest : c.rest = terminator ++ rest)
    (hwhole : ¬ Lines.Splits terminator rest) :
    ∃ d, c.newline? = some d ∧ c.Passes terminator [] d := by
  have hends : Lines.ends c.index terminator = [c.index + Utf8.byteLength terminator] := by
    simp only [terminators, List.mem_cons, List.not_mem_nil, or_false] at hterminator
    rcases hterminator with rfl | rfl | rfl | rfl | rfl <;> rfl
  refine ⟨_, ?_, passes_startLine hrest hends hwhole⟩
  simp only [terminators, List.mem_cons, List.not_mem_nil, or_false] at hterminator
  unfold newline?
  rw [hrest]
  rcases hterminator with rfl | rfl | rfl | rfl | rfl
  · rfl
  · rfl
  · cases rest with
    | nil => rfl
    | cons ch rest =>
      split
      · rename_i heq
        cases heq
      · rename_i heq
        cases heq
        exact absurd ⟨rfl, rfl⟩ hwhole
      · rename_i heq
        cases heq
        rfl
  · rfl
  · rfl

theorem terminator_singleton {ch : Char} (h : CharClass.isLineTerminator ch = true) : [ch] ∈ terminators := by
  simp only [CharClass.isLineTerminator, Bool.or_eq_true, beq_iff_eq] at h
  rcases h with ((rfl | rfl) | rfl) | rfl <;> decide

/-- A character that ends lines is passed, with the line feed that belongs to it. -/
theorem newline?_of_ends {ch : Char} (hrest : c.rest = ch :: rest)
    (hends : CharClass.isLineTerminator ch = true) :
    (∃ more d, ch = '\r' ∧ rest = '\n' :: more ∧ c.newline? = some d ∧
      c.Passes ['\r', '\n'] [] d) ∨
    ¬ Lines.Splits [ch] rest ∧ ∃ d, c.newline? = some d ∧ c.Passes [ch] [] d := by
  by_cases hsplits : Lines.Splits [ch] rest
  · obtain ⟨hlast, hhead⟩ := hsplits
    obtain ⟨more, rfl⟩ := List.head?_eq_some_iff.mp hhead
    obtain rfl : ch = '\r' := Option.some.inj hlast
    have hpair : ['\r', '\n'] ∈ terminators := by decide
    obtain ⟨d, hnewline, hpasses⟩ := newline?_of_rest hpair hrest
      (Lines.not_splits_of_last (by decide) ['\r'] more)
    exact Or.inl ⟨more, d, rfl, rfl, hnewline, hpasses⟩
  · exact Or.inr ⟨hsplits, newline?_of_rest (terminator_singleton hends) hrest hsplits⟩

end Cursor

theorem Lines.Splits.cons {ch : Char} {before after : List Char} (h : Splits before after) :
    Splits (ch :: before) after := by
  obtain ⟨hlast, hhead⟩ := h
  cases before with
  | nil => cases hlast
  | cons => exact ⟨hlast, hhead⟩

namespace Scan

variable {c d : Cursor} {ch : Char} {rest : List Char}

/-- An escape in a string: a character with a name, another one that stands for itself, a code point, or
a line terminator that is passed over. -/
inductive Escape where
  | named (ch : Char)
  | other (ch : Char)
  | codePoint (p : CodePoint)
  | continuation (terminator : List Char)

namespace Escape

def body : Escape → List Char
  | named ch => [ch]
  | other ch => [ch]
  | codePoint p => p.text
  | continuation terminator => terminator

def text (e : Escape) : List Char := '\\' :: e.body

def value : Escape → Option Char
  | named ch => namedEscape? ch
  | other ch => some ch
  | codePoint p => some p.char
  | continuation _ => none

def Proper : Escape → Prop
  | named ch => (namedEscape? ch).isSome = true
  | other ch => namedEscape? ch = none ∧ ch ≠ 'x' ∧ ch ≠ 'u' ∧ CharClass.isLineTerminator ch = false
  | codePoint p => p.Proper
  | continuation terminator => terminator ∈ terminators

end Escape

theorem isCodePointLetter_named (h : (namedEscape? ch).isSome = true) :
    (ch == 'u' || ch == 'x') = false := by
  rw [Bool.or_eq_false_iff, beq_eq_false_iff_ne, beq_eq_false_iff_ne]
  constructor <;> rintro rfl <;> exact absurd h (by decide)

theorem namedEscape?_terminator (h : CharClass.isLineTerminator ch = true) :
    namedEscape? ch = none ∧ (ch == 'u' || ch == 'x') = false := by
  simp only [CharClass.isLineTerminator, Bool.or_eq_true, beq_iff_eq] at h
  rcases h with ((rfl | rfl) | rfl) | rfl <;> decide

/-- An escape that is spelled as it should be is read, and nothing but it. -/
theorem stringEscape_of_proper {e : Escape} (he : e.Proper) (hrest : c.rest = e.text ++ rest)
    (hwhole : ¬ Lines.Splits e.text rest) :
    ∃ d, stringEscape c = .ok (e.value, d) ∧ c.Passes e.text [] d := by
  have hmark : AllNarrow ['\\'] := by decide
  have hbackslash : c.Passes ['\\'] [] (c.skip 1) := passes_skip hrest hmark
  have hinside : (c.skip 1).rest = e.body ++ rest := by simp [skip, hrest, Escape.text]
  have hbody : ¬ Lines.Splits e.body rest := fun h => hwhole h.cons
  unfold stringEscape
  dsimp only
  cases e with
  | named ch =>
    obtain ⟨value, hvalue⟩ := Option.isSome_iff_exists.mp he
    have hnarrow : AllNarrow [ch] := fun a ha => by
      rw [List.mem_singleton.mp ha]
      exact namedEscape?_narrow hvalue
    simp only [hinside, Escape.body, List.singleton_append, isCodePointLetter_named he, hvalue,
      Escape.value]
    exact ⟨_, rfl, hbackslash.trans (passes_skip hinside hnarrow)⟩
  | other ch =>
    obtain ⟨hname, hx, hu, hplain⟩ := he
    have hletter : (ch == 'u' || ch == 'x') = false := by simp [hx, hu]
    have hnone : (c.skip 1).newline? = none := (newline?_eq_none hinside).mpr hplain
    simp only [hinside, Escape.body, List.singleton_append, hletter, hname, hnone, Escape.value]
    exact ⟨_, rfl, hbackslash.trans (passes_advance hinside hplain)⟩
  | codePoint p =>
    have hread : escapedChar (c.skip 1) = .ok (p.char, (c.skip 1).skip p.text.length) :=
      escapedChar_ok_iff.mpr ⟨p, he, ⟨rest, hinside.symm⟩, rfl, rfl⟩
    have hletter : (p.letter == 'u' || p.letter == 'x') = true := by
      rcases he.letter with heq | heq <;> rw [heq] <;> rfl
    simp only [hinside, Escape.body, CodePoint.text, List.cons_append, hletter, if_true, hread]
    exact ⟨_, rfl, hbackslash.trans (passes_skip hinside he.narrow)⟩
  | continuation terminator =>
    obtain ⟨d, hnewline, hpasses⟩ := newline?_of_rest he hinside hbody
    obtain ⟨ch, more, rfl, hends⟩ := terminators_head he
    obtain ⟨hname, hletter⟩ := namedEscape?_terminator hends
    simp only [hinside, Escape.body, List.cons_append, hletter, hname, hnewline, Escape.value]
    exact ⟨_, rfl, hbackslash.trans hpasses⟩

/-- Whatever is read for an escape is one that is spelled as it should be. -/
theorem stringEscape_ok {value : Option Char} (hrest : c.rest = '\\' :: rest)
    (h : stringEscape c = .ok (value, d)) :
    ∃ e : Escape, e.Proper ∧ e.value = value ∧ c.Passes e.text [] d := by
  have hmark : AllNarrow ['\\'] := by decide
  have hbackslash : c.Passes ['\\'] [] (c.skip 1) := passes_skip hrest hmark
  unfold stringEscape at h
  dsimp only at h
  cases hinside : (c.skip 1).rest with
  | nil => simp [hinside] at h
  | cons ch rest =>
    simp only [hinside] at h
    split at h
    · obtain ⟨⟨read, e⟩, hread, hpure⟩ := ok_of_bind h
      cases hpure
      obtain ⟨p, hp, ⟨more, hbegin⟩, rfl, rfl⟩ := escapedChar_ok_iff.mp hread
      exact ⟨.codePoint p, hp, rfl, hbackslash.trans (passes_skip hbegin.symm hp.narrow)⟩
    rename_i hletter
    split at h
    · rename_i named hvalue
      cases h
      have hnarrow : AllNarrow [ch] := fun a ha => by
        rw [List.mem_singleton.mp ha]
        exact namedEscape?_narrow hvalue
      exact ⟨.named ch, Option.isSome_of_eq_some hvalue, hvalue,
        hbackslash.trans (passes_skip hinside hnarrow)⟩
    rename_i hname
    split at h
    · rename_i e hnewline
      cases h
      obtain ⟨terminator, hmem, hpasses⟩ := newline?_passes hnewline
      exact ⟨.continuation terminator, hmem, rfl, hbackslash.trans hpasses⟩
    · rename_i hnewline
      cases h
      have hplain := (newline?_eq_none hinside).mp hnewline
      refine ⟨.other ch, ⟨hname, ?_, ?_, hplain⟩, rfl, hbackslash.trans (passes_advance hinside hplain)⟩
      · rintro rfl
        exact hletter rfl
      · rintro rfl
        exact hletter rfl

/-- What a string is made of. -/
inductive StringElement where
  | plain (ch : Char)
  | escape (e : Escape)
  | lineBreak (terminator : List Char)

namespace StringElement

def text : StringElement → List Char
  | plain ch => [ch]
  | escape e => e.text
  | lineBreak terminator => terminator

/-- A line break stands for a line feed. -/
def value : StringElement → List Char
  | plain ch => [ch]
  | escape e => e.value.toList
  | lineBreak _ => ['\n']

def breaks : StringElement → Bool
  | lineBreak _ => true
  | _ => false

def Proper : StringElement → Prop
  | plain ch => ch ≠ '\\' ∧ CharClass.isLineTerminator ch = false
  | escape e => e.Proper
  | lineBreak terminator => terminator ∈ terminators

/-- The texts and the values of elements in a row. -/
def texts (elements : List StringElement) : List Char := elements.flatMap text

def values (elements : List StringElement) : List Char := elements.flatMap value

@[simp] theorem texts_nil : texts [] = [] := rfl

@[simp] theorem texts_cons (e : StringElement) (elements : List StringElement) :
    texts (e :: elements) = e.text ++ texts elements := rfl

@[simp] theorem values_nil : values [] = [] := rfl

@[simp] theorem values_cons (e : StringElement) (elements : List StringElement) :
    values (e :: elements) = e.value ++ values elements := rfl

theorem Proper.text_ne_nil {e : StringElement} (h : e.Proper) : e.text ≠ [] := by
  cases e with
  | plain => exact List.cons_ne_nil _ _
  | escape => exact List.cons_ne_nil _ _
  | lineBreak =>
    obtain ⟨ch, more, rfl, -⟩ := terminators_head h
    exact List.cons_ne_nil _ _

/-- The spelling of an element begins with a plain character only if that is the whole of it. -/
theorem Proper.eq_plain {e : StringElement} (h : e.Proper) {more : List Char}
    (htext : e.text = ch :: more) (hch : ch ≠ '\\') (hplain : CharClass.isLineTerminator ch = false) :
    e = .plain ch := by
  cases e with
  | plain => cases htext; rfl
  | escape =>
    cases htext
    exact absurd rfl hch
  | lineBreak =>
    obtain ⟨first, _, rfl, hends⟩ := terminators_head h
    cases htext
    simp [hends] at hplain

/-- The element is what a reader finds at a cursor, and it ends at the other one. -/
inductive Stands : StringElement → Cursor → Cursor → Prop
  | plain {c : Cursor} {ch : Char} {rest : List Char} (hrest : c.rest = ch :: rest) (hch : ch ≠ '\\')
    (hnone : c.newline? = none) : Stands (.plain ch) c c.advance
  | escape {c d : Cursor} {e : Escape} {rest : List Char} (hrest : c.rest = '\\' :: rest)
    (hread : stringEscape c = .ok (e.value, d)) : Stands (.escape e) c d
  | lineBreak {c d : Cursor} {ch : Char} {terminator rest : List Char} (hrest : c.rest = ch :: rest)
    (hch : ch ≠ '\\') (hsome : c.newline? = some d) : Stands (.lineBreak terminator) c d

/-- An element that is not torn from what follows is found and passed. -/
theorem Proper.stands {e : StringElement} (h : e.Proper) (hrest : c.rest = e.text ++ rest)
    (hwhole : ¬ Lines.Splits e.text rest) : ∃ d, e.Stands c d ∧ c.Passes e.text [] d := by
  cases e with
  | plain ch =>
    obtain ⟨hch, hplain⟩ := h
    exact ⟨_, .plain hrest hch ((newline?_eq_none hrest).mpr hplain), passes_advance hrest hplain⟩
  | escape e =>
    obtain ⟨d, hread, hpasses⟩ := stringEscape_of_proper h hrest hwhole
    exact ⟨d, .escape hrest hread, hpasses⟩
  | lineBreak terminator =>
    obtain ⟨d, hsome, hpasses⟩ := newline?_of_rest h hrest hwhole
    obtain ⟨ch, more, rfl, hends⟩ := terminators_head h
    refine ⟨d, .lineBreak hrest ?_ hsome, hpasses⟩
    rintro rfl
    exact absurd hends (by decide)

/-- In front of any character an element is found, or a backslash that no escape begins with. -/
theorem stands_or_fails (hrest : c.rest = ch :: rest) :
    (∃ (e : StringElement) (d : Cursor), e.Proper ∧ e.Stands c d ∧ c.Passes e.text [] d) ∨
      ch = '\\' ∧ ∃ failure, stringEscape c = .error failure := by
  by_cases hch : ch = '\\'
  · subst hch
    cases hread : stringEscape c with
    | error failure => exact Or.inr ⟨rfl, failure, rfl⟩
    | ok found =>
      obtain ⟨value, d⟩ := found
      obtain ⟨e, he, rfl, hpasses⟩ := stringEscape_ok hrest hread
      exact Or.inl ⟨.escape e, d, he, .escape hrest hread, hpasses⟩
  · left
    cases hnewline : c.newline? with
    | none =>
      have hplain := (newline?_eq_none hrest).mp hnewline
      exact ⟨.plain ch, _, ⟨hch, hplain⟩, .plain hrest hch hnewline, passes_advance hrest hplain⟩
    | some d =>
      obtain ⟨terminator, hmem, hpasses⟩ := newline?_passes hnewline
      exact ⟨.lineBreak terminator, d, hmem, .lineBreak hrest hch hnewline, hpasses⟩

/-- The elements are spelled as they should be, and no line feed joins a carriage return that ends the
element before it. -/
structure Sound (elements : List StringElement) : Prop where
  proper : ∀ e ∈ elements, e.Proper
  whole : elements.IsChain fun e e' => ¬ Lines.Splits e.text e'.text

namespace Sound

variable {e : StringElement} {elements : List StringElement}

theorem nil : Sound [] := ⟨nofun, .nil⟩

theorem head (h : Sound (e :: elements)) : e.Proper := h.proper e List.mem_cons_self

theorem tail (h : Sound (e :: elements)) : Sound elements :=
  ⟨fun e' hmem => h.proper e' (List.mem_cons_of_mem _ hmem), h.whole.tail⟩

theorem head_texts (h : Sound (e :: elements)) : (texts (e :: elements)).head? = e.text.head? := by
  rw [texts_cons, List.head?_append_of_ne_nil _ h.head.text_ne_nil]

/-- An element is not torn from the elements behind it, nor from a character behind them all. -/
theorem not_splits (h : Sound (e :: elements)) (hch : ch ≠ '\n') (following : List Char) :
    ¬ Lines.Splits e.text (texts elements ++ ch :: following) := by
  cases elements with
  | nil => exact Lines.not_splits_of_head hch _ _
  | cons e' elements =>
    have hnot : ¬ Lines.Splits e.text e'.text := (List.isChain_cons_cons.mp h.whole).1
    have hne : texts (e' :: elements) ≠ [] := by simp [h.tail.head.text_ne_nil]
    rintro ⟨hlast, hhead⟩
    rw [List.head?_append_of_ne_nil _ hne, h.tail.head_texts] at hhead
    exact hnot ⟨hlast, hhead⟩

/-- An element in front of others, if it is not torn from them. -/
theorem cons (he : e.Proper) (h : Sound elements) (hwhole : ¬ Lines.Splits e.text (texts elements)) :
    Sound (e :: elements) := by
  refine ⟨List.forall_mem_cons.mpr ⟨he, h.proper⟩, ?_⟩
  cases elements with
  | nil => exact .singleton _
  | cons e' elements =>
    refine List.isChain_cons_cons.mpr ⟨fun hs => hwhole ?_, h.whole⟩
    exact ⟨hs.1, h.head_texts.trans hs.2⟩

end Sound

end StringElement

end Scan

end ActionSyntax
