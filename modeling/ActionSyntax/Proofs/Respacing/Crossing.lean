import ActionSyntax.Proofs.Literals.Elements
import ActionSyntax.Proofs.Respacing.Tails

/-!
Whatever is a gap is passed as one. Blanks, line terminators and complete comments between two tokens are
passed with nothing left of them, and noted as they should be. A text with a gap in it, and another gap to
stand in its place, are scanned alike in front of the gap, and like the text that ends with the gap, as far
as what is scanned ends there.
-/

namespace ActionSyntax

set_option autoImplicit false

open Utf8 Scan Cursor

namespace Scan

variable {c d : Cursor} {before content text after rest more : List Char} {notes : List Comment} {ch : Char}

/-- Inside a comment one character is passed, or a carriage return with its line feed. -/
theorem commentChar_of_rest (hrest : c.rest = ch :: rest) :
    ∃ d, commentChar c = .ok d ∧
      (d.rest = rest ∨ ∃ more, rest = '\n' :: more ∧ d.rest = more) := by
  unfold commentChar
  by_cases hends : CharClass.isLineTerminator ch = true
  · obtain ⟨more, d, rfl, rfl, hline, hp⟩ | ⟨-, d, hline, hp⟩ := newline?_of_ends hrest hends
    · have hwhole : ['\r', '\n'] ++ more = ['\r', '\n'] ++ d.rest := hrest.symm.trans hp.rest
      exact ⟨d, by rw [hline], Or.inr ⟨more, rfl, (List.append_cancel_left hwhole).symm⟩⟩
    · have hwhole : [ch] ++ rest = [ch] ++ d.rest := hrest.symm.trans hp.rest
      exact ⟨d, by rw [hline], Or.inl (List.append_cancel_left hwhole).symm⟩
  · have hline := (newline?_eq_none hrest).mpr (Bool.eq_false_iff.mpr hends)
    have hopen : ¬ c.atEnd = true := by simp [atEnd, hrest]
    exact ⟨c.advance, by rw [hline, if_neg hopen], Or.inl (by simp [advance, hrest])⟩

section Blocks

/-- From the beginning of the text to its end no comment is closed but those that are opened there. -/
def LeadsOver (content : List Char) : Prop :=
  ∀ {c : Cursor} {fuel : Nat} (depth : Nat) (more : List Char),
    c.rest = content ++ (blockClosing ++ more) → c.rest.length < fuel →
      ∃ (fuel' : Nat) (d : Cursor), d.rest = blockClosing ++ more ∧ d.rest.length < fuel' ∧
        blockEnd fuel depth c = blockEnd fuel' depth d

theorem LeadsOver.nil : LeadsOver [] := fun _ _ hrest hfuel => ⟨_, _, hrest, hfuel, rfl⟩

/-- A mark of two characters that begins a longer text begins what is left of the text before the end. -/
theorem prefix_closing {mark : List Char} (hlength : mark.length = 2)
    (h : mark <+: ch :: rest ++ (blockClosing ++ more)) : mark <+: ch :: rest ++ blockClosing := by
  rw [← List.append_assoc] at h
  exact List.prefix_of_prefix_length_le h (List.prefix_append _ _) (by simp [hlength, blockClosing])

theorem LeadsOver.char (hopen : ¬ blockOpening <+: ch :: rest ++ blockClosing)
    (hclose : ¬ blockClosing <+: ch :: rest ++ blockClosing) (hrest : LeadsOver rest)
    (hpair : ∀ more, rest = '\n' :: more → LeadsOver more) : LeadsOver (ch :: rest) := by
  intro c fuel depth more hc hfuel
  obtain ⟨fuel, rfl⟩ : ∃ n, fuel = n + 1 := ⟨fuel - 1, by omega⟩
  have hhead : c.rest = ch :: (rest ++ (blockClosing ++ more)) := hc
  obtain ⟨d, hchar, hd⟩ := commentChar_of_rest hhead
  have hstep : blockEnd (fuel + 1) depth c = blockEnd fuel depth d := by
    have hopen' : ¬ c.startsWith ['/', '*'] = true := fun h =>
      hopen (prefix_closing rfl (hc ▸ startsWith_iff.mp h))
    have hclose' : ¬ c.startsWith ['*', '/'] = true := fun h =>
      hclose (prefix_closing rfl (hc ▸ startsWith_iff.mp h))
    simp only [blockEnd, if_neg hopen', if_neg hclose', hchar]
    rfl
  rw [hstep]
  have hlong : c.rest.length = (rest ++ (blockClosing ++ more)).length + 1 := by rw [hhead]; rfl
  obtain heq | ⟨after, hafter, heq⟩ := hd
  · exact hrest depth more heq (by rw [heq]; omega)
  · cases rest with
    | nil => cases hafter
    | cons next rest =>
      obtain ⟨rfl, rfl⟩ := List.cons.inj hafter
      have hbehind : d.rest = rest ++ (blockClosing ++ more) := heq
      have hlonger : c.rest.length = d.rest.length + 2 := by rw [hlong, hbehind]; rfl
      exact hpair rest rfl depth more hbehind (by omega)

theorem LeadsOver.comment {inner : List Char} (hinner : LeadsOver inner) (hrest : LeadsOver rest) :
    LeadsOver (blockOpening ++ inner ++ blockClosing ++ rest) := by
  intro c fuel depth more hc hfuel
  obtain ⟨fuel, rfl⟩ : ∃ n, fuel = n + 1 := ⟨fuel - 1, by omega⟩
  have hwhole : c.rest = blockOpening ++ (inner ++ (blockClosing ++ (rest ++ (blockClosing ++ more)))) := by
    simpa only [List.append_assoc] using hc
  have hinside : (c.skip 2).rest = inner ++ (blockClosing ++ (rest ++ (blockClosing ++ more))) := by
    simp [skip, hwhole, blockOpening]
  have hopen : c.startsWith ['/', '*'] = true := startsWith_iff.mpr ⟨_, hwhole.symm⟩
  have hlength : (c.skip 2).rest.length < fuel := by
    simp only [hinside, hwhole, blockOpening, List.length_append, List.length_cons] at hfuel ⊢
    omega
  obtain ⟨fuel', d, hd, hfuel', heq⟩ := hinner (depth + 1) _ hinside hlength
  obtain ⟨fuel', rfl⟩ : ∃ n, fuel' = n + 1 := ⟨fuel' - 1, by omega⟩
  have hbehind : (d.skip 2).rest = rest ++ (blockClosing ++ more) := by simp [skip, hd, blockClosing]
  have hclosed : ¬ d.startsWith ['/', '*'] = true := by
    rw [startsWith_iff, hd]
    simp [blockClosing]
  have hclose : d.startsWith ['*', '/'] = true := startsWith_iff.mpr ⟨_, hd.symm⟩
  have hlength' : (d.skip 2).rest.length < fuel' := by
    have hlong : d.rest.length = (d.skip 2).rest.length + 2 := by rw [hd, hbehind]; rfl
    omega
  obtain ⟨fuel'', e, he, hfuel'', heq'⟩ := hrest depth more hbehind hlength'
  refine ⟨fuel'', e, he, hfuel'', ?_⟩
  simp only [blockEnd, if_pos hopen, if_neg hclosed, if_pos hclose] at heq ⊢
  exact heq.trans heq'

/-- The inside of a comment leads over, and so does what follows a line feed at its beginning. -/
theorem leadsOver_of_nested (h : Nested content) :
    LeadsOver content ∧ ∀ rest, content = '\n' :: rest → LeadsOver rest := by
  induction h with
  | nil => exact ⟨LeadsOver.nil, nofun⟩
  | char hopen hclose below ih =>
    refine ⟨LeadsOver.char hopen hclose ih.1 ih.2, fun rest heq => ?_⟩
    obtain ⟨-, rfl⟩ := List.cons.inj heq
    exact ih.1
  | comment nested below ihInner ihBelow =>
    refine ⟨LeadsOver.comment ihInner.1 ihBelow.1, fun rest heq => ?_⟩
    cases heq

/-- A comment ends behind the delimiter that closes it. -/
theorem blockEnd_of_nested (h : Nested content) {fuel : Nat}
    (hrest : c.rest = content ++ (blockClosing ++ more)) (hfuel : c.rest.length < fuel) :
    ∃ d, blockEnd fuel 0 c = .ok d ∧ d.rest = more := by
  obtain ⟨fuel', d, hd, hfuel', heq⟩ := (leadsOver_of_nested h).1 0 more hrest hfuel
  obtain ⟨fuel', rfl⟩ : ∃ n, fuel' = n + 1 := ⟨fuel' - 1, by omega⟩
  have hclosed : ¬ d.startsWith ['/', '*'] = true := by
    rw [startsWith_iff, hd]
    simp [blockClosing]
  have hclose : d.startsWith ['*', '/'] = true := startsWith_iff.mpr ⟨_, hd.symm⟩
  refine ⟨d.skip 2, ?_, by simp [skip, hd, blockClosing]⟩
  simp only [heq, blockEnd, if_neg hclosed, if_pos hclose]

end Blocks

/-- A markup comment ends behind the first delimiter that closes it. -/
theorem markupEnd_of_free : ∀ {content : List Char} {fuel : Nat} {c : Cursor},
    ¬ markupClosing <:+: content ++ ['-', '-'] → c.rest = content ++ (markupClosing ++ more) →
      c.rest.length < fuel → ∃ d, markupEnd fuel c = .ok d ∧ d.rest = more
  | _, 0, _, _, _, hfuel => absurd hfuel (Nat.not_lt_zero _)
  | [], fuel + 1, c, _, hrest, _ => by
    have hclose : c.startsWith ['-', '-', '>'] = true := startsWith_iff.mpr ⟨_, hrest.symm⟩
    refine ⟨c.skip 3, ?_, by simp [skip, hrest, markupClosing]⟩
    rw [markupEnd, if_pos hclose]
  | ch :: content, fuel + 1, c, hfree, hrest, hfuel => by
    have hclose : ¬ c.startsWith ['-', '-', '>'] = true := by
      rw [startsWith_iff, hrest]
      intro hprefix
      refine hfree (List.IsPrefix.isInfix ?_)
      refine List.prefix_of_prefix_length_le hprefix ?_ (by simp [markupClosing])
      exact ⟨'>' :: more, by simp [markupClosing]⟩
    have hbelow : ∀ {rest : List Char}, rest <:+ content → ¬ markupClosing <:+: rest ++ ['-', '-'] := by
      rintro rest ⟨front, rfl⟩ hin
      exact hfree (hin.trans (List.IsSuffix.isInfix ⟨ch :: front, by simp⟩))
    have hhead : c.rest = ch :: (content ++ (markupClosing ++ more)) := hrest
    obtain ⟨d, hchar, hd⟩ := commentChar_of_rest hhead
    have hstep : markupEnd (fuel + 1) c = markupEnd fuel d := by
      rw [markupEnd, if_neg hclose, hchar]
      rfl
    rw [hstep]
    have hlong : c.rest.length = (content ++ (markupClosing ++ more)).length + 1 := by rw [hhead]; rfl
    obtain heq | ⟨after, hafter, heq⟩ := hd
    · exact markupEnd_of_free (hbelow List.suffix_rfl) heq (by rw [heq]; omega)
    · cases content with
      | nil => cases hafter
      | cons next content =>
        obtain ⟨rfl, rfl⟩ := List.cons.inj hafter
        have hbehind : d.rest = content ++ (markupClosing ++ more) := heq
        have hlonger : c.rest.length = d.rest.length + 2 := by rw [hlong, hbehind]; rfl
        exact markupEnd_of_free (hbelow (List.suffix_cons _ _)) hbehind (by omega)
  termination_by content => content.length

/-- The three forms of comments are told apart by their beginnings. -/
theorem written_inj {form form' : CommentForm} {content content' : List Char}
    (h : form.written content = form'.written content') : form = form' ∧ content = content' := by
  cases form <;> cases form' <;>
    simp [CommentForm.written, blockOpening, markupOpening, blockClosing, markupClosing] at h <;>
    simp [h]

theorem comment?_reads {form : CommentForm} (h : form.Complete content after)
    (hrest : c.rest = form.written content ++ after) :
    ∃ d, comment? c = .ok (some d) ∧ d.rest = after := by
  unfold comment?
  cases form with
  | line =>
    have hrest' : c.rest = '/' :: '/' :: (content ++ after) := hrest
    have hcontent : (content ++ after).takeWhile (!CharClass.isLineTerminator ·) = content := by
      rw [List.takeWhile_append_of_pos fun ch hch => by simp [h.1 ch hch]]
      cases after with
      | nil => simp
      | cons ch after => simp [List.takeWhile_cons_of_neg, h.2 ch rfl]
    obtain ⟨stop, hstop, heq⟩ := lineComment_eq hrest' hcontent
    refine ⟨lineComment c, by simp [startsWith, hrest', List.isPrefixOf], ?_⟩
    rw [heq, hstop]
    rfl
  | block =>
    have hinside : (c.skip 2).rest = content ++ (blockClosing ++ after) := by
      simp [skip, hrest, CommentForm.written, blockOpening]
    have hfuel : (c.skip 2).rest.length < c.rest.length + 1 := by
      simp only [skip, List.length_drop]
      omega
    obtain ⟨e, he, hmore⟩ := blockEnd_of_nested h hinside hfuel
    refine ⟨noteBlock c e 2 2, ?_, hmore⟩
    simp [startsWith, hrest, CommentForm.written, blockOpening, List.isPrefixOf] at he ⊢
    rw [he]
    rfl
  | markup =>
    have hinside : (c.skip 4).rest = content ++ (markupClosing ++ after) := by
      simp [skip, hrest, CommentForm.written, markupOpening]
    have hfuel : (c.skip 4).rest.length < c.rest.length + 1 := by
      simp only [skip, List.length_drop]
      omega
    obtain ⟨e, he, hmore⟩ := markupEnd_of_free h hinside hfuel
    refine ⟨noteBlock c e 4 3, ?_, hmore⟩
    simp [startsWith, hrest, CommentForm.written, markupOpening, List.isPrefixOf] at he ⊢
    rw [he]
    rfl

/-- A complete comment is passed and noted. -/
theorem comment?_of_complete {form : CommentForm} (h : form.Complete content after)
    (hrest : c.rest = form.written content ++ after) :
    ∃ d, comment? c = .ok (some d) ∧
      c.Passes (form.written content) [form.noted content (c.spanTo d)] d := by
  obtain ⟨d, hd, hbehind⟩ := comment?_reads h hrest
  obtain ⟨form', content', -, hp⟩ := comment?_passes hd
  have hwritten : form'.written content' = form.written content := by
    have hwhole := hp.rest
    rw [hrest, hbehind] at hwhole
    exact (List.append_cancel_right hwhole).symm
  obtain ⟨rfl, rfl⟩ := written_inj hwritten
  exact ⟨d, hd, hp⟩

/-- A gap is passed, up to what stands behind it. -/
theorem trivia_of_gap (h : Gap before text notes after) : ∀ {c : Cursor}, c.Behind before →
    c.rest = text ++ after → ∃ d, c.Passes text notes d ∧ trivia c = trivia d := by
  induction h with
  | nil before after => exact fun _ _ => ⟨_, .refl _, rfl⟩
  | @blank before rest after notes ch blank below ih =>
    intro c hc hrest
    have hline := CharClass.not_lineTerminator_of_blank blank
    have hp : c.Passes [ch] [] c.advance := passes_advance hrest hline
    have hstep : triviaStep? c = .ok (some c.advance) := by
      unfold triviaStep?
      rw [hrest]
      simp [blank]
    obtain ⟨d, hd, htrivia⟩ := ih (hc.passes hp) (by simp [advance, hrest])
    exact ⟨d, hp.trans hd, (trivia_step hstep).trans htrivia⟩
  | @newline before terminator rest after notes ends whole below ih =>
    intro c hc hrest
    rw [List.append_assoc] at hrest
    obtain ⟨e, hline, hp⟩ := newline?_of_rest ends hrest whole
    have hstep : triviaStep? c = .ok (some e) := by
      obtain ⟨ch, more, rfl, hch⟩ := terminators_head ends
      unfold triviaStep?
      rw [hrest, hline]
      simp [CharClass.not_blank_of_lineTerminator hch]
    have hbehind : e.rest = rest ++ after := (List.append_cancel_left (hrest.symm.trans hp.rest)).symm
    obtain ⟨d, hd, htrivia⟩ := ih (hc.passes hp) hbehind
    exact ⟨d, hp.trans hd, (trivia_step hstep).trans htrivia⟩
  | @comment before rest after notes form content complete below ih =>
    intro c hc hrest
    rw [List.append_assoc] at hrest
    obtain ⟨e, hcomment, hp⟩ := comment?_of_complete complete hrest
    have hstep : triviaStep? c = .ok (some e) := by
      obtain ⟨ch, more, hhead, hplain⟩ : ∃ ch more, c.rest = ch :: more ∧
          (CharClass.isBlank ch = false ∧ CharClass.isLineTerminator ch = false) := by
        rw [hrest]
        cases form
        · exact ⟨_, _, rfl, by decide⟩
        · exact ⟨_, _, rfl, by decide⟩
        · exact ⟨_, _, rfl, by decide⟩
      unfold triviaStep?
      rw [hhead, (newline?_eq_none hhead).mpr hplain.2, hcomment]
      simp [hplain.1]
    have hbehind : e.rest = rest ++ after := (List.append_cancel_left (hrest.symm.trans hp.rest)).symm
    rw [hc.spanTo hp] at hp
    obtain ⟨d, hd, htrivia⟩ := ih (hc.passes hp) hbehind
    exact ⟨d, hp.trans hd, (trivia_step hstep).trans htrivia⟩

end Scan

namespace Gap

variable {before text after : List Char} {notes : List Comment} {ch : Char} {rest more : List Char}

/-- Of what follows a gap, only the first character matters. -/
theorem exchange (h : Gap before text notes after) (hafter : after = ch :: rest) :
    Gap before text notes (ch :: more) := by
  induction h with
  | nil before after => exact .nil _ _
  | blank blank below ih => exact .blank blank (ih hafter)
  | @newline before terminator between after notes ends whole below ih =>
    refine .newline ends (fun hsplits => whole ?_) (ih hafter)
    obtain ⟨hlast, hhead⟩ := hsplits
    refine ⟨hlast, ?_⟩
    subst hafter
    cases between <;> exact hhead
  | @comment before between after notes form content complete below ih =>
    refine .comment form content ?_ (ih hafter)
    subst hafter
    cases form with
    | line =>
      refine ⟨complete.1, ?_⟩
      have hends := complete.2
      cases between <;> exact hends
    | block => exact complete
    | markup => exact complete

/-- A gap on one line begins with a blank or a comment. -/
theorem begins (h : Gap before text notes after) (hne : text ≠ [])
    (hplain : ∀ ch ∈ text, CharClass.isLineTerminator ch = false) :
    (∃ ch rest, text = ch :: rest ∧ CharClass.isBlank ch = true) ∨
      ∃ form content rest, text = CommentForm.written form content ++ rest := by
  cases h with
  | nil => exact absurd rfl hne
  | blank blank below => exact Or.inl ⟨_, _, rfl, blank⟩
  | newline ends whole below =>
    obtain ⟨ch, more, rfl, hch⟩ := terminators_head ends
    rw [hplain ch (by simp)] at hch
    cases hch
  | comment form content complete below => exact Or.inr ⟨form, content, _, rfl⟩

end Gap

/-- A gap within a line, what stands in front of it and behind it, and another gap within a line that begins
with a blank. -/
structure Respacing where
  front : List Char
  gap : List Char
  other : List Char
  back : List Char
  notes : List Comment
  otherNotes : List Comment
  led : front ≠ []
  stands : Gap front gap notes back
  standsOther : Gap front other otherNotes back
  nonempty : gap ≠ []
  plain : ∀ ch ∈ gap, CharClass.isLineTerminator ch = false
  plainOther : ∀ ch ∈ other, CharClass.isLineTerminator ch = false
  begins : ∃ ch rest, other = ch :: rest ∧ CharClass.isBlank ch = true

theorem mem_gapHeads_of_blank {ch : Char} (h : CharClass.isBlank ch = true) : ch ∈ gapHeads := by
  simp only [CharClass.isBlank, Bool.or_eq_true, beq_iff_eq] at h
  rcases h with (((rfl | rfl) | rfl) | rfl) | rfl <;> decide

/-- A comment begins with a mark of its own. -/
theorem CommentForm.written_begins (form : CommentForm) (content : List Char) :
    ∃ ch next rest, form.written content = ch :: next :: rest ∧ ch ∈ gapHeads ∧ next ≠ '=' := by
  cases form with
  | line => exact ⟨'/', '/', content, rfl, by decide, by decide⟩
  | block => exact ⟨'/', '*', content ++ blockClosing, rfl, by decide, by decide⟩
  | markup => exact ⟨'<', '!', '-' :: '-' :: content ++ markupClosing, rfl, by decide, by decide⟩

namespace Respacing

variable (x : Respacing)

/-- The text up to the end of the gap. -/
def cut : List Char := x.front ++ x.gap

/-- The text with the gap in it. -/
def whole : List Char := x.front ++ (x.gap ++ x.back)

/-- The text with the other gap in its place. -/
def respaced : List Char := x.front ++ (x.other ++ x.back)

theorem gap_begins (more : List Char) : Heads (x.gap ++ more) ∧ ¬ ['<', '='] <+: x.gap ++ more := by
  obtain ⟨ch, rest, hgap, hblank⟩ | ⟨form, content, rest, hgap⟩ := x.stands.begins x.nonempty x.plain
  · refine ⟨⟨ch, rest ++ more, by simp [hgap], mem_gapHeads_of_blank hblank⟩, ?_⟩
    rintro ⟨after, hafter⟩
    obtain rfl : '<' = ch := by simpa [hgap] using congrArg List.head? hafter
    revert hblank
    decide
  · obtain ⟨ch, next, written, hwritten, hch, hnext⟩ := form.written_begins content
    refine ⟨⟨ch, next :: written ++ rest ++ more, by simp [hgap, hwritten], hch⟩, ?_⟩
    rintro ⟨after, hafter⟩
    have hhead : '<' = ch ∧ '=' = next ∧ after = written ++ (rest ++ more) := by
      simpa [hgap, hwritten] using hafter
    exact hnext hhead.2.1.symm

theorem gap_head (more : List Char) : ∀ ch ∈ (x.gap ++ more).head?, x.gap.head? = some ch := by
  obtain ⟨first, rest, hgap⟩ := List.exists_cons_of_ne_nil x.nonempty
  simp [hgap]

/-- The gap with the text behind it may follow a lexeme as the gap alone does. -/
theorem tails_whole : Tails x.gap (x.gap ++ x.back) where
  left := by simpa using (x.gap_begins []).1
  right := (x.gap_begins x.back).1
  same := fun ch hch => Or.inr (x.gap_head x.back ch hch)
  whole := (x.gap_begins x.back).2

/-- The other gap may, with the text behind it. -/
theorem tails_respaced : Tails x.gap (x.other ++ x.back) where
  left := by simpa using (x.gap_begins []).1
  right := by
    obtain ⟨ch, rest, hother, hblank⟩ := x.begins
    exact ⟨ch, rest ++ x.back, by simp [hother], mem_gapHeads_of_blank hblank⟩
  same := by
    obtain ⟨first, rest, hother, hblank⟩ := x.begins
    simp [hother, hblank]
  whole := by
    obtain ⟨ch, rest, hother, hblank⟩ := x.begins
    rintro ⟨after, hafter⟩
    obtain rfl : '<' = ch := by simpa [hother] using congrArg List.head? hafter
    revert hblank
    decide

end Respacing

/-- Blanks and block comments within a line. -/
inductive Padding : List Char → Prop
  | nil : Padding []
  | blank {ch : Char} {rest : List Char} (blank : CharClass.isBlank ch = true) (below : Padding rest) :
      Padding (ch :: rest)
  | comment {content rest : List Char} (nested : Nested content)
      (plain : ∀ ch ∈ content, CharClass.isLineTerminator ch = false) (below : Padding rest) :
      Padding (CommentForm.block.written content ++ rest)

namespace Padding

variable {text : List Char}

theorem plain (h : Padding text) : ∀ ch ∈ text, CharClass.isLineTerminator ch = false := by
  induction h with
  | nil => nofun
  | blank blank below ih =>
    rintro ch (_ | ⟨_, hch⟩)
    · exact CharClass.not_lineTerminator_of_blank blank
    · exact ih _ hch
  | comment nested plain below ih =>
    have hopening : ∀ ch ∈ blockOpening, CharClass.isLineTerminator ch = false := by decide
    have hclosing : ∀ ch ∈ blockClosing, CharClass.isLineTerminator ch = false := by decide
    intro ch hch
    simp only [CommentForm.written, List.mem_append] at hch
    obtain ((hch | hch) | hch) | hch := hch
    · exact hopening ch hch
    · exact plain ch hch
    · exact hclosing ch hch
    · exact ih ch hch

/-- It is a gap wherever it stands. -/
theorem gap (h : Padding text) : ∀ before after, ∃ notes, Gap before text notes after := by
  induction h with
  | nil => exact fun before after => ⟨[], .nil before after⟩
  | blank blank below ih =>
    intro before after
    obtain ⟨notes, hgap⟩ := ih (before ++ [_]) after
    exact ⟨notes, .blank blank hgap⟩
  | @comment content rest nested plain below ih =>
    intro before after
    obtain ⟨notes, hgap⟩ := ih (before ++ CommentForm.block.written content) after
    exact ⟨_, .comment .block content nested hgap⟩

/-- It may stand in the place of any gap within a line if it begins with a blank. -/
theorem respacing {front gap other back : List Char} {notes : List Comment} (h : Padding other)
    (hbegins : ∃ ch rest, other = ch :: rest ∧ CharClass.isBlank ch = true) (hled : front ≠ [])
    (hgap : Gap front gap notes back) (hne : gap ≠ [])
    (hplain : ∀ ch ∈ gap, CharClass.isLineTerminator ch = false) :
    ∃ x : Respacing, x.front = front ∧ x.gap = gap ∧ x.other = other ∧ x.back = back := by
  obtain ⟨otherNotes, hother⟩ := h.gap front back
  exact ⟨{
    front, gap, other, back, notes, otherNotes
    led := hled
    stands := hgap
    standsOther := hother
    nonempty := hne
    plain := hplain
    plainOther := h.plain
    begins := hbegins }, rfl, rfl, rfl, rfl⟩

end Padding

namespace Scan

open Cursor

variable {v w : List Char} {k : Cursor}

/-- Where nothing stands between tokens in front of the first tail, nothing does in front of the second. -/
theorem triviaStep?_none_carries (hx : Tails v w) (hne : k.rest ≠ [])
    (h : triviaStep? (k.before v) = .ok none) : triviaStep? (k.before w) = .ok none := by
  obtain ⟨ch, rest, hrest⟩ := List.exists_cons_of_ne_nil hne
  have hbegins : ∀ tail, (k.before tail).rest = ch :: (rest ++ tail) := fun tail => by
    rw [before_rest, hrest, List.cons_append]
  have hopens : ∀ mark, Watched mark → (k.before v).startsWith mark = false →
      (k.before w).startsWith mark = false := by
    intro mark hmark hv
    rw [Bool.eq_false_iff] at hv ⊢
    exact fun hw => hv (hx.startsWith hmark hne hw)
  unfold triviaStep? at h ⊢
  rw [hbegins, before_newline? hx.left] at h
  rw [hbegins, before_newline? hx.right]
  dsimp only at h ⊢
  split at h
  · cases h
  rename_i hblank
  rw [if_neg hblank]
  cases hline : k.newline? with
  | some d =>
    rw [hline] at h
    cases h
  | none =>
    rw [hline] at h
    obtain ⟨hmarkup, hblock, hcomment⟩ := comment?_eq_none.mp h
    exact comment?_eq_none.mpr ⟨hopens _ (by decide) hmarkup, hopens _ (by decide) hblock,
      hopens _ (by decide) hcomment⟩

/-- What has been passed up to some place in front of a tail has been passed in front of another tail. -/
theorem passes_before {d e : Cursor} {text : List Char} {notes : List Comment}
    (hd : (k.before v).Passes text notes (d.before v)) (he : (k.before w).Passes text notes e) :
    e = d.before w := by
  have hrest : e.rest = d.rest ++ w := by
    have hleft : k.rest = text ++ d.rest := by
      have hwhole := hd.rest
      rw [before_rest, before_rest, ← List.append_assoc] at hwhole
      exact List.append_cancel_right hwhole
    have hright := he.rest
    rw [before_rest, hleft, List.append_assoc] at hright
    exact (List.append_cancel_left hright).symm
  obtain ⟨rest, index, line, lines, comments⟩ := e
  obtain rfl : rest = d.rest ++ w := hrest
  have hindex : index = d.index := he.index.trans hd.index.symm
  have hline : line = d.line := he.line.trans hd.line.symm
  have hlines : lines = d.passedLines := he.lines.trans hd.lines.symm
  have hnoted : comments = d.passedComments := he.noted.trans hd.noted.symm
  subst hindex hline hlines hnoted
  rfl

theorem behind_before {read : List Char} (hne : k.rest ≠ []) (h : (k.before v).Behind read) :
    (k.before w).Behind read := by
  obtain ⟨ch, rest, hrest⟩ := List.exists_cons_of_ne_nil hne
  refine ⟨h.index, h.line, ?_⟩
  have hwhole := h.whole
  rw [before_rest, hrest] at hwhole ⊢
  exact hwhole

/-- Up to a token that begins in front of the first tail, the same is passed in front of any other. -/
theorem trivia_carries {read : List Char} {start : Cursor} (hk : (k.before v).Behind read)
    (h : trivia (k.before v) = .ok start) (hlt : v.length < start.rest.length) :
    ∃ d : Cursor, d.rest ≠ [] ∧ start = d.before v ∧
      ∀ w, Tails v w → trivia (k.before w) = .ok (d.before w) := by
  have hcrosses := triviaEnd_crosses ((k.before v).rest.length + 1) hk
  have hend : triviaEnd ((k.before v).rest.length + 1) (k.before v) = .ok start := h
  rw [hend] at hcrosses
  obtain ⟨text, notes, hgap, hp⟩ := hcrosses
  obtain ⟨left, hleft⟩ : v <:+ start.rest :=
    List.suffix_of_suffix_length_le ⟨k.rest, rfl⟩ ⟨text, hp.rest.symm⟩ (Nat.le_of_lt hlt)
  obtain ⟨d, rfl, rfl⟩ : ∃ d : Cursor, start = d.before v ∧ d.rest = left := by
    refine ⟨{ start with rest := left }, ?_, rfl⟩
    unfold before
    rw [hleft]
  have hne : d.rest ≠ [] := by
    intro hnil
    rw [before_rest, hnil, List.nil_append] at hlt
    exact absurd hlt (Nat.lt_irrefl _)
  obtain ⟨ch, rest, hfirst⟩ := List.exists_cons_of_ne_nil hne
  have hwhole : k.rest = text ++ d.rest := by
    have hrest := hp.rest
    rw [before_rest, before_rest, ← List.append_assoc] at hrest
    exact List.append_cancel_right hrest
  have hkne : k.rest ≠ [] := by simp [hwhole, hne]
  refine ⟨d, hne, rfl, fun w hx => ?_⟩
  have hgap' : Gap read text notes (ch :: (rest ++ w)) := hgap.exchange (by rw [before_rest, hfirst]; rfl)
  have hrest : (k.before w).rest = text ++ (ch :: (rest ++ w)) := by
    rw [before_rest, hwhole, hfirst, List.append_assoc]
    rfl
  obtain ⟨e, hpasses, htrivia⟩ := trivia_of_gap hgap' (behind_before hkne hk) hrest
  obtain rfl := passes_before hp hpasses
  exact htrivia.trans (trivia_over (triviaStep?_none_carries hx hne (triviaStep?_behind h)))

end Scan

end ActionSyntax
