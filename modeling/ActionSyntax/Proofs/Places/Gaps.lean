import ActionSyntax.Proofs.Places.Lexemes
import Mathlib.Data.List.TakeWhile

/-!
What stands between tokens: blanks, line terminators and complete comments. The scanner passes just
that, and notes just the comments of it, each with its content and its place.
-/

namespace ActionSyntax

set_option autoImplicit false

open Utf8

def blockOpening : List Char := ['/', '*']

def blockClosing : List Char := ['*', '/']

def markupOpening : List Char := ['<', '!', '-', '-']

def markupClosing : List Char := ['-', '-', '>']

/-- The inside of a comment in which comments nest. Where no delimiter begins, the closing one that
stands behind the inside counted, there is a character of the comment's own. -/
inductive Nested : List Char → Prop
  | nil : Nested []
  | char {ch : Char} {rest : List Char} (notOpening : ¬ blockOpening <+: ch :: rest ++ blockClosing)
      (notClosing : ¬ blockClosing <+: ch :: rest ++ blockClosing) (below : Nested rest) :
      Nested (ch :: rest)
  | comment {inner rest : List Char} (nested : Nested inner) (below : Nested rest) :
      Nested (blockOpening ++ inner ++ blockClosing ++ rest)

inductive CommentForm where
  | line | block | markup
deriving DecidableEq, Repr

namespace CommentForm

/-- A comment as it stands in the text. -/
def written (form : CommentForm) (content : List Char) : List Char :=
  match form with
  | .line => ['/', '/'] ++ content
  | .block => blockOpening ++ content ++ blockClosing
  | .markup => markupOpening ++ content ++ markupClosing

/-- The content is that of a comment which ends before the text behind it. -/
def Complete (form : CommentForm) (content after : List Char) : Prop :=
  match form with
  | .line => (∀ ch ∈ content, CharClass.isLineTerminator ch = false) ∧
      ∀ ch ∈ after.head?, CharClass.isLineTerminator ch = true
  | .block => Nested content
  | .markup => ¬ markupClosing <:+: content ++ ['-', '-']

/-- What is noted of a comment. -/
def noted (form : CommentForm) (content : List Char) (span : Span) : Comment where
  multiLine := form != .line
  content := String.ofList content
  span

end CommentForm

/-- Behind `before` stands a text made of blanks, line terminators and comments, of which the given
ones are noted, and then `after`. -/
inductive Gap : List Char → List Char → List Comment → List Char → Prop
  | nil (before after : List Char) : Gap before [] [] after
  | blank {before rest after : List Char} {notes : List Comment} {ch : Char}
      (blank : CharClass.isBlank ch = true) (below : Gap (before ++ [ch]) rest notes after) :
      Gap before (ch :: rest) notes after
  | newline {before terminator rest after : List Char} {notes : List Comment}
      (ends : terminator ∈ Cursor.terminators) (whole : ¬ Lines.Splits terminator (rest ++ after))
      (below : Gap (before ++ terminator) rest notes after) :
      Gap before (terminator ++ rest) notes after
  | comment {before rest after : List Char} {notes : List Comment} (form : CommentForm)
      (content : List Char) (complete : form.Complete content (rest ++ after))
      (below : Gap (before ++ form.written content) rest notes after) :
      Gap before (form.written content ++ rest)
        (form.noted content (Lines.spanOf before (form.written content)) :: notes) after

namespace Cursor

/-- The cursor stands behind the given beginning of a text. -/
structure Behind (before : List Char) (c : Cursor) : Prop where
  index : c.index = byteLength before
  line : c.line = (Lines.ends 0 before).length + 1
  whole : ¬ Lines.Splits before c.rest

namespace Behind

variable {before text : List Char} {notes : List Comment} {c d : Cursor}

theorem ofContent (content : List Char) : (Cursor.ofContent content).Behind [] :=
  ⟨rfl, rfl, Lines.not_splits_nil _⟩

theorem ends_passes (h : c.Behind before) (hp : c.Passes text notes d) :
    Lines.ends 0 (before ++ text) = Lines.ends 0 before ++ Lines.ends c.index text := by
  have hwhole : ¬ Lines.Splits before text := Lines.not_splits_left (hp.rest ▸ h.whole)
  rw [Lines.ends_append hwhole, h.index, Nat.zero_add]

theorem passes (h : c.Behind before) (hp : c.Passes text notes d) : d.Behind (before ++ text) where
  index := by rw [hp.index, h.index, byteLength_append]
  line := by
    rw [hp.line, h.line, h.ends_passes hp, List.length_append]
    omega
  whole := Lines.not_splits_append (hp.rest ▸ h.whole) hp.whole

theorem spanTo (h : c.Behind before) (hp : c.Passes text notes d) :
    c.spanTo d = Lines.spanOf before text := by
  have hd := h.passes hp
  simp only [Cursor.spanTo, Lines.spanOf, h.line, h.index, hd.line, hd.index]

end Behind

end Cursor

namespace Scan

open Cursor

section Comments

variable {c d : Cursor}

theorem commentChar_covers (c : Cursor) : Covers id c (commentChar c) := passAny_covers c

/-- A line terminator as a whole, or another character. -/
theorem commentChar_passes (h : commentChar c = .ok d) : ∃ text, c.Passes text [] d ∧
    (text ∈ terminators ∨ ∃ ch, text = [ch]) := by
  unfold commentChar at h
  split at h
  · rename_i hline
    cases h
    obtain ⟨text, hmem, hp⟩ := newline?_passes hline
    exact ⟨text, hp, Or.inl hmem⟩
  · rename_i hline
    split at h
    · cases h
    · rename_i hend
      cases h
      cases hrest : c.rest with
      | nil => exact absurd (by simp [atEnd, hrest]) hend
      | cons ch rest =>
        exact ⟨[ch], passes_advance hrest ((newline?_eq_none hrest).mp hline), Or.inr ⟨ch, rfl⟩⟩

theorem blockEnd_covers : ∀ (fuel depth : Nat) (c : Cursor), Covers id c (blockEnd fuel depth c)
  | 0, _, c => .unexpected c
  | fuel + 1, depth, c => by
    unfold blockEnd
    split
    · rename_i hopen
      exact .of_onto (onto_skip_startsWith hopen (by decide)) (blockEnd_covers fuel _ _)
    · split
      · rename_i hclose
        have hskip := onto_skip_startsWith hclose (by decide)
        cases depth with
        | zero => exact .ok hskip
        | succ depth => exact .of_onto hskip (blockEnd_covers fuel depth _)
      · exact .bind (commentChar_covers c) fun _ _ => blockEnd_covers fuel depth _

theorem markupEnd_covers : ∀ (fuel : Nat) (c : Cursor), Covers id c (markupEnd fuel c)
  | 0, c => .unexpected c
  | fuel + 1, c => by
    unfold markupEnd
    split
    · rename_i hclose
      exact .ok (onto_skip_startsWith hclose (by decide))
    · exact .bind (commentChar_covers c) fun _ _ => markupEnd_covers fuel _

/-- A text that closes a comment and `depth` comments around it. -/
def Closes : Nat → List Char → Prop
  | 0, text => ∃ inner, Nested inner ∧ text = inner ++ blockClosing
  | depth + 1, text => ∃ inner rest, Nested inner ∧ Closes depth rest ∧
      text = inner ++ blockClosing ++ rest

/-- A text that closes comments begins with the inside of the innermost and its delimiter. -/
theorem Closes.begins : ∀ {depth : Nat} {text : List Char}, Closes depth text →
    ∃ inner rest, Nested inner ∧ text = inner ++ blockClosing ++ rest ∧
      ∀ more, Nested more → Closes depth (more ++ blockClosing ++ rest)
  | 0, _, ⟨inner, hinner, rfl⟩ =>
    ⟨inner, [], hinner, by simp, fun more hmore => ⟨more, hmore, by simp⟩⟩
  | _ + 1, _, ⟨inner, rest, hinner, hrest, rfl⟩ =>
    ⟨inner, rest, hinner, rfl, fun more hmore => ⟨more, rest, hmore, hrest, rfl⟩⟩

theorem Closes.opened {depth : Nat} {text : List Char} (h : Closes (depth + 1) text) :
    Closes depth (blockOpening ++ text) := by
  obtain ⟨inner, rest, hinner, hrest, rfl⟩ := h
  obtain ⟨next, more, hnext, rfl, hcloses⟩ := hrest.begins
  simpa [List.append_assoc] using hcloses _ (.comment hinner hnext)

theorem Closes.char {depth : Nat} {ch : Char} {text : List Char} (h : Closes depth text)
    (after : List Char) (hopen : ¬ blockOpening <+: ch :: (text ++ after))
    (hclose : ¬ blockClosing <+: ch :: (text ++ after)) : Closes depth (ch :: text) := by
  obtain ⟨inner, rest, hinner, rfl, hcloses⟩ := h.begins
  have hprefix : ch :: inner ++ blockClosing <+: ch :: (inner ++ blockClosing ++ rest ++ after) :=
    ⟨rest ++ after, by simp⟩
  exact hcloses _ (.char (fun ho => hopen (ho.trans hprefix)) (fun hc => hclose (hc.trans hprefix))
    hinner)

theorem not_prefix_of_head {a b : Char} {pattern rest : List Char} (h : a ≠ b) :
    ¬ a :: pattern <+: b :: rest := fun hp => h (List.cons_prefix_cons.mp hp).1

/-- The characters of a line terminator begin no delimiter. -/
theorem Closes.terminator {depth : Nat} {terminator text : List Char} (h : Closes depth text)
    (hmem : terminator ∈ terminators) : Closes depth (terminator ++ text) := by
  have plain : ∀ {ch : Char} {text : List Char}, ch ≠ '/' → ch ≠ '*' → Closes depth text →
      Closes depth (ch :: text) := by
    intro ch text hslash hstar h
    exact h.char [] (not_prefix_of_head hslash.symm) (not_prefix_of_head hstar.symm)
  simp only [terminators, List.mem_cons, List.not_mem_nil, or_false] at hmem
  rcases hmem with rfl | rfl | rfl | rfl | rfl
  · exact plain (by decide) (by decide) (plain (by decide) (by decide) h)
  all_goals exact plain (by decide) (by decide) h

/-- What is passed of a comment closes it, and `depth` comments around it. -/
theorem blockEnd_passes : ∀ {fuel depth : Nat} {c : Cursor}, blockEnd fuel depth c = .ok d →
    ∃ text, c.Passes text [] d ∧ Closes depth text
  | 0, _, _, h => by cases h
  | fuel + 1, depth, c, h => by
    unfold blockEnd at h
    split at h
    · rename_i hopen
      obtain ⟨text, hp, hcloses⟩ := blockEnd_passes h
      exact ⟨_, (passes_skip_startsWith hopen (by decide)).trans hp, hcloses.opened⟩
    · rename_i hopen
      split at h
      · rename_i hclose
        have hskip := passes_skip_startsWith hclose (by decide)
        cases depth with
        | zero =>
          cases h
          exact ⟨_, hskip, [], .nil, rfl⟩
        | succ depth =>
          obtain ⟨text, hp, hcloses⟩ := blockEnd_passes h
          exact ⟨_, hskip.trans hp, [], text, .nil, hcloses, rfl⟩
      · rename_i hclose
        obtain ⟨e, hchar, hrest⟩ := ok_of_bind h
        obtain ⟨text, hp, hcloses⟩ := blockEnd_passes hrest
        obtain ⟨passed, hpassed, hmem | ⟨ch, rfl⟩⟩ := commentChar_passes hchar
        · exact ⟨_, hpassed.trans hp, hcloses.terminator hmem⟩
        · have heq : c.rest = ch :: (text ++ d.rest) := by rw [hpassed.rest, hp.rest]; rfl
          rw [startsWith_iff, heq] at hopen hclose
          exact ⟨_, hpassed.trans hp, hcloses.char d.rest hopen hclose⟩

/-- Before the closing delimiter of a markup comment none begins. -/
theorem markupEnd_passes : ∀ {fuel : Nat} {c : Cursor}, markupEnd fuel c = .ok d →
    ∃ content, c.Passes (content ++ markupClosing) [] d ∧
      ¬ markupClosing <:+: content ++ ['-', '-']
  | 0, _, h => by cases h
  | fuel + 1, c, h => by
    unfold markupEnd at h
    split at h
    · rename_i hclose
      cases h
      exact ⟨[], passes_skip_startsWith hclose (by decide), by decide⟩
    · rename_i hclose
      obtain ⟨e, hchar, hrest⟩ := ok_of_bind h
      obtain ⟨content, hp, hfree⟩ := markupEnd_passes hrest
      have hchars : ∀ {ch : Char} {content : List Char}, ¬ markupClosing <:+: content ++ ['-', '-'] →
          ¬ markupClosing <+: ch :: content ++ ['-', '-'] →
          ¬ markupClosing <:+: ch :: content ++ ['-', '-'] := by
        intro ch content hfree hhead hin
        rcases List.infix_cons_iff.mp hin with hp | hp
        · exact hhead hp
        · exact hfree hp
      obtain ⟨passed, hpassed, hmem | ⟨ch, rfl⟩⟩ := commentChar_passes hchar
      · refine ⟨passed ++ content, by simpa using hpassed.trans hp, ?_⟩
        simp only [terminators, List.mem_cons, List.not_mem_nil, or_false] at hmem
        rcases hmem with rfl | rfl | rfl | rfl | rfl
        · exact hchars (hchars hfree (not_prefix_of_head (by decide)))
            (not_prefix_of_head (by decide))
        all_goals exact hchars hfree (not_prefix_of_head (by decide))
      · refine ⟨ch :: content, hpassed.trans hp, hchars hfree fun hhead => hclose ?_⟩
        rw [startsWith_iff, hpassed.rest, hp.rest]
        exact hhead.trans ⟨'>' :: d.rest, by simp [markupClosing]⟩

/-- A comment between delimiters is noted with its content. -/
theorem noteBlock_eq {opening content closing : List Char}
    (hopening : AllNarrow opening) (hclosing : AllNarrow closing)
    (hp : c.Passes (opening ++ content ++ closing) [] d) :
    noteBlock c d opening.length closing.length =
      d.note { multiLine := true, content := String.ofList content, span := c.spanTo d } := by
  have hwidth : d.index - c.index - opening.length - closing.length = byteLength content := by
    rw [hp.index, byteLength_append, byteLength_append, byteLength_narrow hopening,
      byteLength_narrow hclosing]
    omega
  have hrest : (c.skip opening.length).rest = content ++ (closing ++ d.rest) := by
    simp [Cursor.skip, hp.rest]
  unfold noteBlock
  simp only [hwidth, hrest, takeBytes_append]

theorem Passes.note {text : List Char} {notes : List Comment} (h : c.Passes text notes d)
    (comment : Comment) : c.Passes text (notes ++ [comment]) (d.note comment) where
  rest := h.rest
  index := h.index
  line := h.line
  lines := h.lines
  noted := by simp [Cursor.note, h.noted]
  whole := h.whole

/-- A comment to the end of its line takes all up to the line terminator. -/
theorem lineComment_passes {rest : List Char} (h : c.rest = '/' :: '/' :: rest) :
    ∃ content, CommentForm.line.Complete content (lineComment c).rest ∧
      c.Passes (CommentForm.line.written content)
        [CommentForm.line.noted content (c.spanTo (lineComment c))] (lineComment c) := by
  generalize hcontent : rest.takeWhile (!CharClass.isLineTerminator ·) = content
  generalize hafter : rest.dropWhile (!CharClass.isLineTerminator ·) = after
  have hsplit : rest = content ++ after := by
    rw [← hcontent, ← hafter, List.takeWhile_append_dropWhile]
  have hplain : ∀ ch ∈ content, CharClass.isLineTerminator ch = false := by
    rw [← hcontent]
    exact fun ch hch => by simpa using List.mem_takeWhile_imp hch
  have hend : ∀ ch ∈ after.head?, CharClass.isLineTerminator ch = true := by
    intro ch hch
    have hnot := List.head?_dropWhile_not (!CharClass.isLineTerminator ·) rest
    rw [hafter, Option.mem_def.mp hch] at hnot
    simpa using hnot
  have hinside : (c.skip 2).rest = content ++ after := by simp [Cursor.skip, h, hsplit]
  have hwidth : LineSearch.distance 0 (LineSearch.bytes (content ++ after)) =
      byteLength content := by
    rw [LineSearch.distance_bytes, Nat.zero_add, ← hsplit, hcontent]
  let stop : Cursor :=
    { c.skip 2 with rest := after, index := (c.skip 2).index + byteLength content }
  have heq : lineComment c = stop.note (CommentForm.line.noted content (c.spanTo stop)) := by
    unfold lineComment
    simp only [hinside, hwidth, takeBytes_append, dropBytes?_append]
    rfl
  have hstop : c.Passes (CommentForm.line.written content) [] stop := by
    refine .of_plain ?_ ?_ rfl rfl rfl ?_
    · rw [h, hsplit]
      rfl
    · simp only [stop, Cursor.skip, CommentForm.written, byteLength_append]
      rw [Nat.add_assoc]
      rfl
    · intro ch hch
      rcases List.mem_append.mp hch with hch | hch
      · have hslash : AllNarrow ['/', '/'] := by decide
        exact (hslash ch hch).2
      · exact hplain ch hch
  rw [heq]
  exact ⟨content, ⟨hplain, hend⟩, Passes.note hstop _⟩

/-- The comment that is passed is the one that is noted. -/
theorem comment?_passes (h : comment? c = .ok (some d)) : ∃ form content,
    form.Complete content d.rest ∧
      c.Passes (CommentForm.written form content) [form.noted content (c.spanTo d)] d := by
  unfold comment? at h
  split at h
  · rename_i hopen
    obtain ⟨e, hend, heq⟩ := ok_of_bind h
    cases heq
    obtain ⟨content, hp, hfree⟩ := markupEnd_passes hend
    have hpasses : c.Passes (markupOpening ++ content ++ markupClosing) [] e := by
      rw [List.append_assoc]
      exact (passes_skip_startsWith hopen (by decide)).trans hp
    refine ⟨.markup, content, hfree, ?_⟩
    rw [show noteBlock c e 4 3 = _ from noteBlock_eq (by decide) (by decide) hpasses]
    exact Passes.note hpasses _
  · split at h
    · rename_i hopen
      obtain ⟨e, hend, heq⟩ := ok_of_bind h
      cases heq
      obtain ⟨text, hp, content, hnested, rfl⟩ := blockEnd_passes hend
      have hpasses : c.Passes (blockOpening ++ content ++ blockClosing) [] e := by
        rw [List.append_assoc]
        exact (passes_skip_startsWith hopen (by decide)).trans hp
      refine ⟨.block, content, hnested, ?_⟩
      rw [show noteBlock c e 2 2 = _ from noteBlock_eq (by decide) (by decide) hpasses]
      exact Passes.note hpasses _
    · split at h
      · rename_i hopen
        cases h
        obtain ⟨rest, hrest⟩ := startsWith_iff.mp hopen
        obtain ⟨content, hcomplete, hp⟩ := lineComment_passes hrest.symm
        exact ⟨.line, content, hcomplete, hp⟩
      · cases h

theorem comment?_covers (c : Cursor) {f : Failure} (h : comment? c = .error f) :
    ∃ b, c.Onto b ∧ b.Onto f.cursor ∧ f.span = b.spanTo f.cursor := by
  unfold comment? at h
  split at h
  · rename_i hopen
    have hcovers := Covers.of_onto (onto_skip_startsWith hopen (by decide))
      (markupEnd_covers (c.rest.length + 1) (c.skip 4))
    cases hend : markupEnd (c.rest.length + 1) (c.skip 4) with
    | ok e => rw [hend] at h; cases h
    | error f' => rw [hend] at h hcovers; cases h; exact hcovers
  · split at h
    · rename_i hopen
      have hcovers := Covers.of_onto (onto_skip_startsWith hopen (by decide))
        (blockEnd_covers (c.rest.length + 1) 0 (c.skip 2))
      cases hend : blockEnd (c.rest.length + 1) 0 (c.skip 2) with
      | ok e => rw [hend] at h; cases h
      | error f' => rw [hend] at h hcovers; cases h; exact hcovers
    · split at h <;> cases h

end Comments

section Trivia

variable {before : List Char} {c d : Cursor}

/-- What the scanner has passed from one cursor to another between tokens. -/
def Crosses (before : List Char) (c d : Cursor) : Prop :=
  ∃ text notes, Gap before text notes d.rest ∧ c.Passes text notes d

theorem Crosses.refl (before : List Char) (c : Cursor) : Crosses before c c :=
  ⟨[], [], .nil _ _, .refl c⟩

/-- A step over what stands between tokens is a gap, in front of any other. -/
theorem triviaStep?_crosses (hc : c.Behind before) (h : triviaStep? c = .ok (some d)) :
    ∃ text, d.Behind (before ++ text) ∧
      ∀ {e}, Crosses (before ++ text) d e → Crosses before c e := by
  unfold triviaStep? at h
  split at h
  · cases h
  · rename_i ch rest hrest
    split at h
    · rename_i hblank
      cases h
      have hp := passes_advance hrest (CharClass.not_lineTerminator_of_blank hblank)
      refine ⟨[ch], hc.passes hp, ?_⟩
      rintro _ ⟨text, notes, hgap, hpasses⟩
      exact ⟨ch :: text, notes, .blank hblank hgap, hp.trans hpasses⟩
    · split at h
      · rename_i hline
        cases h
        obtain ⟨terminator, hmem, hp⟩ := newline?_passes hline
        refine ⟨terminator, hc.passes hp, ?_⟩
        rintro _ ⟨text, notes, hgap, hpasses⟩
        exact ⟨terminator ++ text, notes, .newline hmem (hpasses.rest ▸ hp.whole) hgap,
          hp.trans hpasses⟩
      · obtain ⟨form, content, hcomplete, hp⟩ := comment?_passes h
        refine ⟨form.written content, hc.passes hp, ?_⟩
        rintro _ ⟨text, notes, hgap, hpasses⟩
        rw [hc.spanTo hp] at hp
        exact ⟨form.written content ++ text, _, .comment form content (hpasses.rest ▸ hcomplete) hgap,
          hp.trans hpasses⟩

theorem triviaStep?_covers {f : Failure} (h : triviaStep? c = .error f) :
    ∃ b, c.Onto b ∧ b.Onto f.cursor ∧ f.span = b.spanTo f.cursor := by
  unfold triviaStep? at h
  split at h
  · cases h
  · split at h
    · cases h
    · split at h
      · cases h
      · exact comment?_covers c h

/-- The scanner crosses a gap; where it fails, it has crossed one up to a broken comment. -/
theorem triviaEnd_crosses : ∀ (fuel : Nat) {before : List Char} {c : Cursor}, c.Behind before →
    match triviaEnd fuel c with
    | .ok d => Crosses before c d
    | .error f => ∃ a b, Crosses before c a ∧ a.Onto b ∧ b.Onto f.cursor ∧
        f.span = b.spanTo f.cursor
  | 0, before, c, _ => .refl before c
  | fuel + 1, before, c, hc => by
    unfold triviaEnd
    cases hstep : triviaStep? c with
    | error f =>
      obtain ⟨b, hcb, hbf, hspan⟩ := triviaStep?_covers hstep
      exact ⟨c, b, .refl before c, hcb, hbf, hspan⟩
    | ok step =>
      cases step with
      | none => exact .refl before c
      | some d =>
        obtain ⟨text, hd, hcross⟩ := triviaStep?_crosses hc hstep
        have ih := triviaEnd_crosses fuel hd
        show match triviaEnd fuel d with
          | .ok d => Crosses before c d
          | .error f => ∃ a b, Crosses before c a ∧ a.Onto b ∧ b.Onto f.cursor ∧
              f.span = b.spanTo f.cursor
        cases hend : triviaEnd fuel d with
        | ok e =>
          rw [hend] at ih
          exact hcross ih
        | error f =>
          rw [hend] at ih
          obtain ⟨a, b, hda, hrest⟩ := ih
          exact ⟨a, b, hcross hda, hrest⟩

end Trivia

end Scan

end ActionSyntax
