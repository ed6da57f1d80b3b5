import ActionSyntax.Proofs.Places.Runs

/-!
The slices that the scanner takes of its text, by offsets in bytes. Wherever it stands, also in the
middle of a step or behind a problem, it stands between two characters of the text, and whatever it
takes from there begins and ends between characters.
-/

namespace ActionSyntax

set_option autoImplicit false

open Utf8

namespace Utf8

/-- The offsets are in order, and at each of them a character of the text begins or the text ends. -/
def Bounds (text : List Char) (start stop : Nat) : Prop :=
  ∃ front part back, text = front ++ part ++ back ∧ start = byteLength front ∧
    stop = byteLength (front ++ part)

theorem dropBytes?_eq_some : ∀ {text rest : List Char} {n : Nat}, dropBytes? text n = some rest →
    ∃ front, text = front ++ rest ∧ n = byteLength front
  | text, rest, 0, h => ⟨[], by simpa using h, rfl⟩
  | ch :: text, rest, n + 1, h => by
    unfold dropBytes? at h
    split at h
    · obtain ⟨front, rfl, hn⟩ := dropBytes?_eq_some h
      refine ⟨ch :: front, rfl, ?_⟩
      rw [byteLength_cons]
      omega
    · cases h

/-- A slice can be taken just between bounds. -/
theorem slice?_isSome {text : List Char} {start stop : Nat} :
    (slice? text start stop).isSome ↔ Bounds text start stop := by
  unfold slice?
  constructor
  · intro h
    split at h
    · cases h
    rename_i hle
    cases hstart : dropBytes? text start with
    | none => rw [hstart] at h; cases h
    | some rest =>
      rw [hstart] at h
      cases hstop : dropBytes? rest (stop - start) with
      | none => simp [hstop] at h
      | some back =>
        obtain ⟨front, rfl, hfront⟩ := dropBytes?_eq_some hstart
        obtain ⟨part, rfl, hpart⟩ := dropBytes?_eq_some hstop
        refine ⟨front, part, back, by simp, hfront, ?_⟩
        rw [byteLength_append]
        omega
  · rintro ⟨front, part, back, rfl, rfl, rfl⟩
    rw [byteLength_append, if_neg (by omega), List.append_assoc, dropBytes?_append]
    simp [dropBytes?_append]

/-- The slice between the two ends of a part is the part. -/
theorem slice?_append (front part back : List Char) :
    slice? (front ++ (part ++ back)) (byteLength front) (byteLength (front ++ part)) = some part := by
  have hlength : byteLength (front ++ part) - byteLength front = byteLength part := by
    rw [byteLength_append, Nat.add_sub_cancel_left]
  have hle : ¬ byteLength (front ++ part) < byteLength front := by
    rw [byteLength_append]
    omega
  rw [slice?, if_neg hle, dropBytes?_append, hlength]
  show (dropBytes? (part ++ back) (byteLength part) >>= fun _ =>
    some (takeBytes (part ++ back) (byteLength part))) = some part
  rw [dropBytes?_append, takeBytes_append]
  rfl

end Utf8

namespace Scan

open Cursor

/-- Where a reading stands at its end, whether it succeeds or fails. -/
def standing {α : Type} (place : α → Cursor) : Except Failure α → Cursor
  | .ok a => place a
  | .error f => f.cursor

theorem Covers.standing {α : Type} {place : α → Cursor} {c : Cursor} {x : Except Failure α}
    (h : Covers place c x) : c.Onto (standing place x) := by
  cases x with
  | ok a => exact h
  | error f =>
    obtain ⟨b, hb, hf, -⟩ := h
    exact hb.trans hf

/-- Where the scanner stands while it reads on from a cursor. A loop with any number of rounds left
stands wherever the loop comes by. -/
inductive Visits (c : Cursor) : Cursor → Prop
  | here : Visits c c
  | mark {d : Cursor} (h : Visits c d) {text : List Char} (ahead : d.startsWith text = true)
      (narrow : ∀ ch ∈ text, Narrow ch) : Visits c (d.skip text.length)
  | newline {d e : Cursor} (h : Visits c d) (ends : d.newline? = some e) : Visits c e
  | trivia {d : Cursor} (h : Visits c d) (fuel : Nat) : Visits c (standing id (triviaEnd fuel d))
  | markup {d : Cursor} (h : Visits c d) (fuel : Nat) : Visits c (standing id (markupEnd fuel d))
  | block {d : Cursor} (h : Visits c d) (fuel depth : Nat) :
      Visits c (standing id (blockEnd fuel depth d))
  | line {d : Cursor} (h : Visits c d) (opened : d.startsWith ['/', '/'] = true) :
      Visits c (lineComment d)
  | name {d : Cursor} (h : Visits c d) (allowed : Char → Bool) (fuel : Nat) (read : List Char) :
      Visits c (standing Prod.snd (nameChars allowed fuel read d))
  | fixed {d : Cursor} (h : Visits c d) (count value : Nat) :
      Visits c (standing Prod.snd (fixedDigits count value d))
  | braced {d : Cursor} (h : Visits c d) (fuel value : Nat) :
      Visits c (standing Prod.snd (bracedDigits fuel value d))
  | digits {d : Cursor} (h : Visits c d) {isDigit : Char → Bool}
      (narrow : ∀ ch, isDigit ch = true → Narrow ch) : Visits c (standing id (digits isDigit d))
  | quoted {d : Cursor} (h : Visits c d) {quote : Char} (narrow : Narrow quote) (fuel : Nat)
      (read : QuotedText) : Visits c (standing Prod.snd (quotedBody quote fuel read d))
  | lines {d : Cursor} (h : Visits c d) {quote : Char} (narrow : Narrow quote) (fuel : Nat)
      (read : BlockText) : Visits c (standing Prod.snd (blockBody quote fuel read d))
  | regular {d : Cursor} (h : Visits c d) (fuel : Nat) :
      Visits c (standing id (regularBody fuel d))
  | lexeme {d : Cursor} (h : Visits c d) : Visits c (standing Prod.snd (lexeme d))

/-- Wherever the scanner stands, it has passed a text. -/
theorem Visits.passes {before : List Char} {c d : Cursor} (h : Visits c d) (hc : c.Behind before) :
    ∃ text notes, c.Passes text notes d := by
  have onto : ∀ {d e : Cursor}, (∃ text notes, c.Passes text notes d) → d.Onto e →
      ∃ text notes, c.Passes text notes e := by
    rintro d e ⟨text, notes, hp⟩ ⟨more, hq⟩
    exact ⟨_, _, hp.trans hq⟩
  induction h with
  | here => exact ⟨[], [], .refl c⟩
  | mark _ hahead hnarrow ih => exact onto ih (onto_skip_startsWith hahead hnarrow)
  | newline _ hends ih => exact onto ih (onto_newline hends)
  | trivia _ fuel ih =>
    rename_i d _
    obtain ⟨text, notes, hp⟩ := ih
    have hcrosses := triviaEnd_crosses fuel (hc.passes hp)
    cases hend : triviaEnd fuel d with
    | ok e =>
      rw [hend] at hcrosses
      obtain ⟨gap, more, -, hq⟩ := hcrosses
      exact ⟨_, _, hp.trans hq⟩
    | error f =>
      rw [hend] at hcrosses
      obtain ⟨a, b, ⟨gap, more, -, hq⟩, hab, hbf, -⟩ := hcrosses
      exact onto ⟨_, _, hp.trans hq⟩ (hab.trans hbf)
  | markup _ fuel ih => exact onto ih (markupEnd_covers fuel _).standing
  | block _ fuel depth ih => exact onto ih (blockEnd_covers fuel depth _).standing
  | line _ hopened ih =>
    obtain ⟨text, notes, hp⟩ := ih
    obtain ⟨rest, hrest⟩ := startsWith_iff.mp hopened
    obtain ⟨content, -, hq⟩ := lineComment_passes hrest.symm
    exact ⟨_, _, hp.trans hq⟩
  | name _ _ fuel read ih => exact onto ih (nameChars_covers fuel read _).standing
  | fixed _ count value ih => exact onto ih (fixedDigits_covers count value _).standing
  | braced _ fuel value ih => exact onto ih (bracedDigits_covers fuel value _).standing
  | digits _ hnarrow ih => exact onto ih (digits_covers hnarrow _).standing
  | quoted _ hquote fuel read ih => exact onto ih (quotedBody_covers hquote fuel read _).standing
  | lines _ hquote fuel read ih => exact onto ih (blockBody_covers hquote fuel read _).standing
  | regular _ fuel ih => exact onto ih (regularBody_covers fuel _).standing
  | lexeme _ ih => exact onto ih (lexeme_covers _).standing

/-- The body of a regular expression ends with a slash. -/
theorem regularBody_passes : ∀ {fuel : Nat} {c d : Cursor}, regularBody fuel c = .ok d →
    ∃ body, c.Passes (body ++ ['/']) [] d
  | 0, _, _, h => by cases h
  | fuel + 1, c, d, h => by
    have later : ∀ {b e : Cursor}, c.Onto b → passAny b = .ok e → regularBody fuel e = .ok d →
        ∃ body, c.Passes (body ++ ['/']) [] d := by
      intro b e hb hpass hrest
      have hcovers := passAny_covers b
      rw [hpass] at hcovers
      obtain ⟨text, hp⟩ := hb.trans hcovers
      obtain ⟨body, hq⟩ := regularBody_passes hrest
      exact ⟨text ++ body, by simpa using hp.trans hq⟩
    unfold regularBody at h
    split at h
    · rename_i hescape
      obtain ⟨e, hpass, hrest⟩ := ok_of_bind h
      exact later (onto_skip_startsWith hescape (by decide)) hpass hrest
    · split at h
      · rename_i hclose
        cases h
        exact ⟨[], passes_skip_startsWith hclose (by decide)⟩
      · obtain ⟨e, hpass, hrest⟩ := ok_of_bind h
        exact later (.refl c) hpass hrest

/-- An operator that a regular expression can begin with is spelled with a slash. -/
theorem slash_of_begins : ∀ entry ∈ spelledChars,
    Rules.beginsRegularExpression { entry.2 with span := default } = true →
      entry.1.head? = some '/' := by
  decide +kernel

end Scan

namespace Scanner

open Scan Cursor

/-- The offsets between which the scanner takes a slice of its text in the next step: what is left at
any place, what stands between two places, as that of a name, a number or a part of a string, and what
delimiters enclose. -/
inductive Slices (s : Scanner) : Nat → Nat → Prop
  | rest {d : Cursor} (h : Visits s.cursor d) : Slices s d.index s.script.length
  | text {c d : Cursor} (h : Visits s.cursor c) (more : Visits c d) : Slices s c.index d.index
  | radix {c d : Cursor} {l : Lexeme} {letter : Char} {radix : Nat} {isDigit : Char → Bool}
      (h : Visits s.cursor c) (opened : c.startsWith ['0', letter] = true) (narrow : Narrow letter)
      (digits : ∀ ch, isDigit ch = true → Narrow ch)
      (read : radixLiteral radix isDigit (c.skip 1) = .ok (l, d)) : Slices s (c.index + 2) d.index
  | markup {c d : Cursor} {fuel : Nat} (h : Visits s.cursor c)
      (opened : c.startsWith ['<', '!', '-', '-'] = true)
      (closed : markupEnd fuel (c.skip 4) = .ok d) : Slices s (c.index + 4) (d.index - 3)
  | block {c d : Cursor} {fuel : Nat} (h : Visits s.cursor c)
      (opened : c.startsWith ['/', '*'] = true)
      (closed : blockEnd fuel 0 (c.skip 2) = .ok d) : Slices s (c.index + 2) (d.index - 2)
  | line {c : Cursor} (h : Visits s.cursor c) (opened : c.startsWith ['/', '/'] = true) :
      Slices s (c.index + 2) (lineComment c).index
  | regular {d : Cursor} {fuel : Nat} (slash : Rules.beginsRegularExpression s.token = true)
      (closed : regularBody fuel s.cursor = .ok d) : Slices s (s.token.span.start + 1) (d.index - 1)

namespace Scanned

variable {before : List Char} {s : Scanner}

section Between

variable {gap opening content closing : List Char} {notes more : List Comment} {c d : Cursor}

/-- Behind what the scanner has passed, offsets count on from those of the text. -/
theorem slice?_between (h : s.Scanned before) (hp : s.cursor.Passes gap notes c)
    (hq : c.Passes (opening ++ content ++ closing) more d) {start stop : Nat}
    (hstart : start = c.index + byteLength opening) (hstop : stop + byteLength closing = d.index) :
    slice? s.script.content start stop = some content := by
  have hd := hq.index
  have hc := (h.behind.passes hp).index
  have hcontent : s.script.content = (before ++ gap ++ opening) ++ (content ++ (closing ++ d.rest)) := by
    rw [h.content, hp.rest, hq.rest]
    simp
  obtain rfl : start = byteLength (before ++ gap ++ opening) := by
    rw [hstart, hc, byteLength_append _ opening]
  obtain rfl : stop = byteLength (before ++ gap ++ opening ++ content) := by
    simp only [byteLength_append] at hd hc ⊢
    omega
  rw [hcontent]
  exact slice?_append _ _ _

theorem bounds (h : s.Scanned before) (hp : s.cursor.Passes gap notes c)
    (hq : c.Passes (opening ++ content ++ closing) more d) {start stop : Nat}
    (hstart : start = c.index + byteLength opening) (hstop : stop + byteLength closing = d.index) :
    Bounds s.script.content start stop :=
  slice?_isSome.mp (by rw [h.slice?_between hp hq hstart hstop]; rfl)

end Between

/-- A token that a regular expression can begin with stands in the text with its slash. -/
theorem slash (h : s.Scanned before) (hslash : Rules.beginsRegularExpression s.token = true) :
    ∃ front back, before = front ++ '/' :: back ∧ s.token.span.start = byteLength front := by
  have hcases : (s.token.kind = .operator ∨ s.token.kind = .compoundAssignment) ∧
      s.token.operator = some .divide := by
    simpa [Rules.beginsRegularExpression, Token.isOperator, Token.isCompoundAssignment,
      or_and_right] using hslash
  obtain ⟨entry, hmem, hkind, hoperator, front, back, rfl, hstart⟩ :=
    h.spelled (by simp [hcases.2]) hcases.1
  have hbegins : Rules.beginsRegularExpression { entry.2 with span := default } = true := by
    simpa [Rules.beginsRegularExpression, Token.isOperator, Token.isCompoundAssignment, hkind,
      hoperator] using hslash
  obtain ⟨rest, hrest⟩ := List.head?_eq_some_iff.mp (slash_of_begins entry hmem hbegins)
  exact ⟨front, rest ++ back, by simp [hrest], hstart⟩

/-- Every slice of the next step lies in the text. -/
theorem slices (h : s.Scanned before) {start stop : Nat} (hs : s.Slices start stop) :
    Bounds s.script.content start stop := by
  cases hs with
  | rest hd =>
    rename_i d
    obtain ⟨text, notes, hp⟩ := hd.passes h.behind
    refine ⟨before ++ text, d.rest, [], ?_, (h.behind.passes hp).index, ?_⟩
    · rw [h.content, hp.rest]
      simp
    · rw [Script.length, h.content, hp.rest]
      simp
  | @text c d hc hd =>
    obtain ⟨gap, notes, hp⟩ := hc.passes h.behind
    obtain ⟨text, more, hq⟩ := hd.passes (h.behind.passes hp)
    have hall : c.Passes ([] ++ text ++ []) more d := by simpa using hq
    exact h.bounds hp hall rfl rfl
  | @radix c d l letter radix isDigit hc hopened hnarrow hdigit hread =>
    obtain ⟨gap, notes, hp⟩ := hc.passes h.behind
    have hboth : ∀ ch ∈ ['0', letter], Narrow ch := by
      simpa using ⟨by decide, hnarrow⟩
    have hskip := passes_skip_startsWith hopened hboth
    have hrest : (c.skip 2).Onto d := by
      unfold radixLiteral at hread
      dsimp only at hread
      split at hread
      · cases hread
      obtain ⟨e, hdigits, heq⟩ := ok_of_bind hread
      cases heq
      have hcovers := digits_covers hdigit ((c.skip 1).skip 1)
      rwa [hdigits, skip_skip] at hcovers
    obtain ⟨text, hq⟩ := hrest
    have hall : c.Passes (['0', letter] ++ text ++ []) [] d := by
      rw [List.append_nil]
      exact hskip.trans hq
    exact h.bounds hp hall (by rw [byteLength_narrow hboth]; rfl) rfl
  | @markup c d fuel hc hopened hclosed =>
    obtain ⟨gap, notes, hp⟩ := hc.passes h.behind
    obtain ⟨content, hq, -⟩ := markupEnd_passes hclosed
    have hskip := passes_skip_startsWith hopened (by decide)
    have hall : c.Passes (markupOpening ++ content ++ markupClosing) [] d := by
      rw [List.append_assoc]
      exact hskip.trans hq
    have hlength : byteLength markupClosing = 3 := rfl
    refine h.bounds hp hall rfl ?_
    have hindex := hall.index
    simp only [byteLength_append] at hindex
    omega
  | @block c d fuel hc hopened hclosed =>
    obtain ⟨gap, notes, hp⟩ := hc.passes h.behind
    obtain ⟨text, hq, content, -, rfl⟩ := blockEnd_passes hclosed
    have hskip := passes_skip_startsWith hopened (by decide)
    have hall : c.Passes (blockOpening ++ content ++ blockClosing) [] d := by
      rw [List.append_assoc]
      exact hskip.trans hq
    have hlength : byteLength blockClosing = 2 := rfl
    refine h.bounds hp hall rfl ?_
    have hindex := hall.index
    simp only [byteLength_append] at hindex
    omega
  | @line c hc hopened =>
    obtain ⟨gap, notes, hp⟩ := hc.passes h.behind
    obtain ⟨rest, hrest⟩ := startsWith_iff.mp hopened
    obtain ⟨content, -, hq⟩ := lineComment_passes hrest.symm
    rw [← List.append_nil (CommentForm.line.written content)] at hq
    exact h.bounds hp hq rfl rfl
  | @regular d fuel hslash hclosed =>
    obtain ⟨front, back, rfl, hstart⟩ := h.slash hslash
    obtain ⟨body, hp⟩ := regularBody_passes hclosed
    refine ⟨front ++ ['/'], back ++ body, '/' :: d.rest, ?_, ?_, ?_⟩
    · rw [h.content, hp.rest]
      simp
    · rw [hstart, byteLength_append]
      rfl
    · have hindex := hp.index
      rw [h.index_eq] at hindex
      have hone : ('/' : Char).utf8Size = 1 := rfl
      simp only [byteLength_append, byteLength_cons] at hindex ⊢
      omega

/-- What is noted of a comment is one of these slices. -/
theorem comment_sliced (h : s.Scanned before) {c d : Cursor} (hc : Visits s.cursor c)
    (hcomment : comment? c = .ok (some d)) : ∃ note start stop,
      d.passedComments = note :: c.passedComments ∧ s.Slices start stop ∧
        slice? s.script.content start stop = some note.content.toList := by
  obtain ⟨gap, notes, hp⟩ := hc.passes h.behind
  -- Between delimiters, the content is what they leave of the way to the end.
  have block : ∀ {opening content closing : List Char} {e : Cursor}, AllNarrow opening →
      AllNarrow closing → c.Passes (opening ++ content ++ closing) [] e →
      s.Slices (c.index + opening.length) (e.index - closing.length) →
      ∃ note start stop, (noteBlock c e opening.length closing.length).passedComments =
          note :: c.passedComments ∧ s.Slices start stop ∧
        slice? s.script.content start stop = some note.content.toList := by
    intro opening content closing e hopening hclosing hq hslices
    have hindex := hq.index
    simp only [byteLength_append] at hindex
    rw [noteBlock_eq hopening hclosing hq]
    refine ⟨_, _, _, congrArg (_ :: ·) hq.noted, hslices, ?_⟩
    rw [String.toList_ofList]
    refine h.slice?_between hp hq (by rw [byteLength_narrow hopening]) ?_
    rw [byteLength_narrow hclosing] at hindex ⊢
    omega
  unfold comment? at hcomment
  split at hcomment
  · rename_i hopened
    obtain ⟨e, hclosed, heq⟩ := ok_of_bind hcomment
    cases heq
    obtain ⟨content, hq, -⟩ := markupEnd_passes hclosed
    have hall : c.Passes (markupOpening ++ content ++ markupClosing) [] e := by
      rw [List.append_assoc]
      exact (passes_skip_startsWith hopened (by decide)).trans hq
    exact block (by decide) (by decide) hall (.markup hc hopened hclosed)
  split at hcomment
  · rename_i hopened
    obtain ⟨e, hclosed, heq⟩ := ok_of_bind hcomment
    cases heq
    obtain ⟨text, hq, content, -, rfl⟩ := blockEnd_passes hclosed
    have hall : c.Passes (blockOpening ++ content ++ blockClosing) [] e := by
      rw [List.append_assoc]
      exact (passes_skip_startsWith hopened (by decide)).trans hq
    exact block (by decide) (by decide) hall (.block hc hopened hclosed)
  split at hcomment
  · rename_i hopened
    cases hcomment
    obtain ⟨rest, hrest⟩ := startsWith_iff.mp hopened
    obtain ⟨content, -, hq⟩ := lineComment_passes hrest.symm
    refine ⟨_, _, _, hq.noted, .line hc hopened, ?_⟩
    rw [← List.append_nil (CommentForm.line.written content)] at hq
    rw [CommentForm.noted, String.toList_ofList]
    exact h.slice?_between hp hq rfl rfl
  · cases hcomment

/-- The body of a regular expression is the last of these slices. -/
theorem regularBodyText_sliced (h : s.Scanned before) {d : Cursor} {fuel : Nat}
    (hslash : Rules.beginsRegularExpression s.token = true)
    (hclosed : regularBody fuel s.cursor = .ok d) :
    s.Slices (s.token.span.start + 1) (d.index - 1) ∧
      ∃ body, slice? s.script.content (s.token.span.start + 1) (d.index - 1) = some body ∧
        s.regularBodyText d = String.ofList (unifiedLines body) := by
  have hslices : s.Slices (s.token.span.start + 1) (d.index - 1) := .regular hslash hclosed
  obtain ⟨body, hbody⟩ := Option.isSome_iff_exists.mp (slice?_isSome.mpr (h.slices hslices))
  refine ⟨hslices, body, hbody, ?_⟩
  unfold regularBodyText
  rw [hbody]
  rfl

/-- A step that succeeds leaves the scanner behind its token. -/
theorem next_span (h : s.Scanned before) (hok : s.next.1 = .ok ()) :
    s.next.2.token.span.start ≤ s.next.2.token.span.stop ∧
      s.next.2.token.span.stop = s.next.2.cursor.index := by
  obtain ⟨gap, notes, text, htakes⟩ := next_takes h hok
  rw [htakes.span, htakes.scanned.index_eq]
  exact ⟨by simp [Lines.spanOf], rfl⟩

theorem readRegularExpression_span (h : s.Scanned before)
    (hok : s.readRegularExpression.1 = .ok ()) :
    s.readRegularExpression.2.token.span.start ≤ s.readRegularExpression.2.token.span.stop ∧
      s.readRegularExpression.2.token.span.stop = s.readRegularExpression.2.cursor.index := by
  obtain ⟨text, hread⟩ := readRegularExpression_scanned h
  have hstop : s.readRegularExpression.2.token.span.stop = s.readRegularExpression.2.cursor.index := by
    unfold readRegularExpression at hok ⊢
    cases hbody : regularBody (s.cursor.rest.length + 1) s.cursor with
    | error f => rw [hbody] at hok; cases hok
    | ok body =>
      rw [hbody] at hok
      dsimp only at hok ⊢
      cases hflags : regularFlags body with
      | error f => rw [hflags] at hok; cases hok
      | ok reading => rfl
  refine ⟨?_, hstop⟩
  obtain ⟨-, -, -, -, -, hle, -⟩ := hread.token.1
  rw [hstop, hread.index_eq]
  exact hle

end Scanned

/-- The scanner stands between two characters of its text, takes only slices of it, such as the
contents of comments and regular expressions, and a step that succeeds leaves it behind its token. -/
structure Safe (s : Scanner) : Prop where
  boundary : dropBytes? s.script.content s.cursor.index = some s.cursor.rest
  within : Bounds s.script.content 0 s.cursor.index
  slices : ∀ start stop, s.Slices start stop → Bounds s.script.content start stop
  comment : ∀ c d, Visits s.cursor c → comment? c = .ok (some d) → ∃ note start stop,
    d.passedComments = note :: c.passedComments ∧ s.Slices start stop ∧
      slice? s.script.content start stop = some note.content.toList
  body : ∀ fuel d, Rules.beginsRegularExpression s.token = true → regularBody fuel s.cursor = .ok d →
    s.Slices (s.token.span.start + 1) (d.index - 1) ∧
      ∃ body, slice? s.script.content (s.token.span.start + 1) (d.index - 1) = some body ∧
        s.regularBodyText d = String.ofList (unifiedLines body)
  next : s.next.1 = .ok () → s.next.2.token.span.start ≤ s.next.2.token.span.stop ∧
    s.next.2.token.span.stop = s.next.2.cursor.index
  regular : Rules.beginsRegularExpression s.token = true → s.readRegularExpression.1 = .ok () →
    s.readRegularExpression.2.token.span.start ≤ s.readRegularExpression.2.token.span.stop ∧
      s.readRegularExpression.2.token.span.stop = s.readRegularExpression.2.cursor.index

theorem Scanned.safe {before : List Char} {s : Scanner} (h : s.Scanned before) : s.Safe where
  boundary := by rw [h.content, h.index_eq, dropBytes?_append]
  within := ⟨[], before, s.cursor.rest, h.content, rfl, h.index_eq⟩
  slices _ _ := h.slices
  comment _ _ := h.comment_sliced
  body _ _ := h.regularBodyText_sliced
  next := h.next_span
  regular _ := h.readRegularExpression_span

end Scanner

/-- However a scanner or a parser goes on in a fresh script, also behind problems and behind the end,
it stands between two characters of the text, and every slice that it takes begins and ends between
characters. -/
theorem slices_bounded (host : Host) (path source : String) :
    (∀ s, (Scanner.ofScript (Script.ofSource path source)).Run s → s.Safe) ∧
    (∀ t, Walk (ParserState.ofScript (Script.ofSource path source)) t → t.scanner.Safe) ∧
    ∀ entries, Walk (ParserState.ofScript (Script.ofSource path source))
      ((Parser.ofScript host (Script.ofSource path source)).calls entries).state := by
  refine ⟨fun s h => ?_, fun t h => ?_, Parser.walk_calls host path source⟩
  · obtain ⟨text, hs⟩ := h.scanned (.ofSource path source)
    exact hs.safe
  · obtain ⟨before, ht⟩ := (h.sound (.ofSource path source)).1.scanned
    exact ht.safe

/-- A regular expression behind a comment, whose slices lie between their delimiters. -/
theorem slices_bounded_regular :
    let s := (Scanner.ofScript (Script.ofSource "main.es" "/*é*/ /ü/")).next.2
    s.token.span = ⟨1, 1, 7, 8⟩ ∧ s.Slices 8 10 ∧ slice? s.script.content 8 10 = some ['ü'] ∧
      (slice? s.script.content 8 10).isSome ∧
      s.readRegularExpression.2.token.span.stop = s.readRegularExpression.2.cursor.index := by
  intro s
  obtain ⟨hrun, -, -⟩ := slices_bounded (Host.ofFiles []) "main.es" "/*é*/ /ü/"
  have hsafe := hrun s (.next (.refl _))
  have hslash : Rules.beginsRegularExpression s.token = true := by decide +kernel
  have hclosed : Scan.regularBody 5 s.cursor = .ok ⟨[], 11, 1, [], []⟩ := by rfl
  have hslices : s.Slices 8 10 := .regular hslash hclosed
  refine ⟨by decide +kernel, hslices, by decide +kernel, ?_, ?_⟩
  · exact slice?_isSome.mpr (hsafe.slices 8 10 hslices)
  · exact (hsafe.regular hslash (by decide +kernel)).2

end ActionSyntax
