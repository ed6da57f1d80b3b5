import ActionSyntax.Proofs.Places.Gaps
import ActionSyntax.Proofs.ScanAmid
import ActionSyntax.Scanner

/-!
Strings, regular expressions and what stands between tokens read the same by themselves and within
other text, where lines are counted on. Only a comment that runs to the end of the piece runs on in
the whole.
-/

namespace ActionSyntax

set_option autoImplicit false

/-- The range in the whole text of a range in the piece. -/
def Span.moved (offset lines : Nat) (span : Span) : Span :=
  ⟨span.firstLine + lines, span.lastLine + lines, span.start + offset, span.stop + offset⟩

/-- Where a piece stands within a text: behind so many bytes and line terminators and in front of the
tail. Of what is in front of it, this has been noted and not been handed on. -/
structure Placement where
  offset : Nat
  lines : Nat
  tail : List Char
  passedLines : List Nat := []
  passedComments : List Comment := []

/-- A piece within a text. -/
def Surroundings.within (p : Placement) : Surroundings where
  place c :=
    { rest := c.rest ++ p.tail
      index := c.index + p.offset
      line := c.line + p.lines
      passedLines := c.passedLines.map (· + p.offset) ++ p.passedLines
      passedComments := (c.passedComments.map fun comment =>
        { comment with span := comment.span.moved p.offset p.lines }) ++ p.passedComments }
  offset := p.offset
  tail := p.tail
  rest _ := rfl
  index _ := rfl
  skip {c n} h := by
    simp only [Cursor.skip, List.drop_append_of_le_length h, Nat.add_right_comm]
  advance {c} h := by
    obtain ⟨ch, rest, hc⟩ := List.exists_cons_of_ne_nil h
    simp [Cursor.advance, hc, Nat.add_right_comm]

/-- Marks that close, which a piece may end at. -/
def closingMarks : List Char := [';', ')', ',', ']']

/-- Marks that a piece may end at. -/
def stopMarks : List Char := ':' :: closingMarks

/-- The piece ends at such a mark, or with the text. -/
def Stopped (tail : List Char) : Prop := tail = [] ∨ ∃ ch rest, tail = ch :: rest ∧ ch ∈ stopMarks

namespace Cursor

variable {p : Placement} {c d : Cursor}

/-- The place in the whole text of a place in the piece, on its line. -/
abbrev within (c : Cursor) (p : Placement) : Cursor := c.amid (.within p)

theorem within_eq (c : Cursor) : c.within p =
    { rest := c.rest ++ p.tail
      index := c.index + p.offset
      line := c.line + p.lines
      passedLines := c.passedLines.map (· + p.offset) ++ p.passedLines
      passedComments := (c.passedComments.map fun comment =>
        { comment with span := comment.span.moved p.offset p.lines }) ++ p.passedComments } := rfl

theorem spanTo_within (c d : Cursor) :
    (c.within p).spanTo (d.within p) =
      (c.spanTo d).moved p.offset p.lines := rfl

theorem startLine_within (c : Cursor) (rest : List Char) (width : Nat) :
    (c.within p).startLine (rest ++ p.tail) width =
      (c.startLine rest width).within p := by
  simp only [within_eq, startLine, List.map_cons, List.cons_append, Nat.add_right_comm]

/-- No line feed follows a carriage return at the end of the piece, so that one is a line terminator of
its own. -/
theorem newline?_within (hapart : (Surroundings.within p).Apart c) (hne : c.rest ≠ []) :
    (c.within p).newline? = c.newline?.map fun d => d.within p := by
  have hfeed : c.rest = ['\r'] → ∀ rest, p.tail ≠ '\n' :: rest := by
    intro hreturn rest htail
    exact (hapart '\r' (by rw [hreturn]; rfl) '\n' (List.head?_eq_some_iff.mpr ⟨rest, htail⟩)).2 rfl rfl
  have other : ∀ {ch : Char} {rest : List Char},
      (∀ more, ch :: rest ≠ '\r' :: '\n' :: more) → ∀ c : Cursor, c.rest = ch :: rest →
        c.newline? =
          if CharClass.isLineTerminator ch then some (c.startLine rest ch.utf8Size) else none := by
    intro ch rest hnot c hc
    unfold newline?
    rw [hc]
    split
    · cases ‹_ :: _ = []›
    · rename_i heq
      exact absurd heq (hnot _)
    · rename_i heq
      cases heq
      rfl
  obtain ⟨ch, rest, hc⟩ := List.exists_cons_of_ne_nil hne
  have hwhole : (c.within p).rest = ch :: (rest ++ p.tail) := by
    rw [amid_rest, hc]
    rfl
  by_cases hpair : ∃ more, ch :: rest = '\r' :: '\n' :: more
  · obtain ⟨more, hmore⟩ := hpair
    cases hmore
    unfold newline?
    rw [hwhole, hc]
    simp only [List.cons_append, Option.map_some, startLine_within]
  · have hpair' : ∀ more, ch :: (rest ++ p.tail) ≠ '\r' :: '\n' :: more := by
      intro more heq
      obtain ⟨rfl, hrest⟩ := List.cons.inj heq
      cases rest with
      | nil => exact hfeed hc _ hrest
      | cons next rest =>
        obtain ⟨rfl, -⟩ := List.cons.inj hrest
        exact hpair ⟨rest, rfl⟩
    rw [other hpair' _ hwhole, other (fun more heq => hpair ⟨more, heq⟩) c hc, startLine_within]
    split <;> rfl

end Cursor

namespace Scan

open Cursor

variable {p : Placement} {c d : Cursor}
  (hparted : (Surroundings.within p).Parted)
include hparted

section Strings

theorem stringEscape_within {v : Option Char} (hapart : (Surroundings.within p).Apart c)
    (hne : c.rest ≠ []) (h : stringEscape c = .ok (v, d)) :
    stringEscape (c.within p) = .ok (v, d.within p) := by
  have hone : 1 ≤ c.rest.length := List.length_pos_iff.mpr hne
  unfold stringEscape at h ⊢
  dsimp only at h ⊢
  rw [skip_amid hone, amid_rest]
  split at h
  · cases h
  · rename_i ch rest hc
    have hinside : (c.skip 1).rest ≠ [] := by simp [hc]
    have hnext : 1 ≤ (c.skip 1).rest.length := List.length_pos_iff.mpr hinside
    rw [hc, List.cons_append]
    dsimp only
    split at h
    · rename_i hcode
      obtain ⟨⟨value, e⟩, hx, hf⟩ := ok_of_bind h
      cases hf
      rw [if_pos hcode, escapedChar_amid hparted hx]
      rfl
    · rename_i hcode
      rw [if_neg hcode]
      split at h
      · rename_i value hnamed
        cases h
        rw [skip_amid hnext]
      · rename_i hnamed
        rw [newline?_within (hapart.leads (.skip c 1)) hinside]
        split at h
        · rename_i e hline
          cases h
          rw [hline]
          rfl
        · rename_i hline
          cases h
          rw [hline, advance_amid hinside]
          rfl

theorem quotedBody_within {quote : Char} : ∀ {fuel more : Nat} {read out : QuotedText} {c d : Cursor},
    (Surroundings.within p).Apart c → quotedBody quote fuel read c = .ok (out, d) →
      quotedBody quote (fuel + more) read (c.within p) =
        .ok (out, d.within p)
  | 0, _, _, _, _, _, _, h => by cases h
  | fuel + 1, more, read, out, c, d, hapart, h => by
    rw [show fuel + 1 + more = fuel + more + 1 by omega]
    unfold quotedBody at h ⊢
    rw [amid_rest]
    split at h
    · cases h
    · rename_i ch rest hc
      have hne : c.rest ≠ [] := by simp [hc]
      have hone : 1 ≤ c.rest.length := List.length_pos_iff.mpr hne
      rw [hc, List.cons_append]
      dsimp only
      split at h
      · rename_i hquote
        cases h
        rw [if_pos hquote, skip_amid hone]
      · rename_i hquote
        rw [if_neg hquote]
        split at h
        · rename_i hslash
          obtain ⟨⟨value, e⟩, hx, hf⟩ := ok_of_bind h
          rw [if_pos hslash, stringEscape_within hparted hapart hne hx]
          exact quotedBody_within (hapart.leads (.of_skip (stringEscape_leads hx))) hf
        · rename_i hslash
          rw [if_neg hslash, newline?_within hapart hne]
          split at h
          · rename_i e hline
            rw [hline]
            exact quotedBody_within (hapart.leads (.of_skip (.newline hline))) h
          · rename_i hline
            rw [hline, advance_amid hne]
            exact quotedBody_within (hapart.leads (.advance c)) h

theorem blockBody_within {quote : Char} (hquote : quote ∉ partings) :
    ∀ {fuel more : Nat} {read out : BlockText} {c d : Cursor},
      (Surroundings.within p).Apart c → blockBody quote fuel read c = .ok (out, d) →
        blockBody quote (fuel + more) read (c.within p) =
          .ok (out, d.within p)
  | 0, _, _, _, _, _, _, h => by cases h
  | fuel + 1, more, read, out, c, d, hapart, h => by
    have hmarks : ∀ ch ∈ partings, ch ∉ [quote, quote, quote] := by
      rintro ch hch hmem
      obtain rfl : ch = quote := by simpa using hmem
      exact hquote hch
    rw [show fuel + 1 + more = fuel + more + 1 by omega]
    unfold blockBody at h ⊢
    rw [amid_rest]
    split at h
    · cases h
    · rename_i ch rest hc
      have hne : c.rest ≠ [] := by simp [hc]
      rw [hc, List.cons_append]
      dsimp only
      rw [startsWith_amid_of_not_mem hparted hmarks]
      split at h
      · rename_i hclose
        have hlength : 3 ≤ c.rest.length := (List.isPrefixOf_iff_prefix.mp hclose).length_le
        cases h
        rw [if_pos hclose, skip_amid hlength]
      · rename_i hclose
        rw [if_neg hclose]
        split at h
        · rename_i hslash
          obtain ⟨⟨value, e⟩, hx, hf⟩ := ok_of_bind h
          rw [if_pos hslash, stringEscape_within hparted hapart hne hx]
          exact blockBody_within hquote (hapart.leads (.of_skip (stringEscape_leads hx))) hf
        · rename_i hslash
          rw [if_neg hslash, newline?_within hapart hne]
          split at h
          · rename_i e hline
            rw [hline]
            exact blockBody_within hquote (hapart.leads (.of_skip (.newline hline))) h
          · rename_i hline
            rw [hline, advance_amid hne]
            exact blockBody_within hquote (hapart.leads (.advance c)) h

theorem blockLiteral_within {quote : Char} (hquote : quote ∉ partings) {l : Lexeme}
    (hapart : (Surroundings.within p).Apart c) (h : blockLiteral quote c = .ok (l, d)) :
    blockLiteral quote (c.within p) = .ok (l, d.within p) := by
  obtain ⟨⟨read, e⟩, hx, hf⟩ := ok_of_bind h
  cases hf
  have hne : c.rest ≠ [] := by
    intro hnil
    have hline : c.newline? = none := by
      unfold newline?
      rw [hnil]
    rw [hline] at hx
    simp only [Option.getD_none, hnil] at hx
    unfold blockBody at hx
    rw [hnil] at hx
    cases hx
  have hinside : ((c.newline?.map fun d => d.within p).getD
      (c.within p)) = (c.newline?.getD c).within p := by
    cases c.newline? <;> rfl
  have hmore : ∀ e : Cursor, (e.within p).rest.length + 1 =
      e.rest.length + 1 + p.tail.length := fun e => by
    rw [amid_rest, List.length_append]
    show e.rest.length + p.tail.length + 1 = _
    omega
  unfold blockLiteral
  dsimp only
  rw [newline?_within hapart hne, hinside, hmore,
    blockBody_within hparted hquote (hapart.leads (newline_getD_leads c)) hx]
  cases c.newline? <;> rfl

theorem stringLiteral_within {quote : Char} (hquote : quote ∉ partings) {l : Lexeme}
    (hapart : (Surroundings.within p).Apart c) (hne : c.rest ≠ [])
    (h : stringLiteral quote c = .ok (l, d)) :
    stringLiteral quote (c.within p) = .ok (l, d.within p) := by
  have hmarks : ∀ ch ∈ partings, ch ∉ [quote, quote, quote] := by
    rintro ch hch hmem
    obtain rfl : ch = quote := by simpa using hmem
    exact hquote hch
  unfold stringLiteral at h ⊢
  rw [startsWith_amid_of_not_mem hparted hmarks]
  split at h
  · rename_i hopen
    have hlength : 3 ≤ c.rest.length := (List.isPrefixOf_iff_prefix.mp hopen).length_le
    rw [if_pos hopen, skip_amid hlength]
    exact blockLiteral_within hparted hquote (hapart.leads (.skip c 3)) h
  · rename_i hopen
    obtain ⟨⟨read, e⟩, hx, hf⟩ := ok_of_bind h
    have hmore : ((c.skip 1).within p).rest.length + 1 =
        (c.skip 1).rest.length + 1 + p.tail.length := by
      rw [amid_rest, List.length_append]
      show (c.skip 1).rest.length + p.tail.length + 1 = _
      omega
    have hone : 1 ≤ c.rest.length := List.length_pos_iff.mpr hne
    rw [if_neg hopen, skip_amid hone]
    dsimp only
    rw [hmore, quotedBody_within hparted (hapart.leads (.skip c 1)) hx]
    dsimp only [bind, Except.bind] at hf ⊢
    split at hf
    · cases hf
    · rename_i hbroken
      cases hf
      rw [if_neg hbroken]
      rfl

/-- A lexeme reads the same within other text. -/
theorem lexeme_within {l : Lexeme} (hapart : (Surroundings.within p).Apart c)
    (hclear : (Surroundings.within p).Clear c) (hend : l.kind ≠ .endOfProgram)
    (h : lexeme c = .ok (l, d)) : lexeme (c.within p) = .ok (l, d.within p) := by
  refine lexeme_amid hparted hapart hclear hend (fun quote hquote hread => ?_) h
  refine stringLiteral_within hparted hquote hapart (fun hnil => ?_) hread
  unfold lexeme at h
  rw [hnil] at h
  cases h
  exact hend rfl

end Strings

section RegularExpressions

omit hparted in
theorem passAny_within (hapart : (Surroundings.within p).Apart c)
    (h : passAny c = .ok d) :
    passAny (c.within p) = .ok (d.within p) := by
  have hne : c.rest ≠ [] := by
    intro hnil
    unfold passAny Cursor.newline? Cursor.atEnd at h
    rw [hnil] at h
    cases h
  have hinside : (c.within p).atEnd = false := by
    obtain ⟨ch, rest, hc⟩ := List.exists_cons_of_ne_nil hne
    unfold Cursor.atEnd
    rw [amid_rest, hc]
    rfl
  unfold passAny at h ⊢
  rw [newline?_within hapart hne, hinside]
  split at h
  · rename_i e hline
    cases h
    rw [hline]
    rfl
  · rename_i hline
    split at h
    · cases h
    · cases h
      rw [hline, advance_amid hne]
      rfl

theorem regularBody_within : ∀ {fuel more : Nat} {c d : Cursor},
    (Surroundings.within p).Apart c → regularBody fuel c = .ok d → regularBody (fuel + more)
      (c.within p) = .ok (d.within p)
  | 0, _, _, _, _, h => by cases h
  | fuel + 1, more, c, d, hapart, h => by
    have hlength : ∀ {mark : Char}, c.startsWith [mark] = true → 1 ≤ c.rest.length := fun hmark =>
      (List.isPrefixOf_iff_prefix.mp hmark).length_le
    rw [show fuel + 1 + more = fuel + more + 1 by omega]
    unfold regularBody at h ⊢
    rw [startsWith_amid_of_not_mem hparted (by decide),
      startsWith_amid_of_not_mem hparted (by decide)]
    split at h
    · rename_i hslash
      obtain ⟨e, hx, hf⟩ := ok_of_bind h
      have hskipped := hapart.leads (.skip c 1)
      rw [if_pos hslash, skip_amid (hlength hslash), passAny_within hskipped hx]
      exact regularBody_within (hskipped.leads (passAny_leads hx)) hf
    · rename_i hslash
      rw [if_neg hslash]
      split at h
      · rename_i hclose
        cases h
        rw [if_pos hclose, skip_amid (hlength hclose)]
        rfl
      · rename_i hclose
        obtain ⟨e, hx, hf⟩ := ok_of_bind h
        rw [if_neg hclose, passAny_within hapart hx]
        exact regularBody_within (hapart.leads (passAny_leads hx)) hf

theorem regularFlags_within {flags : List Char} (h : regularFlags c = .ok (flags, d)) :
    regularFlags (c.within p) = .ok (flags, d.within p) := by
  obtain ⟨⟨read, e⟩, hx, hf⟩ := ok_of_bind h
  cases hf
  have hmore : (c.within p).rest.length + 1 = c.rest.length + 1 + p.tail.length := by
    rw [amid_rest, List.length_append]
    show c.rest.length + p.tail.length + 1 = _
    omega
  unfold regularFlags
  rw [hmore, nameChars_amid hparted (by omega) hx]
  rfl

end RegularExpressions

section Trivia

omit hparted in
theorem commentChar_within (hapart : (Surroundings.within p).Apart c)
    (h : commentChar c = .ok d) :
    commentChar (c.within p) = .ok (d.within p) :=
  passAny_within hapart h

theorem blockEnd_within : ∀ {fuel more depth : Nat} {c d : Cursor},
    (Surroundings.within p).Apart c → blockEnd fuel depth c = .ok d →
      blockEnd (fuel + more) depth (c.within p) = .ok (d.within p)
  | 0, _, _, _, _, _, h => by cases h
  | fuel + 1, more, depth, c, d, hapart, h => by
    have hlength : ∀ {first second : Char}, c.startsWith [first, second] = true →
        2 ≤ c.rest.length := fun hmark => (List.isPrefixOf_iff_prefix.mp hmark).length_le
    rw [show fuel + 1 + more = fuel + more + 1 by omega]
    unfold blockEnd at h ⊢
    rw [startsWith_amid_of_not_mem hparted (by decide),
      startsWith_amid_of_not_mem hparted (by decide)]
    split at h
    · rename_i hopen
      rw [if_pos hopen, skip_amid (hlength hopen)]
      exact blockEnd_within (hapart.leads (.skip c 2)) h
    · rename_i hopen
      rw [if_neg hopen]
      split at h
      · rename_i hclose
        rw [if_pos hclose, skip_amid (hlength hclose)]
        cases depth with
        | zero =>
          cases h
          rfl
        | succ depth => exact blockEnd_within (hapart.leads (.skip c 2)) h
      · rename_i hclose
        obtain ⟨e, hx, hf⟩ := ok_of_bind h
        rw [if_neg hclose, commentChar_within hapart hx]
        exact blockEnd_within (hapart.leads (commentChar_leads hx)) hf

omit hparted in
theorem markupEnd_within : ∀ {fuel more : Nat} {c d : Cursor},
    (Surroundings.within p).Apart c → markupEnd fuel c = .ok d →
      markupEnd (fuel + more) (c.within p) = .ok (d.within p)
  | 0, _, _, _, _, h => by cases h
  | fuel + 1, more, c, d, hapart, h => by
    have hlong : 3 ≤ c.rest.length := by
      obtain ⟨content, hp, -⟩ := markupEnd_passes h
      have hlength := congrArg List.length hp.rest
      simp only [List.length_append, markupClosing, List.length_cons] at hlength
      omega
    rw [show fuel + 1 + more = fuel + more + 1 by omega]
    unfold markupEnd at h ⊢
    rw [startsWith_amid_of_ne fun ch rest _ back heq => by
      have hlength := congrArg List.length heq
      simp only [List.length_append, List.length_cons, List.length_nil] at hlength
      omega]
    split at h
    · rename_i hclose
      have hlength : 3 ≤ c.rest.length := (List.isPrefixOf_iff_prefix.mp hclose).length_le
      cases h
      rw [if_pos hclose, skip_amid hlength]
    · rename_i hclose
      obtain ⟨e, hx, hf⟩ := ok_of_bind h
      rw [if_neg hclose, commentChar_within hapart hx]
      exact markupEnd_within (hapart.leads (commentChar_leads hx)) hf

omit hparted in
/-- What is noted of a comment in the piece is noted in the whole. -/
theorem noteBlock_within {opening rest : List Char} {closing : Nat} (hopen : c.rest = opening ++ rest)
    (hsize : Utf8.byteLength opening = opening.length) (hd : d.index ≤ c.final) :
    noteBlock (c.within p) (d.within p) opening.length closing =
      (noteBlock c d opening.length closing).within p := by
  have hlength : opening.length ≤ c.rest.length := by
    rw [hopen, List.length_append]
    omega
  have hrest : (c.skip opening.length).rest = rest := by
    show c.rest.drop opening.length = rest
    rw [hopen, List.drop_left]
  have hwidth : (d.within p).index - (c.within p).index =
      d.index - c.index := by
    rw [amid_index, amid_index]
    omega
  have hfits : d.index - c.index - opening.length - closing ≤ Utf8.byteLength rest := by
    unfold final at hd
    rw [hopen, Utf8.byteLength_append, hsize] at hd
    omega
  unfold noteBlock
  rw [skip_amid hlength, hwidth, amid_rest, hrest]
  dsimp only
  rw [Utf8.takeBytes_append_of_le hfits]
  rfl

/-- Everything is behind a comment that runs to the end of the piece, and on into what follows it. -/
def RunsOn (tail : List Char) (d : Cursor) : Prop :=
  (∃ ch ∈ tail.head?, CharClass.isLineTerminator ch = false) ∧ d.rest = [] ∧
    ∃ comment ∈ d.passedComments, comment.multiLine = false ∧ comment.span.stop = d.index

omit hparted in
theorem index_le_of_passes {text : List Char} {notes : List Comment} (h : c.Passes text notes d) :
    d.index ≤ c.final := by
  unfold final
  rw [h.index, h.rest, Utf8.byteLength_append]
  omega

omit hparted in
/-- What is passed and noted of a comment to the end of its line. -/
theorem lineComment_eq {content after : List Char} (h : c.rest = '/' :: '/' :: (content ++ after))
    (hcontent : (content ++ after).takeWhile (!CharClass.isLineTerminator ·) = content) :
    ∃ stop : Cursor, stop = { c.skip 2 with rest := after, index := c.index + 2 + Utf8.byteLength content } ∧
      lineComment c = stop.note
        { multiLine := false, content := String.ofList content, span := c.spanTo stop } := by
  have hinside : (c.skip 2).rest = content ++ after := by simp [Cursor.skip, h]
  have hwidth : LineSearch.distance 0 (LineSearch.bytes (content ++ after)) =
      Utf8.byteLength content := by
    rw [LineSearch.distance_bytes, Nat.zero_add, hcontent]
  refine ⟨_, rfl, ?_⟩
  unfold lineComment
  simp only [hinside, hwidth, Utf8.takeBytes_append, Utf8.dropBytes?_append]
  rfl

omit hparted in
theorem lineComment_within {rest : List Char} (h : c.rest = '/' :: '/' :: rest)
    (hends : (lineComment c).rest ≠ [] ∨ ∀ ch ∈ p.tail.head?, CharClass.isLineTerminator ch = true) :
    lineComment (c.within p) = (lineComment c).within p := by
  generalize hcontent : rest.takeWhile (!CharClass.isLineTerminator ·) = content
  generalize hafter : rest.dropWhile (!CharClass.isLineTerminator ·) = after
  have hsplit : rest = content ++ after := by
    rw [← hcontent, ← hafter, List.takeWhile_append_dropWhile]
  subst hsplit
  obtain ⟨stop, hstop, heq⟩ := lineComment_eq h hcontent
  have hafter' : after ≠ [] ∨ ∀ ch ∈ p.tail.head?, CharClass.isLineTerminator ch = true := by
    rw [heq, hstop] at hends
    exact hends
  have hplain : ∀ ch ∈ content, (!CharClass.isLineTerminator ch) = true := by
    rw [← hcontent]
    exact fun ch hch => by simpa using List.mem_takeWhile_imp hch
  have hhead : ∀ ch ∈ after.head?, CharClass.isLineTerminator ch = true := by
    intro ch hch
    have hnot := List.head?_dropWhile_not (!CharClass.isLineTerminator ·) (content ++ after)
    rw [hafter, Option.mem_def.mp hch] at hnot
    simpa using hnot
  have hwhole : (content ++ (after ++ p.tail)).takeWhile (!CharClass.isLineTerminator ·) =
      content := by
    rw [List.takeWhile_append_of_pos hplain]
    cases after with
    | nil =>
      have htail := hafter'.resolve_left (by simp)
      cases hnil : p.tail with
      | nil => simp
      | cons ch more =>
        rw [hnil] at htail
        rw [List.nil_append, List.takeWhile_cons_of_neg (by simp [htail ch rfl]), List.append_nil]
    | cons ch more =>
      rw [List.cons_append, List.takeWhile_cons_of_neg (by simp [hhead ch rfl]), List.append_nil]
  have hrest : (c.within p).rest = '/' :: '/' :: (content ++ (after ++ p.tail)) := by
    rw [amid_rest, h]
    simp only [List.cons_append, List.append_assoc]
    rfl
  obtain ⟨stop', hstop', heq'⟩ := lineComment_eq hrest hwhole
  have hplace : stop' = stop.within p := by
    rw [hstop', hstop, within_eq]
    simp only [Cursor.skip, within_eq, Nat.add_right_comm _ p.offset]
  rw [heq, heq', hplace, spanTo_within]
  rfl

/-- A comment in the piece reads the same, unless it is one that runs to its end. -/
theorem comment?_within (hapart : (Surroundings.within p).Apart c)
    (h : comment? c = .ok (some d)) :
    comment? (c.within p) = .ok (some (d.within p)) ∨
      RunsOn p.tail d := by
  have hrounds : (c.within p).rest.length + 1 = c.rest.length + 1 + p.tail.length := by
    rw [amid_rest, List.length_append]
    show c.rest.length + p.tail.length + 1 = _
    omega
  have hstart : ∀ {mark : List Char}, c.startsWith mark = true → ∃ rest, c.rest = mark ++ rest :=
    fun hmark => (startsWith_iff.mp hmark).imp fun _ => Eq.symm
  unfold comment? at h ⊢
  rw [startsWith_amid_of_not_mem hparted (by decide),
    startsWith_amid_of_not_mem hparted (by decide),
    startsWith_amid_of_not_mem hparted (by decide), hrounds]
  split at h
  · rename_i hopen
    obtain ⟨e, hend, heq⟩ := ok_of_bind h
    cases heq
    obtain ⟨rest, hrest⟩ := hstart hopen
    obtain ⟨content, hp, -⟩ := markupEnd_passes hend
    have hpasses := (passes_skip_startsWith hopen (by decide)).trans hp
    have hlength : 4 ≤ c.rest.length := (List.isPrefixOf_iff_prefix.mp hopen).length_le
    refine Or.inl ?_
    rw [if_pos hopen, skip_amid hlength, markupEnd_within (hapart.leads (.skip c 4)) hend]
    exact congrArg (fun d => Except.ok (some d))
      (noteBlock_within hrest (by decide) (index_le_of_passes hpasses))
  · rename_i hmarkup
    rw [if_neg hmarkup]
    split at h
    · rename_i hopen
      obtain ⟨e, hend, heq⟩ := ok_of_bind h
      cases heq
      obtain ⟨rest, hrest⟩ := hstart hopen
      obtain ⟨text, hp, -⟩ := blockEnd_passes hend
      have hpasses := (passes_skip_startsWith hopen (by decide)).trans hp
      have hlength : 2 ≤ c.rest.length := (List.isPrefixOf_iff_prefix.mp hopen).length_le
      refine Or.inl ?_
      rw [if_pos hopen, skip_amid hlength, blockEnd_within hparted (hapart.leads (.skip c 2)) hend]
      exact congrArg (fun d => Except.ok (some d))
        (noteBlock_within hrest (by decide) (index_le_of_passes hpasses))
    · rename_i hblock
      rw [if_neg hblock]
      split at h
      · rename_i hopen
        cases h
        obtain ⟨rest, hrest⟩ := hstart hopen
        by_cases hends : (lineComment c).rest ≠ [] ∨
            ∀ ch ∈ p.tail.head?, CharClass.isLineTerminator ch = true
        · refine Or.inl ?_
          rw [if_pos hopen, lineComment_within hrest hends]
        · obtain ⟨hends, htail⟩ := not_or.mp hends
          refine Or.inr ⟨?_, not_not.mp hends, ?_⟩
          · simpa using htail
          obtain ⟨content, -, hp⟩ := lineComment_passes hrest
          refine ⟨CommentForm.line.noted content (c.spanTo (lineComment c)), ?_, rfl, rfl⟩
          rw [hp.noted]
          simp
      · cases h

/-- Nothing that stands between tokens begins with the text. -/
def Opens (text : List Char) : Prop := ∀ c : Cursor, c.rest = text → triviaStep? c = .ok none

omit hparted in
/-- Where the piece ends at a mark, so does what stands between tokens. -/
theorem Stopped.opens {tail : List Char} (hstopped : Stopped tail) : Opens tail := by
  intro c hc
  obtain rfl | ⟨ch, rest, rfl, hch⟩ := hstopped
  · unfold triviaStep?
    rw [hc]
  · have hplain : ∀ ch ∈ stopMarks, CharClass.isBlank ch = false ∧ CharClass.isLineTerminator ch = false ∧
        ch ≠ '/' ∧ ch ≠ '<' ∧ ch ≠ '\r' := by decide
    obtain ⟨hblank, hends, hslash, hless, hreturn⟩ := hplain ch hch
    simp [triviaStep?, comment?, newline?, startsWith, hc, hblank, hends, Ne.symm hslash, Ne.symm hless,
      hreturn]

omit hparted in
theorem Stopped.parted (h : Stopped p.tail) : (Surroundings.within p).Parted := by
  obtain hnil | ⟨ch, rest, hcons, hch⟩ := h
  · exact Or.inl hnil
  · have hall : ∀ ch ∈ stopMarks, ch ∈ partings := by decide
    exact Or.inr ⟨ch, rest, hcons, hall ch hch⟩

omit hparted in
theorem Stopped.apart {tail : List Char} (h : Stopped tail) (front : List Char) : Apart front tail := by
  intro last _ ch hch
  obtain rfl | ⟨mark, rest, rfl, hmark⟩ := h
  · cases hch
  · cases hch
    have hall : ∀ ch ∈ stopMarks, ch ≠ '|' ∧ ch ≠ '=' ∧ ch ≠ '\n' := by decide
    obtain ⟨hbar, hassign, hfeed⟩ := hall ch hmark
    exact ⟨fun _ => ⟨hbar, hassign⟩, fun _ => hfeed⟩

/-- A step between tokens is the same within other text. -/
theorem triviaStep?_within (hapart : (Surroundings.within p).Apart c)
    (h : triviaStep? c = .ok (some d)) :
    triviaStep? (c.within p) = .ok (some (d.within p)) ∨
      RunsOn p.tail d := by
  unfold triviaStep? at h ⊢
  split at h
  · cases h
  · rename_i ch rest hc
    have hne : c.rest ≠ [] := by simp [hc]
    rw [amid_rest, hc, List.cons_append]
    dsimp only
    rw [newline?_within hapart hne]
    split at h
    · rename_i hblank
      cases h
      rw [if_pos hblank, advance_amid hne]
      exact Or.inl rfl
    · rename_i hblank
      rw [if_neg hblank]
      split at h
      · rename_i e hline
        cases h
        rw [hline]
        exact Or.inl rfl
      · rename_i hline
        rw [hline]
        exact comment?_within hparted hapart h

/-- Where a token or the end follows in the piece, so it does in the whole. -/
theorem triviaStep?_within_none (hapart : (Surroundings.within p).Apart c)
    (hne : c.rest ≠ []) (h : triviaStep? c = .ok none) :
    triviaStep? (c.within p) = .ok none := by
  unfold triviaStep? at h ⊢
  split at h
  · exact absurd ‹c.rest = []› hne
  · rename_i ch rest hc
    rw [amid_rest, hc, List.cons_append]
    dsimp only
    rw [newline?_within hapart hne]
    split at h
    · cases h
    · rename_i hblank
      rw [if_neg hblank]
      split at h
      · cases h
      · rename_i hline
        rw [hline]
        exact comment?_none_amid hparted h

omit hparted in
theorem triviaStep?_shorter (h : triviaStep? c = .ok (some d)) :
    d.rest.length < c.rest.length := by
  have hpasses : ∀ {text : List Char} {notes : List Comment}, text ≠ [] → c.Passes text notes d →
      d.rest.length < c.rest.length := by
    intro text notes htext hp
    have hpos : 0 < text.length := List.length_pos_iff.mpr htext
    rw [hp.rest, List.length_append]
    omega
  unfold triviaStep? at h
  split at h
  · cases h
  · rename_i ch rest hc
    split at h
    · rename_i hblank
      cases h
      exact hpasses (by simp) (passes_advance hc (CharClass.not_lineTerminator_of_blank hblank))
    · split at h
      · rename_i hline
        cases h
        obtain ⟨terminator, hmem, hp⟩ := newline?_passes hline
        refine hpasses (fun hnil => ?_) hp
        subst hnil
        exact absurd hmem (by decide)
      · obtain ⟨form, content, -, hp⟩ := comment?_passes h
        refine hpasses ?_ hp
        cases form <;> simp [CommentForm.written, markupOpening, blockOpening]

omit hparted in
/-- Rounds beyond what is needed change nothing. -/
theorem triviaEnd_enough : ∀ {fuel more : Nat} {c : Cursor}, c.rest.length < fuel →
    triviaEnd (fuel + more) c = triviaEnd fuel c
  | 0, _, _, hfuel => by omega
  | fuel + 1, more, c, hfuel => by
    rw [show fuel + 1 + more = fuel + more + 1 by omega]
    unfold triviaEnd
    cases hstep : triviaStep? c with
    | error failure => rfl
    | ok step =>
      cases step with
      | none => rfl
      | some d =>
        have hshorter := triviaStep?_shorter hstep
        exact triviaEnd_enough (by omega)

omit hparted in
theorem trivia_step (h : triviaStep? c = .ok (some d)) : trivia c = trivia d := by
  have hshorter := triviaStep?_shorter h
  obtain ⟨more, hmore⟩ : ∃ more, c.rest.length = d.rest.length + 1 + more :=
    ⟨c.rest.length - (d.rest.length + 1), by omega⟩
  unfold trivia
  rw [triviaEnd, h, hmore]
  exact triviaEnd_enough (Nat.lt_succ_self _)

omit hparted in
theorem trivia_over (h : triviaStep? c = .ok none) : trivia c = .ok c := by
  unfold trivia
  rw [triviaEnd, h]
  rfl

omit hparted in
/-- Step by step, or nothing is passed. -/
theorem trivia_cases (h : trivia c = .ok d) :
    (triviaStep? c = .ok none ∧ d = c) ∨ ∃ e, triviaStep? c = .ok (some e) ∧ trivia e = .ok d := by
  obtain ⟨step, hstep, -⟩ := ok_of_bind (show (triviaStep? c >>= fun step => _) = Except.ok d from h)
  cases step with
  | none =>
    rw [trivia_over hstep] at h
    cases h
    exact Or.inl ⟨hstep, rfl⟩
  | some e => exact Or.inr ⟨e, hstep, (trivia_step hstep).symm.trans h⟩

omit hparted in
/-- Behind it, something else stands. -/
theorem triviaStep?_behind (h : trivia c = .ok d) : triviaStep? d = .ok none := by
  induction hlength : c.rest.length using Nat.strong_induction_on generalizing c with
  | _ n ih =>
    rcases trivia_cases h with ⟨hnone, rfl⟩ | ⟨e, hstep, hrest⟩
    · exact hnone
    · exact ih _ (hlength ▸ triviaStep?_shorter hstep) hrest rfl

/-- What stands between tokens in the piece is passed within other text, if no comment runs on. -/
theorem trivia_within (hapart : (Surroundings.within p).Apart c) (h : trivia c = .ok d) :
    trivia (c.within p) = trivia (d.within p) ∨ RunsOn p.tail d := by
  induction hlength : c.rest.length using Nat.strong_induction_on generalizing c with
  | _ n ih =>
    rcases trivia_cases h with ⟨-, rfl⟩ | ⟨e, hstep, hrest⟩
    · exact Or.inl rfl
    · rcases triviaStep?_within hparted hapart hstep with hwhole | hruns
      · rw [trivia_step hwhole]
        exact ih _ (hlength ▸ triviaStep?_shorter hstep) (hapart.leads (triviaStep?_leads hstep)) hrest rfl
      · have hnone : triviaStep? e = .ok none := by
          unfold triviaStep?
          rw [hruns.2.1]
        rw [trivia_over hnone] at hrest
        cases hrest
        exact Or.inr hruns

/-- Where something else stands in the piece, or behind it, it does within other text. -/
theorem trivia_within_over (hapart : (Surroundings.within p).Apart d) (h : trivia c = .ok d)
    (hopens : d.rest = [] → Opens p.tail) : trivia (d.within p) = .ok (d.within p) := by
  apply trivia_over
  by_cases hd : d.rest = []
  · exact hopens hd _ (by rw [amid_rest, hd]; rfl)
  · exact triviaStep?_within_none hparted hapart hd (triviaStep?_behind h)

end Trivia

end Scan

end ActionSyntax
