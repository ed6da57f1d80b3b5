import ActionSyntax.Proofs.Places.Slices
import ActionSyntax.Proofs.ScanWithin
import ActionSyntax.Proofs.Shadows.Contract

/-!
A piece of text read by itself and within a whole text. By itself it may be indented like the line on
which it stands in the whole. Both scanners find the same tokens, counted from different places, until the
one of the piece is at its end, and the other one in front of what follows the piece. A comment that runs
to the end of the piece runs on in the whole, and what follows it there is not told.
-/

namespace ActionSyntax

set_option autoImplicit false

open Utf8

theorem Utf8.dropBytes?_append_of_le : ∀ {text more : List Char} {n : Nat}, n ≤ byteLength text →
    dropBytes? (text ++ more) n = (dropBytes? text n).map (· ++ more)
  | [], more, n, h => by
    obtain rfl : n = 0 := by simpa using h
    cases more <;> rfl
  | ch :: text, more, 0, _ => rfl
  | ch :: text, more, n + 1, h => by
    rw [List.cons_append]
    unfold dropBytes?
    split
    · rename_i hle
      exact dropBytes?_append_of_le (by rw [byteLength_cons] at h; omega)
    · rfl

theorem Utf8.dropBytes?_add : ∀ (text more : List Char) (n : Nat),
    dropBytes? (text ++ more) (byteLength text + n) = dropBytes? more n
  | [], more, n => by simp
  | ch :: text, more, n => by
    have hpos := ch.utf8Size_pos
    obtain ⟨k, hk⟩ : ∃ k, byteLength (ch :: text) + n = k + 1 :=
      ⟨byteLength (ch :: text) + n - 1, by rw [byteLength_cons]; omega⟩
    rw [hk, List.cons_append, dropBytes?, ← hk, byteLength_cons, if_pos (by omega),
      show ch.utf8Size + byteLength text + n - ch.utf8Size = byteLength text + n by omega,
      dropBytes?_add text more n]

/-- A slice of a text is one of a longer text. -/
theorem Utf8.slice?_amid (front text back : List Char) {start stop : Nat}
    (h : stop ≤ byteLength text) : slice? (front ++ text ++ back)
      (byteLength front + start) (byteLength front + stop) = slice? text start stop := by
  unfold slice?
  rw [List.append_assoc, dropBytes?_add]
  by_cases hlt : stop < start
  · rw [if_pos hlt, if_pos (by omega)]
  · rw [if_neg hlt, if_neg (by omega), dropBytes?_append_of_le (by omega)]
    cases hrest : dropBytes? text start with
    | none => rfl
    | some rest =>
      obtain ⟨passed, rfl, hpassed⟩ := dropBytes?_eq_some hrest
      have hfits : stop - start ≤ byteLength rest := by
        rw [byteLength_append] at h
        omega
      rw [show byteLength front + stop - (byteLength front + start) = stop - start by omega]
      show (dropBytes? (rest ++ back) (stop - start) >>= fun _ =>
          some (takeBytes (rest ++ back) (stop - start))) =
        dropBytes? rest (stop - start) >>= fun _ => some (takeBytes rest (stop - start))
      rw [dropBytes?_append_of_le hfits, takeBytes_append_of_le hfits]
      cases dropBytes? rest (stop - start) <;> rfl

theorem Lines.ends_add : ∀ (text : List Char) (offset more : Nat),
    ends (offset + more) text = (ends offset text).map (· + more)
  | [], _, _ => rfl
  | ch :: text, offset, more => by
    have hstep : offset + more + ch.utf8Size = offset + ch.utf8Size + more := by omega
    unfold ends
    rw [hstep, ends_add text (offset + ch.utf8Size) more]
    split <;> rfl

/-- What is passed in the piece is passed in the whole. -/
theorem Cursor.Passes.within {p : Placement} {c d : Cursor} {text : List Char} {notes : List Comment}
    (h : c.Passes text notes d) (hapart : (Surroundings.within p).Apart c) :
    (c.within p).Passes text
      (notes.map fun comment => { comment with span := comment.span.moved p.offset p.lines })
      (d.within p) where
  rest := by rw [Cursor.amid_rest, Cursor.amid_rest, h.rest, List.append_assoc]
  index := by rw [Cursor.amid_index, Cursor.amid_index, h.index, Nat.add_right_comm]
  line := by
    show d.line + p.lines = c.line + p.lines + (Lines.ends (c.index + p.offset) text).length
    rw [h.line, Lines.ends_add, List.length_map, Nat.add_right_comm]
  lines := by
    show d.passedLines.map _ ++ p.passedLines = (Lines.ends (c.index + p.offset) text).reverse ++ _
    rw [h.lines, Lines.ends_add, List.map_append, List.map_reverse, List.append_assoc]
    rfl
  noted := by
    show d.passedComments.map _ ++ p.passedComments = _ ++ (c.passedComments.map _ ++ p.passedComments)
    rw [h.noted, List.map_append, List.map_reverse, List.append_assoc]
  whole := by
    rintro ⟨hlast, hhead⟩
    rw [Cursor.amid_rest] at hhead
    cases hrest : d.rest with
    | nil =>
      rw [hrest] at hhead
      have hfinal : c.rest.getLast? = some '\r' := by rw [h.rest, hrest, List.append_nil, hlast]
      exact (hapart '\r' hfinal '\n' hhead).2 rfl rfl
    | cons ch rest =>
      rw [hrest] at hhead
      exact h.whole ⟨hlast, by rw [hrest]; exact hhead⟩

namespace Scanner

/-- A scanner that has passed the given beginning of its text and handed on what it noted there. -/
structure Passed (read : List Char) (s : Scanner) : Prop where
  content : s.script.content = read ++ s.cursor.rest
  behind : s.cursor.Behind read
  linesTaken : s.cursor.passedLines = []
  commentsTaken : s.cursor.passedComments = []
  lineStarts : s.script.lineStarts.toList = Lines.starts read

variable {read text : List Char} {notes : List Comment} {s : Scanner} {c : Cursor}

theorem Passed.ofSource (path source : String) :
    (Scanner.ofScript (Script.ofSource path source)).Passed [] :=
  ⟨rfl, .ofContent _, rfl, rfl, rfl⟩

theorem Passed.moveTo (h : s.Passed read) (hp : s.cursor.Passes text notes c) :
    (s.moveTo c).Passed (read ++ text) where
  content := by
    show s.script.content = read ++ text ++ c.rest
    rw [h.content, hp.rest, List.append_assoc]
  behind := by
    have hbehind := h.behind.passes hp
    exact ⟨hbehind.index, hbehind.line, hbehind.whole⟩
  linesTaken := rfl
  commentsTaken := rfl
  lineStarts := by
    have hends := h.behind.ends_passes hp
    simp [Scanner.moveTo, hp.lines, h.linesTaken, h.lineStarts, Lines.starts, hends]

theorem Passed.withToken (h : s.Passed read) (token : Token) :
    ({ s with token } : Scanner).Passed read :=
  ⟨h.content, h.behind, h.linesTaken, h.commentsTaken, h.lineStarts⟩

theorem Passed.withScript (h : s.Passed read) {script : Script}
    (hcontent : script.content = s.script.content)
    (hlines : script.lineStarts = s.script.lineStarts) : ({ s with script } : Scanner).Passed read :=
  ⟨hcontent.trans h.content, h.behind, h.linesTaken, h.commentsTaken, hlines ▸ h.lineStarts⟩

/-- The beginning of a line, as far as it is known. -/
theorem Passed.lineStart_succ (h : s.Passed read) (n : Nat) : s.script.lineStart (n + 1) =
    ((Lines.starts read)[n]?).getD ((Lines.starts read).getLast?.getD 0) := by
  simp only [Script.lineStart, ← Array.getElem?_toList, ← Array.getLast?_toList, h.lineStarts]

end Scanner

/-- What stands between tokens and then a token are passed. -/
theorem Scan.lexeme_passes {before : List Char} {c start stop : Cursor} {l : Lexeme}
    (hc : c.Behind before) (ht : trivia c = .ok start) (hl : lexeme start = .ok (l, stop)) :
    ∃ text notes, c.Passes text notes stop := by
  have hcrosses := triviaEnd_crosses (c.rest.length + 1) hc
  unfold trivia at ht
  rw [ht] at hcrosses
  obtain ⟨gap, notes, -, hp⟩ := hcrosses
  have hcovers := lexeme_covers start
  rw [hl] at hcovers
  obtain ⟨text, hq⟩ := hcovers
  exact ⟨gap ++ text, notes ++ [], hp.trans hq⟩

namespace Scanner

open Scan

variable {s : Scanner}

theorem next_of_lexeme {start stop : Cursor} {l : Lexeme}
    (ht : trivia s.cursor = .ok start) (hl : lexeme start = .ok (l, stop)) :
    s.next = (.ok (), { s.moveTo stop with token := { l with span := start.spanTo stop } }) := by
  unfold Scanner.next
  rw [ht]
  dsimp only
  rw [hl]

/-- Only at the end of the text is the lexeme read that ends it. -/
theorem lexeme_end {start stop : Cursor} {l : Lexeme} (hl : lexeme start = .ok (l, stop))
    (hkind : l.kind = .endOfProgram) :
    start.rest = [] ∧ l = { kind := .endOfProgram } ∧ stop = start := by
  have hnil := (lexeme_weight hl).1.resolve_right fun hne => hne hkind
  unfold lexeme at hl
  rw [hnil] at hl
  cases hl
  exact ⟨hnil, rfl, rfl⟩

theorem lexeme_nil {start : Cursor} (h : start.rest = []) :
    lexeme start = .ok ({ kind := .endOfProgram }, start) := by
  unfold lexeme
  rw [h]

/-- The script takes notes all at once or bit by bit. -/
theorem moveTo_moveTo (s : Scanner) (c d : Cursor) : (s.moveTo c).moveTo d = s.moveTo { d with
    passedLines := d.passedLines ++ c.passedLines
    passedComments := d.passedComments ++ c.passedComments } := by
  have happend : ∀ {α : Type} (a : Array α) (b c : List α), a ++ b ++ c = a ++ (b ++ c) := by
    intro α a b c
    apply Array.ext'
    simp
  simp [Scanner.moveTo, happend]

/-- What has been passed in front of a token may be handed on before the token is read. -/
theorem next_moveTo {v : Scanner} {c : Cursor} (htrivia : trivia s.cursor = trivia c)
    (h : (s.moveTo c).next = (.ok (), v)) : s.next = (.ok (), v) := by
  obtain ⟨p, hp⟩ : ∃ p : Placement, p = ⟨0, 0, [], c.passedLines, c.passedComments⟩ := ⟨_, rfl⟩
  have htail : p.tail = [] := by rw [hp]
  have hwithin : ∀ d : Cursor, d.within p = { d with
      passedLines := d.passedLines ++ c.passedLines
      passedComments := d.passedComments ++ c.passedComments } := by
    intro d
    rw [Cursor.within_eq, hp]
    simp [Span.moved]
  have hc : ({ c with passedLines := [], passedComments := [] } : Cursor).within p = c := hwithin _
  have hparted : (Surroundings.within p).Parted := Or.inl htail
  have hapart : ∀ d, (Surroundings.within p).Apart d := by
    intro d last _ ch hch
    have hch : ch ∈ p.tail.head? := hch
    rw [htail] at hch
    cases hch
  obtain ⟨start, l, stop, hstart, hlexeme, hnext⟩ | ⟨failure, token, -, hnext⟩ := (s.moveTo c).next_cases
  case inr =>
    rw [hnext] at h
    cases h
  rw [hnext] at h
  cases h
  have hreached : trivia s.cursor = .ok (start.within p) := by
    have hpassed := (trivia_within hparted (hapart _) hstart).resolve_right ?_
    · rw [htrivia, ← hc]
      refine hpassed.trans (trivia_within_over hparted (hapart _) hstart fun _ => ?_)
      rw [htail]
      exact Stopped.opens (Or.inl rfl)
    · rintro ⟨⟨ch, hch, -⟩, -⟩
      rw [htail] at hch
      cases hch
  have hread : lexeme (start.within p) = .ok (l, stop.within p) := by
    by_cases hkind : l.kind = .endOfProgram
    · obtain ⟨hnil, rfl, rfl⟩ := lexeme_end hlexeme hkind
      exact lexeme_nil (by rw [Cursor.amid_rest, hnil]; exact htail)
    · refine lexeme_within hparted (hapart _) (.of_head ?_ _) hkind hlexeme
      intro ch hch
      have hch : ch ∈ p.tail.head? := hch
      rw [htail] at hch
      cases hch
  have hspan : (start.within p).spanTo (stop.within p) = start.spanTo stop := by
    rw [Cursor.spanTo_within, hp]
    rfl
  rw [next_of_lexeme hreached hread, hspan, hwithin, ← moveTo_moveTo]

/-- Where a token has been read, the script is the one that it was, but for its lines and comments. -/
theorem next_keeps {s t : Scanner} (h : s.next = (.ok (), t)) :
    t.script.path = s.script.path ∧ t.script.content = s.script.content ∧
      t.script.valid = s.script.valid := by
  obtain ⟨start, l, stop, -, -, hnext⟩ | ⟨failure, token, -, hnext⟩ := s.next_cases
  · rw [hnext] at h
    cases h
    exact ⟨rfl, rfl, rfl⟩
  · rw [hnext] at h
    cases h

theorem readRegular_keeps {s : Scanner} (hok : s.readRegularExpression.1 = .ok ()) :
    s.readRegularExpression.2.script.path = s.script.path ∧
      s.readRegularExpression.2.script.valid = s.script.valid := by
  obtain ⟨_, _, _, _, _, he⟩ | ⟨_, he⟩ := s.readRegularExpression_cases
  · rw [he]
    exact ⟨rfl, rfl⟩
  · rw [he] at hok
    cases hok

end Scanner

/-- A step of the scanner that both take. -/
theorem scan_goes {s t : ParserState} {near : ParserState → ParserState → Prop} {gone : ParserState → Prop}
    {step : Scanner → Except Problem Unit × Scanner}
    (h : (step s.scanner).1 = .ok () →
      ((step t.scanner).1 = .ok () ∧
        near { s with scanner := (step s.scanner).2 } { t with scanner := (step t.scanner).2 }) ∨
      gone { s with scanner := (step s.scanner).2 }) :
    Goes near gone Eq (Parse.scan step s) (Parse.scan step t) := by
  unfold Parse.scan
  generalize step s.scanner = p at h
  generalize step t.scanner = q at h
  obtain ⟨_ | _, u⟩ := p
  · exact .stopped
  · rcases h rfl with ⟨hok, hnear⟩ | hgone
    · obtain ⟨_ | _, v⟩ := q
      · cases hok
      · exact .ok rfl hnear
    · exact .lost hgone

/-- A piece of a text, and what stands in front of it and behind it. Where it is read by itself, the lead
stands in front of it instead, on the same line. -/
structure Passage where
  before : List Char
  piece : List Char
  after : List Char
  lead : List Char := []
  lead_plain : ∀ ch ∈ lead, CharClass.isLineTerminator ch = false := by simp
  lead_le : byteLength lead ≤ byteLength before := by simp

namespace Passage

/-- A piece that is read by itself with nothing in front of it. -/
abbrev bare (before piece after : List Char) : Passage := { before, piece, after }

variable (x : Passage)

/-- The whole text. -/
def whole : List Char := x.before ++ x.piece ++ x.after

/-- The text of the piece by itself. -/
def own : List Char := x.lead ++ x.piece

/-- How much later the piece begins in the whole. -/
def offset : Nat := byteLength x.before - byteLength x.lead

/-- How many lines end in front of the piece. -/
def lines : Nat := (Lines.ends 0 x.before).length

def placement : Placement where
  offset := x.offset
  lines := x.lines
  tail := x.after

/-- No lexeme of the piece goes on with what follows it, but perhaps for one that a closing sign or a dot goes
on with. -/
structure Edged : Prop where
  parted : (Surroundings.within x.placement).Parted
  apart : Scan.Apart x.piece x.after

/-- No lexeme of the piece goes on with what follows it. -/
structure Parted : Prop extends Edged x where
  head : ∀ ch ∈ x.after.head?, ch ≠ '>' ∧ ch ≠ '.'

/-- Both scanners stand at the same place of the piece. -/
structure Aligned (s t : Scanner) : Prop where
  passed : ∃ read, s.Passed (x.lead ++ read) ∧ t.Passed (x.before ++ read)
  content : s.script.content = x.own
  cursor : t.cursor = s.cursor.within x.placement

/-- Both scanners stand at the same token of the piece. At the end they do only if both texts end. -/
structure Inside (s t : Scanner) : Prop extends Aligned x s t where
  token : t.token = { s.token with span := s.token.span.moved x.offset x.lines }
  begins : byteLength x.lead ≤ s.token.span.start
  line_pos : 1 ≤ s.token.span.firstLine
  proper : s.token.kind = .endOfProgram → s.cursor.rest = [] ∧ x.after = []

/-- A comment runs to the end of the piece, and on into what follows it. -/
structure Gone (s : ParserState) : Prop where
  after : ∃ ch ∈ x.after.head?, CharClass.isLineTerminator ch = false
  ended : s.Ended
  comment : ∃ comment ∈ s.script.comments, comment.multiLine = false ∧
    comment.span.stop = byteLength x.own

variable {x} {s t : Scanner} {read text : List Char} {notes : List Comment} {c : Cursor}

theorem Gone.rests {s t : ParserState} (h : x.Gone s) (hst : s.Rests t) : x.Gone t :=
  ⟨h.after, hst.ended, by rw [hst.comments]; exact h.comment⟩

theorem Parted.clear (hx : x.Parted) (c : Cursor) : (Surroundings.within x.placement).Clear c :=
  .of_head hx.head c

namespace Aligned

/-- At the beginning of the piece. -/
theorem start (hs : s.Passed x.lead) (hown : s.script.content = x.own) (ht : t.Passed x.before)
    (hrest : t.cursor.rest = x.piece ++ x.after) : x.Aligned s t := by
  refine ⟨⟨[], by rwa [List.append_nil], by rwa [List.append_nil]⟩, hown, ?_⟩
  have hpiece : s.cursor.rest = x.piece :=
    List.append_cancel_left (hs.content.symm.trans hown)
  have hindex : t.cursor.index = s.cursor.index + x.offset := by
    rw [hs.behind.index, ht.behind.index]
    exact (Nat.add_sub_cancel' x.lead_le).symm
  have hline : t.cursor.line = s.cursor.line + x.lines := by
    rw [hs.behind.line, ht.behind.line, Lines.ends_of_forall_not x.lead_plain]
    exact Nat.add_comm _ _
  have hcursor : t.cursor = ⟨t.cursor.rest, t.cursor.index, t.cursor.line, t.cursor.passedLines,
    t.cursor.passedComments⟩ := rfl
  rw [Cursor.within_eq, hcursor, hrest, hindex, hline, ht.linesTaken, ht.commentsTaken, hpiece,
    hs.linesTaken, hs.commentsTaken]
  rfl

theorem whole (h : x.Aligned s t) : t.script.content = x.whole := by
  obtain ⟨read, hs, ht⟩ := h.passed
  have hpiece : x.piece = read ++ s.cursor.rest := by
    have hown := h.content.symm.trans hs.content
    rw [own, List.append_assoc] at hown
    exact List.append_cancel_left hown
  rw [ht.content, h.cursor, Cursor.amid_rest, Passage.whole, hpiece]
  simp only [List.append_assoc]
  rfl

theorem withTokens (h : x.Aligned s t) (token token' : Token) :
    x.Aligned { s with token } { t with token := token' } := by
  obtain ⟨read, hs, ht⟩ := h.passed
  exact ⟨⟨read, hs.withToken token, ht.withToken token'⟩, h.content, h.cursor⟩

/-- What the scripts hold apart from text and lines is of no account. -/
theorem withScripts (h : x.Aligned s t) {script script' : Script}
    (hcontent : script.content = s.script.content) (hlines : script.lineStarts = s.script.lineStarts)
    (hcontent' : script'.content = t.script.content)
    (hlines' : script'.lineStarts = t.script.lineStarts) :
    x.Aligned { s with script } { t with script := script' } := by
  obtain ⟨read, hs, ht⟩ := h.passed
  exact ⟨⟨read, hs.withScript hcontent hlines, ht.withScript hcontent' hlines'⟩,
    hcontent.trans h.content, h.cursor⟩

/-- The scanners move on to the same place. -/
theorem moveTo (h : x.Aligned s t) (hp : s.cursor.Passes text notes c)
    (hp' : ∃ text notes, t.cursor.Passes text notes (c.within x.placement)) :
    x.Aligned (s.moveTo c) (t.moveTo (c.within x.placement)) := by
  obtain ⟨read, hs, ht⟩ := h.passed
  obtain ⟨text', notes', hp'⟩ := hp'
  have htext : text' = text := by
    have hrest := hp'.rest
    rw [h.cursor, Cursor.amid_rest, Cursor.amid_rest, hp.rest, List.append_assoc] at hrest
    exact (List.append_cancel_right hrest).symm
  refine ⟨⟨read ++ text, ?_, ?_⟩, h.content, ?_⟩
  · rw [← List.append_assoc]
    exact hs.moveTo hp
  · rw [← htext, ← List.append_assoc]
    exact ht.moveTo hp'
  · simp [Scanner.moveTo, Cursor.within_eq, placement]

section Next

open Scan

theorem apart (h : x.Aligned s t) (hx : x.Edged) : (Surroundings.within x.placement).Apart s.cursor := by
  obtain ⟨read, hs, -⟩ := h.passed
  have hwhole : (Surroundings.within x.placement).Apart (Cursor.ofContent x.piece) := hx.apart
  refine hwhole.leads ⟨read, ?_⟩
  have hown := hs.content.symm.trans h.content
  rw [own, List.append_assoc] at hown
  exact List.append_cancel_left hown

/-- A token behind the lead begins behind it, on some line. -/
theorem token_placed (h : x.Aligned s t) {start stop : Cursor} (htrivia : trivia s.cursor = .ok start) :
    byteLength x.lead ≤ (start.spanTo stop).start ∧ 1 ≤ (start.spanTo stop).firstLine := by
  obtain ⟨read, hs, -⟩ := h.passed
  have hcrosses := triviaEnd_crosses (s.cursor.rest.length + 1) hs.behind
  unfold trivia at htrivia
  rw [htrivia] at hcrosses
  obtain ⟨gap, notes, -, hgap⟩ := hcrosses
  constructor
  · show byteLength x.lead ≤ start.index
    rw [hgap.index, hs.behind.index, byteLength_append]
    omega
  · show 1 ≤ start.line
    rw [hgap.line, hs.behind.line]
    omega

/-- What stands between tokens is passed in the whole as in the piece, if there is a token behind it. -/
theorem trivia_whole (h : x.Aligned s t) (hx : x.Edged) {start : Cursor}
    (htrivia : trivia s.cursor = .ok start) (hproper : start.rest ≠ []) : trivia t.cursor = .ok (start.within x.placement) := by
  have hapart := h.apart hx
  have hpassed := (trivia_within hx.parted hapart htrivia).resolve_right fun hruns => hproper hruns.2.1
  rw [← h.cursor] at hpassed
  exact hpassed.trans (trivia_within_over hx.parted (hapart.leads (trivia_leads htrivia)) htrivia
    fun hnil => absurd hnil hproper)

/-- A token that is read in the piece is read in the whole. -/
theorem next_token (h : x.Aligned s t) (hx : x.Edged)
    (hclear : ∀ start, trivia s.cursor = .ok start → (Surroundings.within x.placement).Clear start)
    (hok : s.next.1 = .ok ()) (hkind : s.next.2.token.kind ≠ .endOfProgram) :
    t.next.1 = .ok () ∧ x.Inside s.next.2 t.next.2 := by
  obtain ⟨read, hs, ht⟩ := h.passed
  obtain ⟨start, l, stop, htrivia, hlexeme, hnext⟩ | ⟨failure, token, -, hnext⟩ := s.next_cases
  case inr =>
    rw [hnext] at hok
    cases hok
  rw [hnext] at hkind ⊢
  have hproper : start.rest ≠ [] := fun hnil => by
    rw [Scanner.lexeme_nil hnil] at hlexeme
    cases hlexeme
    exact hkind rfl
  have hwhole := h.trivia_whole hx htrivia hproper
  have hread := lexeme_within hx.parted ((h.apart hx).leads (trivia_leads htrivia)) (hclear start htrivia)
    hkind hlexeme
  obtain ⟨text, notes, hp⟩ := lexeme_passes hs.behind htrivia hlexeme
  rw [Scanner.next_of_lexeme hwhole hread]
  have haligned := h.moveTo hp (lexeme_passes ht.behind hwhole hread)
  obtain ⟨hbegins, hline⟩ := h.token_placed htrivia
  exact ⟨rfl, haligned.withTokens _ _, rfl, hbegins, hline, fun hkind' => absurd hkind' hkind⟩

/-- At the end of the piece, the scanner of the whole reads on behind it, unless a comment runs on. -/
theorem next_end (h : x.Aligned s t) (hx : x.Edged) (hok : s.next.1 = .ok ())
    (hkind : s.next.2.token.kind = .endOfProgram) :
    (s.next.2.Passed x.own ∧ s.next.2.cursor.rest = [] ∧
      s.next.2.token.toLexeme = { kind := .endOfProgram }) ∧
    ((∃ u : Scanner, u.Passed (x.before ++ x.piece) ∧ u.cursor = s.next.2.cursor.within x.placement ∧
        u.script.path = t.script.path ∧ u.script.valid = t.script.valid ∧
        s.next.2.token.span = s.next.2.cursor.spanTo s.next.2.cursor ∧
        ∀ v, u.next = (.ok (), v) → t.next = (.ok (), v)) ∨
      ∀ u : ParserState, u.scanner = s.next.2 → x.Gone u) := by
  obtain ⟨read, hs, ht⟩ := h.passed
  obtain ⟨start, l, stop, htrivia, hlexeme, hnext⟩ | ⟨failure, token, -, hnext⟩ := s.next_cases
  case inr =>
    rw [hnext] at hok
    cases hok
  rw [hnext] at hkind ⊢
  obtain ⟨hnil, rfl, rfl⟩ := Scanner.lexeme_end hlexeme hkind
  obtain ⟨text, notes, hp⟩ := lexeme_passes hs.behind htrivia hlexeme
  have hown : x.lead ++ read ++ text = x.own := by
    rw [← h.content, hs.content, hp.rest, hnil, List.append_nil]
  have hpiece : read ++ text = x.piece := by
    rw [own, List.append_assoc] at hown
    exact List.append_cancel_left hown
  have hmoved := hs.moveTo hp
  rw [hown] at hmoved
  refine ⟨⟨hmoved.withToken _, hnil, rfl⟩, ?_⟩
  rcases trivia_within hx.parted (h.apart hx) htrivia with hpassed | ⟨hafter, -, comment, hmem, hline, hstop⟩
  · rw [← h.cursor] at hpassed
    have hwhole := hp.within (h.apart hx)
    rw [← h.cursor] at hwhole
    have hbeyond := ht.moveTo hwhole
    rw [List.append_assoc, hpiece] at hbeyond
    refine Or.inl ⟨t.moveTo (stop.within x.placement), hbeyond, ?_, rfl, rfl, rfl, ?_⟩
    · simp [Scanner.moveTo, Cursor.within_eq, placement]
    · intro v hv
      exact Scanner.next_moveTo hpassed hv
  · refine Or.inr fun u hu => ⟨hafter, ⟨?_, ?_, ?_⟩, comment, ?_, hline, ?_⟩
    · simp [ParserState.token, hu]
    · rw [hu]
      exact hnil
    · rw [hu]
      rfl
    · simp only [ParserState.script, hu, Scanner.moveTo, ← Array.mem_toList_iff,
        Array.toList_appendList, List.mem_append, List.mem_reverse]
      exact Or.inr hmem
    · rw [hstop]
      exact hmoved.behind.index

end Next

end Aligned

/-- What the scripts hold apart from text and lines is of no account. -/
theorem Inside.withScripts (h : x.Inside s t) {script script' : Script}
    (hcontent : script.content = s.script.content) (hlines : script.lineStarts = s.script.lineStarts)
    (hcontent' : script'.content = t.script.content)
    (hlines' : script'.lineStarts = t.script.lineStarts) :
    x.Inside { s with script } { t with script := script' } :=
  ⟨h.toAligned.withScripts hcontent hlines hcontent' hlines', h.token, h.begins, h.line_pos, h.proper⟩

/-- A token is split in both. -/
theorem Inside.split {s t : ParserState} (h : x.Inside s.scanner t.scanner) {kind : TokenKind}
    {operator : Option Operator} (hafter : Parse.afterGreater? s.token = some (kind, operator)) :
    x.Inside (s.split kind operator).scanner (t.split kind operator).scanner := by
  have hkind : kind ≠ .endOfProgram := by
    unfold Parse.afterGreater? at hafter
    split at hafter <;> cases hafter <;> decide
  have htoken : t.token = { s.token with span := s.token.span.moved x.offset x.lines } := h.token
  have hspan : ∀ span : Span, { span.moved x.offset x.lines with start := span.start + x.offset + 1 } =
      ({ span with start := span.start + 1 } : Span).moved x.offset x.lines := by
    intro span
    simp only [Span.moved, Nat.add_right_comm]
  refine ⟨h.toAligned.withTokens _ _, ?_, Nat.le_succ_of_le h.begins, h.line_pos,
    fun hend => absurd hend hkind⟩
  unfold ParserState.split
  dsimp only
  rw [htoken]
  exact congrArg (fun span => ({ s.token with kind, operator, span } : Token)) (hspan s.token.span)

section Regular

open Scan

theorem regular_of_flags {s : Scanner} {body stop : Cursor} {flags : List Char}
    (hbody : regularBody (s.cursor.rest.length + 1) s.cursor = .ok body)
    (hflags : regularFlags body = .ok (flags, stop)) :
    s.readRegularExpression = (.ok (), { s.moveTo stop with
      token := { s.token with
        kind := .regularExpression
        text := s.regularBodyText body
        flags := String.ofList flags
        operator := none
        span := { s.token.span with lastLine := stop.line, stop := stop.index } } }) := by
  unfold Scanner.readRegularExpression
  rw [hbody]
  dsimp only
  rw [hflags]

theorem regular_passes {c body stop : Cursor} {flags : List Char} {fuel : Nat}
    (hbody : regularBody fuel c = .ok body) (hflags : regularFlags body = .ok (flags, stop)) :
    ∃ text, c.Passes text [] stop := by
  obtain ⟨text, hp⟩ := regularBody_passes hbody
  have hcovers := regularFlags_covers body
  rw [hflags] at hcovers
  obtain ⟨more, hq⟩ := hcovers
  exact ⟨_, hp.trans hq⟩

/-- A regular expression of the piece has the same body in the whole. -/
theorem Inside.regularBodyText (h : x.Inside s t) {body : Cursor} {fuel : Nat}
    (hbody : regularBody fuel s.cursor = .ok body) :
    t.regularBodyText (body.within x.placement) = s.regularBodyText body := by
  obtain ⟨read, hs, -⟩ := h.passed
  obtain ⟨text, hp⟩ := regularBody_passes hbody
  have hindex : body.index = byteLength (x.lead ++ read ++ (text ++ ['/'])) :=
    (hs.behind.passes hp).index
  have hown : x.lead ++ x.piece = x.lead ++ read ++ (text ++ ['/']) ++ body.rest := by
    rw [List.append_assoc (x.lead ++ read), ← hp.rest, ← hs.content]
    exact h.content.symm
  have hlast : byteLength (text ++ ['/']) = byteLength text + 1 := byteLength_append _ _
  -- Counted from behind the lead, the body is the same slice of the piece.
  obtain ⟨start, hstart⟩ : ∃ start, s.token.span.start + 1 = byteLength x.lead + start :=
    ⟨s.token.span.start + 1 - byteLength x.lead, by have := h.begins; omega⟩
  obtain ⟨stop, hstop⟩ : ∃ stop, body.index - 1 = byteLength x.lead + stop := by
    refine ⟨byteLength read + byteLength text, ?_⟩
    rw [hindex, byteLength_append, byteLength_append, hlast]
    omega
  have hfits : stop ≤ byteLength x.piece := by
    have hbytes := congrArg byteLength hown
    rw [byteLength_append, byteLength_append _ body.rest, ← hindex] at hbytes
    omega
  have hpos : 1 ≤ body.index := by
    rw [hindex, byteLength_append, hlast]
    omega
  have hlead := x.lead_le
  unfold Scanner.regularBodyText
  rw [h.whole, h.content, h.token, Cursor.amid_index, Passage.whole, own, hstart, hstop,
    show (s.token.span.moved x.offset x.lines).start + 1 = byteLength x.before + start by
      show s.token.span.start + (byteLength x.before - byteLength x.lead) + 1 = _
      omega,
    show body.index + (Surroundings.within x.placement).offset - 1 = byteLength x.before + stop by
      show body.index + (byteLength x.before - byteLength x.lead) - 1 = _
      omega,
    slice?_amid _ _ _ hfits]
  have halone : slice? (x.lead ++ x.piece ++ []) (byteLength x.lead + start) (byteLength x.lead + stop) = _ :=
    slice?_amid x.lead x.piece [] hfits
  rw [List.append_nil] at halone
  rw [halone]

/-- A regular expression of the piece is read in the whole. -/
theorem Inside.readRegular (h : x.Inside s t) (hx : x.Edged) (hok : s.readRegularExpression.1 = .ok ()) :
    t.readRegularExpression.1 = .ok () ∧
      x.Inside s.readRegularExpression.2 t.readRegularExpression.2 := by
  obtain ⟨body, flags, stop, hbody, hflags, -⟩ | ⟨failure, hfails⟩ := s.readRegularExpression_cases
  case inr =>
    rw [hfails] at hok
    cases hok
  have hrounds : t.cursor.rest.length + 1 = s.cursor.rest.length + 1 + x.after.length := by
    rw [h.cursor, Cursor.amid_rest, List.length_append]
    show s.cursor.rest.length + x.after.length + 1 = _
    omega
  have hbody' : regularBody (t.cursor.rest.length + 1) t.cursor =
      .ok (body.within x.placement) := by
    rw [hrounds, h.cursor]
    exact regularBody_within hx.parted (h.apart hx) hbody
  have hflags' : regularFlags (body.within x.placement) =
      .ok (flags, stop.within x.placement) :=
    regularFlags_within hx.parted hflags
  obtain ⟨text, hp⟩ := regular_passes hbody hflags
  obtain ⟨text', hp'⟩ := regular_passes hbody' hflags'
  have haligned := h.toAligned.moveTo hp ⟨text', [], hp'⟩
  have htext := h.regularBodyText hbody
  rw [regular_of_flags hbody hflags, regular_of_flags hbody' hflags']
  refine ⟨rfl, haligned.withTokens _ _, ?_, h.begins, h.line_pos, fun hkind => by cases hkind⟩
  dsimp only
  rw [htext, h.token]
  rfl

end Regular

end Passage

end ActionSyntax
