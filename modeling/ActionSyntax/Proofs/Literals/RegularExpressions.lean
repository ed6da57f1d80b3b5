import ActionSyntax.Proofs.Literals.Names
import ActionSyntax.Proofs.Places.Slices

/-!
Regular expressions. A slash is read on from just when a body, another slash and flags stand behind it. In
the body characters behind a backslash are set apart, so that a slash among them ends nothing; the text
is found once the end is known, by a second pass that makes a line feed of every line terminator. It does
not matter whether an equals sign has been taken for a part of the first slash.
-/

namespace ActionSyntax

set_option autoImplicit false

open Scan Cursor NamePart

namespace Scan

variable {c d : Cursor} {ch : Char} {body rest text : List Char}

/-- A text in which every slash is the second character of a pair that a backslash begins. Pairs are
found from the left, and a carriage return in a pair takes its line feed with it. -/
inductive Paired : List Char → Prop
  | nil : Paired []
  | plain {ch : Char} {body : List Char} (escape : ch ≠ '\\') (slash : ch ≠ '/')
    (h : Paired body) : Paired (ch :: body)
  | pair {ch : Char} {body : List Char} (whole : ¬ Lines.Splits [ch] body) (h : Paired body) :
    Paired ('\\' :: ch :: body)
  | lineBreak {body : List Char} (h : Paired body) : Paired ('\\' :: '\r' :: '\n' :: body)

/-- A text and the same text with a line feed for every line terminator. -/
inductive Unified : List Char → List Char → Prop
  | nil : Unified [] []
  | lineBreak {terminator body text : List Char} (mem : terminator ∈ terminators)
    (whole : ¬ Lines.Splits terminator body) (h : Unified body text) :
    Unified (terminator ++ body) ('\n' :: text)
  | plain {ch : Char} {body text : List Char} (plain : CharClass.isLineTerminator ch = false)
    (h : Unified body text) : Unified (ch :: body) (ch :: text)

theorem unifiedLines_unified (body : List Char) : Unified body (unifiedLines body) := by
  induction body using unifiedLines.induct with
  | case1 => exact .nil
  | case2 rest ih =>
    have hpair : ['\r', '\n'] ∈ terminators := by decide
    exact .lineBreak hpair (Lines.not_splits_of_last (by decide) ['\r'] rest) ih
  | case3 ch rest hpair ih =>
    rw [unifiedLines]
    · split
      · rename_i hends
        refine .lineBreak (terminator_singleton hends) ?_ ih
        rintro ⟨hlast, hhead⟩
        obtain ⟨more, rfl⟩ := List.head?_eq_some_iff.mp hhead
        exact hpair more (Option.some.inj hlast) rfl
      · rename_i hplain
        exact .plain (by simpa using hplain) ih
    · exact hpair

theorem passAny_pair (hrest : c.rest = '\r' :: '\n' :: rest) :
    ∃ d, passAny c = .ok d ∧ c.Passes ['\r', '\n'] [] d := by
  have hpair : ['\r', '\n'] ∈ terminators := by decide
  obtain ⟨d, hnewline, hpasses⟩ := newline?_of_rest hpair hrest
    (Lines.not_splits_of_last (by decide) ['\r'] rest)
  exact ⟨d, by rw [passAny, hnewline], hpasses⟩

/-- Any other character is passed alone. -/
theorem passAny_single (hrest : c.rest = ch :: rest) (hwhole : ¬ Lines.Splits [ch] rest) :
    ∃ d, passAny c = .ok d ∧ c.Passes [ch] [] d := by
  cases hends : CharClass.isLineTerminator ch with
  | true =>
    obtain ⟨d, hnewline, hpasses⟩ := newline?_of_rest (terminator_singleton hends) hrest hwhole
    exact ⟨d, by rw [passAny, hnewline], hpasses⟩
  | false =>
    have hnone := (newline?_eq_none hrest).mpr hends
    exact ⟨_, by simp [passAny, hnone, atEnd, hrest], passes_advance hrest hends⟩

theorem passAny_ok (h : passAny c = .ok d) :
    (∃ rest, c.rest = '\r' :: '\n' :: rest ∧ c.Passes ['\r', '\n'] [] d) ∨
      ∃ ch rest, c.rest = ch :: rest ∧ c.Passes [ch] [] d := by
  cases hrest : c.rest with
  | nil => simp [passAny, newline?, hrest, atEnd] at h
  | cons ch rest =>
    by_cases hsplits : Lines.Splits [ch] rest
    · obtain ⟨hlast, hhead⟩ := hsplits
      obtain ⟨more, rfl⟩ := List.head?_eq_some_iff.mp hhead
      obtain rfl : ch = '\r' := Option.some.inj hlast
      obtain ⟨e, hpass, hpasses⟩ := passAny_pair hrest
      cases h.symm.trans hpass
      exact Or.inl ⟨more, rfl, hpasses⟩
    · obtain ⟨e, hpass, hpasses⟩ := passAny_single hrest hsplits
      cases h.symm.trans hpass
      exact Or.inr ⟨ch, rest, rfl, hpasses⟩

/-- Behind a body the next slash is found. -/
theorem regularBody_of_paired {fuel : Nat} (hbody : Paired body) (hrest : c.rest = body ++ '/' :: rest)
    (hfuel : c.rest.length < fuel) :
    ∃ d, regularBody fuel c = .ok d ∧ c.Passes (body ++ ['/']) [] d := by
  induction fuel generalizing body c with
  | zero => omega
  | succ fuel ih =>
    have step : ∀ {unit body : List Char} {e : Cursor}, Paired body → unit ≠ [] →
        c.rest = unit ++ (body ++ '/' :: rest) → c.Passes unit [] e →
        regularBody (fuel + 1) c = regularBody fuel e →
        ∃ d, regularBody (fuel + 1) c = .ok d ∧ c.Passes (unit ++ body ++ ['/']) [] d := by
      intro unit body e hbody hne hrest hpasses heq
      have hpos := List.length_pos_iff.mpr hne
      have hshorter : e.rest.length < fuel := by
        rw [hpasses.rest, List.length_append] at hfuel
        omega
      obtain ⟨d, hread, hmore⟩ :=
        ih hbody (List.append_cancel_left (hpasses.rest.symm.trans hrest)) hshorter
      exact ⟨d, heq.trans hread, by simpa using hpasses.trans hmore⟩
    have escaped : ∀ {e : Cursor} {rest : List Char}, c.rest = '\\' :: rest →
        passAny (c.skip 1) = .ok e → regularBody (fuel + 1) c = regularBody fuel e := by
      intro e rest hcons hpass
      have hescape : c.startsWith ['\\'] = true := startsWith_of_rest hcons
      rw [regularBody, if_pos hescape, hpass]
      rfl
    have backslash : ∀ {rest : List Char}, c.rest = '\\' :: rest → c.Passes ['\\'] [] (c.skip 1) := by
      intro rest hcons
      have hmark : AllNarrow ['\\'] := by decide
      exact passes_skip hcons hmark
    cases hbody with
    | nil =>
      have hmark : AllNarrow ['/'] := by decide
      have hclose : c.startsWith ['/'] = true := startsWith_of_rest hrest
      have hother : ¬ c.startsWith ['\\'] = true := by simp [startsWith, hrest]
      refine ⟨_, ?_, passes_skip hrest hmark⟩
      rw [regularBody, if_neg hother, if_pos hclose]
      rfl
    | @plain ch body hescape hslash hbody =>
      have unescaped : ∀ {e : Cursor}, passAny c = .ok e →
          regularBody (fuel + 1) c = regularBody fuel e := by
        intro e hpass
        have hfirst : ¬ c.startsWith ['\\'] = true := by simp [startsWith, hrest, hescape.symm]
        have hsecond : ¬ c.startsWith ['/'] = true := by simp [startsWith, hrest, hslash.symm]
        rw [regularBody, if_neg hfirst, if_neg hsecond, hpass]
        rfl
      by_cases hsplits : Lines.Splits [ch] (body ++ '/' :: rest)
      · -- A line feed behind a carriage return is a character of the body, but not a step of its own.
        obtain ⟨hlast, hhead⟩ := hsplits
        obtain rfl : ch = '\r' := Option.some.inj hlast
        cases hbody with
        | nil => cases hhead
        | @plain ch body _ _ hbody =>
          obtain rfl : ch = '\n' := Option.some.inj hhead
          obtain ⟨e, hpass, hpasses⟩ := passAny_pair hrest
          exact step hbody (List.cons_ne_nil _ _) hrest hpasses (unescaped hpass)
        | pair => cases hhead
        | lineBreak => cases hhead
      · obtain ⟨e, hpass, hpasses⟩ := passAny_single hrest hsplits
        exact step hbody (List.cons_ne_nil _ _) hrest hpasses (unescaped hpass)
    | @pair ch body hwhole hbody =>
      have hinside : (c.skip 1).rest = ch :: (body ++ '/' :: rest) := by simp [skip, hrest]
      have hsplits : ¬ Lines.Splits [ch] (body ++ '/' :: rest) := by
        rintro ⟨hlast, hhead⟩
        cases body with
        | nil => cases hhead
        | cons => exact hwhole ⟨hlast, hhead⟩
      obtain ⟨e, hpass, hpasses⟩ := passAny_single hinside hsplits
      exact step hbody (List.cons_ne_nil _ _) hrest
        ((backslash hrest).trans hpasses) (escaped hrest hpass)
    | @lineBreak body hbody =>
      have hinside : (c.skip 1).rest = '\r' :: '\n' :: (body ++ '/' :: rest) := by
        simp [skip, hrest]
      obtain ⟨e, hpass, hpasses⟩ := passAny_pair hinside
      exact step hbody (List.cons_ne_nil _ _) hrest
        ((backslash hrest).trans hpasses) (escaped hrest hpass)

/-- What has been passed to a slash is a body. -/
theorem paired_of_regularBody {fuel : Nat} (h : regularBody fuel c = .ok d) :
    ∃ body, Paired body ∧ c.Passes (body ++ ['/']) [] d := by
  have hmark : AllNarrow ['\\'] := by decide
  induction fuel generalizing c with
  | zero => cases h
  | succ fuel ih =>
    unfold regularBody at h
    split at h
    · rename_i hescape
      obtain ⟨e, hpass, hmore⟩ := ok_of_bind h
      obtain ⟨body, hbody, hpasses⟩ := ih hmore
      have hskip := passes_skip_startsWith hescape hmark
      rcases passAny_ok hpass with ⟨rest, -, hpair⟩ | ⟨ch, rest, -, hsingle⟩
      · exact ⟨_, .lineBreak hbody, by simpa using (hskip.trans hpair).trans hpasses⟩
      · have hwhole := hsingle.whole
        rw [hpasses.rest, List.append_assoc] at hwhole
        exact ⟨_, .pair (Lines.not_splits_left hwhole) hbody,
          by simpa using (hskip.trans hsingle).trans hpasses⟩
    · rename_i hescape
      split at h
      · rename_i hclose
        cases h
        exact ⟨[], .nil, passes_skip_startsWith hclose (by decide)⟩
      · rename_i hclose
        obtain ⟨e, hpass, hmore⟩ := ok_of_bind h
        obtain ⟨body, hbody, hpasses⟩ := ih hmore
        rcases passAny_ok hpass with ⟨rest, hrest, hpair⟩ | ⟨ch, rest, hrest, hsingle⟩
        · have hfeed : Paired ('\n' :: body) := .plain (by decide) (by decide) hbody
          have hreturn : Paired ('\r' :: '\n' :: body) := .plain (by decide) (by decide) hfeed
          exact ⟨_, hreturn, by simpa using hpair.trans hpasses⟩
        · refine ⟨_, .plain ?_ ?_ hbody, by simpa using hsingle.trans hpasses⟩
          · rintro rfl
            exact hescape (startsWith_iff.mpr ⟨rest, hrest.symm⟩)
          · rintro rfl
            exact hclose (startsWith_iff.mpr ⟨rest, hrest.symm⟩)

/-- Flags are the characters and code points that stand in a row. -/
theorem regularFlags_of_parts {flags : List NamePart} {following : List Char}
    (hflags : ∀ flag ∈ flags, flag.Legible fun _ => true) (hrest : c.rest = texts flags ++ following)
    (hends : NameEnds following) :
    ∃ d, regularFlags c = .ok (chars flags, d) ∧ c.Passes (texts flags) [] d := by
  obtain ⟨d, hread, hpasses⟩ : ∃ d, nameChars (fun _ => true) (c.rest.length + 1) [] c =
      .ok ((chars flags).reverse ++ [], d) ∧ c.Passes (texts flags) [] d :=
    nameChars_of_parts hflags hrest hends (Nat.lt_succ_self _)
  refine ⟨d, ?_, hpasses⟩
  unfold regularFlags
  rw [hread]
  show Except.ok _ = _
  rw [List.append_nil, List.reverse_reverse]

theorem parts_of_regularFlags {read : List Char} (h : regularFlags c = .ok (read, d)) :
    ∃ flags, (∀ flag ∈ flags, flag.Legible fun _ => true) ∧ c.Passes (texts flags) [] d ∧
      NameEnds d.rest := by
  obtain ⟨⟨out, e⟩, hread, hpure⟩ := ok_of_bind h
  cases hpure
  exact parts_of_nameChars (Nat.lt_succ_self _) hread

/-- What a slash has taken with it, and what kind of token that has made. -/
inductive SlashMark : List Char → TokenKind → Prop
  | alone : SlashMark [] .operator
  | equals : SlashMark ['='] .compoundAssignment

namespace SlashMark

variable {taken : List Char} {kind : TokenKind}

theorem of_begins : ∀ entry ∈ spelledChars,
    Rules.beginsRegularExpression { entry.2 with span := default } = true →
      (entry = (['/'], { kind := .operator, operator := some .divide })) ∨
        entry = (['/', '='], { kind := .compoundAssignment, operator := some .divide }) := by
  decide +kernel

/-- An equals sign at the beginning of a body may be left out, and put in front of it. -/
theorem paired (h : SlashMark taken kind) : Paired (taken ++ body) ↔ Paired body := by
  cases h with
  | alone => exact Iff.rfl
  | equals =>
    constructor
    · rintro (_ | ⟨_, _, h⟩)
      exact h
    · exact .plain (by decide) (by decide)

/-- The body goes on behind what has been taken. -/
theorem goes_on (h : SlashMark taken kind) {more : List Char}
    (hwhole : taken ++ rest = body ++ '/' :: more) :
    ∃ left, body = taken ++ left ∧ rest = left ++ '/' :: more := by
  cases h with
  | alone => exact ⟨body, rfl, hwhole⟩
  | equals =>
    cases body with
    | nil => cases hwhole
    | cons ch left =>
      obtain ⟨rfl, hrest⟩ := List.cons_eq_cons.mp hwhole
      exact ⟨left, rfl, hrest⟩

end SlashMark

/-- A regular expression behind its first slash, with what follows it. -/
structure RegularText (after body : List Char) (flags : List NamePart) (following : List Char) :
    Prop where
  whole : after = body ++ '/' :: (texts flags ++ following)
  paired : Paired body
  legible : ∀ flag ∈ flags, flag.Legible fun _ => true
  ends : NameEnds following

end Scan

namespace Scanner

/-- The scanner stands behind a slash that it has just read, with or without an equals sign. -/
structure BehindSlash (front after taken : List Char) (s : Scanner) : Prop where
  content : s.script.content = front ++ '/' :: after
  scanned : s.Scanned (front ++ '/' :: taken)
  token : s.token = { kind := s.token.kind, operator := some .divide,
                      span := Lines.spanOf front ('/' :: taken) }
  mark : SlashMark taken s.token.kind

variable {s t : Scanner} {front after taken : List Char}

/-- A slash that has been read anywhere stands before the scanner. -/
theorem next_behindSlash {before : List Char} (h : s.Scanned before) (hok : s.next.1 = .ok ())
    (hslash : Rules.beginsRegularExpression s.next.2.token = true) :
    ∃ front after taken, s.next.2.BehindSlash front after taken := by
  obtain ⟨gap', notes', text', htakes⟩ := next_takes h hok
  obtain ⟨start, l, stop, ht, hl, he⟩ | ⟨_, _, _, he⟩ := s.next_cases
  · have htrivia := triviaEnd_crosses (s.cursor.rest.length + 1) h.behind
    unfold trivia at ht
    rw [ht] at htrivia
    obtain ⟨gap, notes, -, hgap⟩ := htrivia
    rw [he] at hslash htakes ⊢
    have hcases : l.kind = .operator ∨ l.kind = .compoundAssignment := by
      simp only [Rules.beginsRegularExpression, Token.isOperator, Token.isCompoundAssignment,
        Bool.or_eq_true, Bool.and_eq_true, beq_iff_eq] at hslash
      exact hslash.imp And.left And.left
    obtain ⟨entry, hmem, rfl, hrest⟩ := lexeme_spelled hl hcases
    obtain ⟨text, hpasses⟩ : start.Onto stop := by
      have hcovers := lexeme_covers start
      rwa [hl] at hcovers
    obtain rfl : text = entry.1 := List.append_cancel_right (hpasses.rest.symm.trans hrest)
    have hcontent : s.script.content = before ++ gap ++ entry.1 ++ stop.rest := by
      rw [h.content, hgap.rest, hrest]
      simp
    have hscanned : before ++ gap' ++ text' = before ++ gap ++ entry.1 :=
      List.append_cancel_right (htakes.scanned.content.symm.trans hcontent)
    have hspan := (h.behind.passes hgap).spanTo hpasses
    have hread := hscanned ▸ htakes.scanned
    have hat : ∀ {taken : List Char}, entry.1 = '/' :: taken →
        s.script.content = (before ++ gap) ++ '/' :: (taken ++ stop.rest) := by
      intro taken heq
      rw [hcontent, heq]
      simp
    rcases SlashMark.of_begins entry hmem hslash with rfl | rfl
    · exact ⟨before ++ gap, _, [], hat rfl, hread, by rw [← hspan], .alone⟩
    · exact ⟨before ++ gap, _, ['='], hat rfl, hread, by rw [← hspan], .equals⟩
  · rw [he] at hok
    cases hok

namespace BehindSlash

variable {body following : List Char} {flags : List NamePart}

theorem after_eq (h : s.BehindSlash front after taken) : after = taken ++ s.cursor.rest := by
  have hwhole := h.content.symm.trans h.scanned.content
  rw [List.append_assoc, List.append_cancel_left_eq, List.cons_append] at hwhole
  exact (List.cons_eq_cons.mp hwhole).2

theorem start_eq (h : s.BehindSlash front after taken) :
    s.token.span.start = Utf8.byteLength front := by
  rw [h.token]
  rfl

/-- The text that is found once the body has been passed. -/
theorem regularBodyText_eq (h : s.BehindSlash front after taken) {rest : List Char} {stop : Cursor}
    (hafter : after = body ++ '/' :: rest)
    (hstop : stop.index = Utf8.byteLength (front ++ '/' :: (body ++ ['/']))) :
    s.regularBodyText stop = String.ofList (unifiedLines body) := by
  have hslash : Utf8.byteLength ['/'] = 1 := rfl
  have hfirst : s.token.span.start + 1 = Utf8.byteLength (front ++ ['/']) := by
    rw [h.start_eq, Utf8.byteLength_append, hslash]
  have hlast : stop.index - 1 = Utf8.byteLength (front ++ ['/'] ++ body) := by
    rw [hstop, ← List.singleton_append, ← List.append_assoc, ← List.append_assoc,
      Utf8.byteLength_append (front ++ ['/'] ++ body), hslash, Nat.add_sub_cancel]
  have hcontent : s.script.content = front ++ ['/'] ++ (body ++ '/' :: rest) := by
    rw [h.content, hafter, List.append_assoc]
    rfl
  have hslice : Utf8.slice? s.script.content (s.token.span.start + 1) (stop.index - 1) =
      some body := by
    rw [hfirst, hlast, hcontent, Utf8.slice?_append]
  rw [regularBodyText, hslice]
  rfl

/-- A regular expression behind the slash is read, and its token covers it from the slash on. -/
theorem read (h : s.BehindSlash front after taken) (htext : RegularText after body flags following) :
    ∃ stop, stop.rest = following ∧ s.readRegularExpression = (.ok (), { s.moveTo stop with token := {
      kind := .regularExpression
      text := String.ofList (unifiedLines body)
      flags := String.ofList (chars flags)
      span := Lines.spanOf front ('/' :: (body ++ '/' :: texts flags)) } }) := by
  obtain ⟨left, hbody, hrest⟩ := h.mark.goes_on (h.after_eq.symm.trans htext.whole)
  have hpaired : Paired left := by
    rw [← h.mark.paired, ← hbody]
    exact htext.paired
  obtain ⟨e, hread, hpasses⟩ := regularBody_of_paired hpaired hrest (Nat.lt_succ_self _)
  have hflags : e.rest = texts flags ++ following := by
    apply List.append_cancel_left
    rw [← hpasses.rest, hrest, List.append_assoc]
    rfl
  obtain ⟨stop, hreadFlags, hmore⟩ := regularFlags_of_parts htext.legible hflags htext.ends
  have hbehind := h.scanned.behind.passes hpasses
  have hstop := hbehind.passes hmore
  have hend : e.index = Utf8.byteLength (front ++ '/' :: (body ++ ['/'])) := by
    rw [hbehind.index, hbody]
    simp
  have hspan : ({ Lines.spanOf front ('/' :: taken) with
      lastLine := stop.line, stop := stop.index } : Span) =
        Lines.spanOf front ('/' :: (body ++ '/' :: texts flags)) := by
    rw [hstop.line, hstop.index, hbody]
    simp [Lines.spanOf]
  refine ⟨stop, List.append_cancel_left (hmore.rest.symm.trans hflags), ?_⟩
  unfold readRegularExpression
  rw [hread]
  dsimp only
  rw [hreadFlags, h.regularBodyText_eq htext.whole hend]
  dsimp only
  rw [h.token]
  dsimp only
  rw [hspan]

/-- Whatever is read behind the slash is a regular expression. -/
theorem regularText (h : s.BehindSlash front after taken) (hok : s.readRegularExpression.1 = .ok ()) :
    ∃ body flags following, RegularText after body flags following := by
  unfold readRegularExpression at hok
  cases hread : regularBody (s.cursor.rest.length + 1) s.cursor with
  | error failure =>
    rw [hread] at hok
    cases hok
  | ok e =>
    rw [hread] at hok
    dsimp only at hok
    cases hflags : regularFlags e with
    | error failure =>
      rw [hflags] at hok
      cases hok
    | ok found =>
      obtain ⟨body, hbody, hpasses⟩ := paired_of_regularBody hread
      obtain ⟨flags, hlegible, hmore, hends⟩ := parts_of_regularFlags hflags
      refine ⟨taken ++ body, flags, found.2.rest, ?_, h.mark.paired.mpr hbody, hlegible, hends⟩
      rw [h.after_eq, hpasses.rest, hmore.rest]
      simp

/-- The cursor behind a slash is known by what it has passed and what it has left. -/
theorem cursor_eq (h : s.BehindSlash front after taken) {c : Cursor}
    (hbehind : c.Behind (front ++ '/' :: taken)) (hafter : after = taken ++ c.rest)
    (hlines : c.passedLines = []) (hcomments : c.passedComments = []) : s.cursor = c := by
  have hrest : s.cursor.rest = c.rest := List.append_cancel_left (h.after_eq.symm.trans hafter)
  have hindex := h.scanned.behind.index.trans hbehind.index.symm
  have hline := h.scanned.behind.line.trans hbehind.line.symm
  have hscannedLines := h.scanned.linesTaken
  have hscannedComments := h.scanned.commentsTaken
  cases hs : s.cursor
  cases c
  simp_all

/-- What has taken an equals sign is one step ahead. -/
theorem regularBody_ahead (h : s.BehindSlash front after []) (h' : t.BehindSlash front after ['=']) :
    regularBody (s.cursor.rest.length + 1) s.cursor =
      regularBody (t.cursor.rest.length + 1) t.cursor := by
  have hrest : s.cursor.rest = '=' :: t.cursor.rest := h.after_eq.symm.trans h'.after_eq
  have hplain : CharClass.isLineTerminator '=' = false := by decide
  have hpasses := passes_advance hrest hplain
  have hbehind := h.scanned.behind.passes hpasses
  have hlines : s.cursor.advance.passedLines = [] := hpasses.lines.trans h.scanned.linesTaken
  have hcomments : s.cursor.advance.passedComments = [] :=
    hpasses.noted.trans h.scanned.commentsTaken
  have hafter : after = ['='] ++ s.cursor.advance.rest := h.after_eq.trans hpasses.rest
  have hahead : t.cursor = s.cursor.advance := by
    apply h'.cursor_eq _ hafter hlines hcomments
    simpa using hbehind
  have hnone := (newline?_eq_none hrest).mpr hplain
  have hpass : passAny s.cursor = .ok t.cursor := by
    simp [passAny, hnone, atEnd, hrest, hahead]
  have hescape : ¬ s.cursor.startsWith ['\\'] = true := by simp [startsWith, hrest]
  have hclose : ¬ s.cursor.startsWith ['/'] = true := by simp [startsWith, hrest]
  rw [regularBody, if_neg hescape, if_neg hclose, hpass, hrest, List.length_cons]
  rfl

theorem regularBody_eq {taken' : List Char} (h : s.BehindSlash front after taken)
    (h' : t.BehindSlash front after taken') :
    regularBody (s.cursor.rest.length + 1) s.cursor =
      regularBody (t.cursor.rest.length + 1) t.cursor := by
  have same : taken = taken' → s.cursor = t.cursor := by
    rintro rfl
    exact h.cursor_eq h'.scanned.behind h'.after_eq h'.scanned.linesTaken h'.scanned.commentsTaken
  have hmark := h.mark
  have hmark' := h'.mark
  generalize s.token.kind = kind at hmark
  generalize t.token.kind = kind' at hmark'
  cases hmark with
  | alone =>
    cases hmark' with
    | alone => rw [same rfl]
    | equals => exact h.regularBody_ahead h'
  | equals =>
    cases hmark' with
    | alone => exact (h'.regularBody_ahead h).symm
    | equals => rw [same rfl]

/-- Whether the equals sign has been taken does not matter. -/
theorem read_same {taken' : List Char} (h : s.BehindSlash front after taken)
    (h' : t.BehindSlash front after taken') (hscript : t.script = s.script) :
    t.readRegularExpression.1 = s.readRegularExpression.1 ∧
      (s.readRegularExpression.1 = .ok () → t.readRegularExpression.2 = s.readRegularExpression.2) := by
  have htext : ∀ e, t.regularBodyText e = s.regularBodyText e := by
    intro e
    rw [regularBodyText, regularBodyText, hscript, h'.start_eq, h.start_eq]
  unfold readRegularExpression
  rw [h'.regularBody_eq h]
  cases regularBody (s.cursor.rest.length + 1) s.cursor with
  | error failure => exact ⟨rfl, nofun⟩
  | ok e =>
    dsimp only
    cases regularFlags e with
    | error failure => exact ⟨rfl, nofun⟩
    | ok found =>
      refine ⟨rfl, fun _ => ?_⟩
      dsimp only
      rw [htext, h.token, h'.token, moveTo, moveTo, hscript]
      simp [Lines.spanOf]

end BehindSlash

/-- Behind a slash, wherever it has been read, a regular expression is read just when one stands there:
a body, a slash, and flags that nothing goes on with. Its token covers it from the slash on; the text
is the body with a line feed for every line terminator, and the flags are decoded. Had the slash been
read otherwise, with the equals sign or without it, the result would be the same. -/
theorem readRegularExpression_slash :
    (∀ path source s, (Scanner.ofScript (Script.ofSource path source)).Run s → s.next.1 = .ok () →
      Rules.beginsRegularExpression s.next.2.token = true →
      ∃ front after taken, s.next.2.BehindSlash front after taken) ∧
    ∀ front after taken s, BehindSlash front after taken s →
      (s.readRegularExpression.1 = .ok () ↔
        ∃ body flags following, RegularText after body flags following) ∧
      (∀ body flags following, RegularText after body flags following →
        ∃ text stop, Unified body text ∧ stop.rest = following ∧
          s.readRegularExpression = (.ok (), { s.moveTo stop with token := {
            kind := .regularExpression
            text := String.ofList text
            flags := String.ofList (chars flags)
            span := Lines.spanOf front ('/' :: (body ++ '/' :: texts flags)) } })) ∧
      ∀ taken' t, BehindSlash front after taken' t → t.script = s.script →
        t.readRegularExpression.1 = s.readRegularExpression.1 ∧
          (s.readRegularExpression.1 = .ok () →
            t.readRegularExpression.2 = s.readRegularExpression.2) := by
  constructor
  · intro path source s hrun hok hslash
    obtain ⟨before, hscanned⟩ := hrun.scanned (.ofSource path source)
    exact next_behindSlash hscanned hok hslash
  · intro front after taken s h
    refine ⟨⟨h.regularText, ?_⟩, ?_, fun taken' t h' hscript => h.read_same h' hscript⟩
    · rintro ⟨body, flags, following, htext⟩
      obtain ⟨stop, -, hread⟩ := h.read htext
      rw [hread]
    · intro body flags following htext
      obtain ⟨stop, hrest, hread⟩ := h.read htext
      exact ⟨_, stop, unifiedLines_unified body, hrest, hread⟩

/-- A slash in a pair and a line break in the body, read from a slash with an equals sign. -/
theorem readRegularExpression_slash_equals :
    let s := (Scanner.ofScript (Script.ofSource "/a.es" "/=\\/\r\n/g")).next.2
    ∃ front after taken body flags following, s.BehindSlash front after taken ∧
      RegularText after body flags following ∧
      s.readRegularExpression.2.token.text = "=\\/\n" ∧
      s.readRegularExpression.2.token.flags = "g" ∧
      s.readRegularExpression.2.token.span = ⟨1, 2, 0, 8⟩ := by
  intro s
  have hslash : Rules.beginsRegularExpression s.token = true := by decide +kernel
  have hnext : (Scanner.ofScript (Script.ofSource "/a.es" "/=\\/\r\n/g")).next.1 = .ok () := by rfl
  have hread : s.readRegularExpression.1 = .ok () := by rfl
  obtain ⟨front, after, taken, hbehind⟩ := readRegularExpression_slash.1 _ _ _ (.refl _) hnext hslash
  obtain ⟨body, flags, following, htext⟩ :=
    (readRegularExpression_slash.2 front after taken s hbehind).1.mp hread
  exact ⟨front, after, taken, body, flags, following, hbehind, htext, by rfl, by rfl, by rfl⟩

end Scanner

end ActionSyntax
