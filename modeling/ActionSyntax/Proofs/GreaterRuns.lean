import ActionSyntax.Proofs.Places.NextTokens
import ActionSyntax.Proofs.Places.Walk

/-!
Runs of `>` signs. The scanner takes up to three of them for one token, with an equals sign behind them
if there is one. Each time a single sign is expected, the first one of the token is taken away, so signs
are taken one by one, however they have been grouped.
-/

namespace ActionSyntax

set_option autoImplicit false

open Utf8 Cursor

namespace Scan

variable {c : Cursor} {tail : List Char} {count : Nat} {equals : Bool}

/-- As many signs, with an equals sign behind them or without. -/
def greaterText (count : Nat) (equals : Bool) : List Char :=
  List.replicate count '>' ++ if equals then ['='] else []

/-- What the scanner makes of up to three signs. -/
def greaterMark : Nat → Bool → Lexeme
  | 1, false => { kind := .operator, operator := some .greater }
  | 2, false => { kind := .operator, operator := some .shiftRight }
  | _, false => { kind := .operator, operator := some .shiftRightUnsigned }
  | 1, true => { kind := .operator, operator := some .greaterOrEqual }
  | 2, true => { kind := .compoundAssignment, operator := some .shiftRight }
  | _, true => { kind := .compoundAssignment, operator := some .shiftRightUnsigned }

/-- A mark of a run is an operator or an assignment with one. -/
theorem greaterMark_kind (count : Nat) (equals : Bool) :
    (greaterMark count equals).kind = .operator ∨
      (greaterMark count equals).kind = .compoundAssignment := by
  unfold greaterMark
  split <;> simp

theorem greaterText_succ (count : Nat) (equals : Bool) :
    greaterText (count + 1) equals = '>' :: greaterText count equals := rfl

theorem greaterText_narrow (count : Nat) (equals : Bool) : AllNarrow (greaterText count equals) := by
  intro ch hmem
  rcases List.mem_append.mp hmem with hsign | hequals
  · rw [List.eq_of_mem_replicate hsign]
    decide
  · cases equals with
    | false => cases hequals
    | true =>
      rw [List.mem_singleton.mp hequals]
      decide

/-- The longest mark that fits is taken. -/
theorem lexeme_greater (hleast : 1 ≤ count) (hmost : count ≤ 3)
    (hrest : c.rest = greaterText count equals ++ tail)
    (hequals : equals = false → tail.head? ≠ some '=')
    (hmore : equals = false → count < 3 → tail.head? ≠ some '>') :
    lexeme c = .ok (greaterMark count equals, c.skip (greaterText count equals).length) := by
  obtain ⟨count, rfl⟩ : ∃ n, count = n + 1 := ⟨count - 1, by omega⟩
  apply lexeme_of_punctuation hrest (by decide) (by decide)
  obtain ⟨_, index, line, lines, comments⟩ := c
  cases hrest
  have hcount : count = 0 ∨ count = 1 ∨ count = 2 := by omega
  cases equals with
  | true => rcases hcount with rfl | rfl | rfl <;> rfl
  | false =>
    have hequals := hequals rfl
    have hmore := hmore rfl
    cases tail with
    | nil => rcases hcount with rfl | rfl | rfl <;> rfl
    | cons ch tail =>
      have hequals : '=' ≠ ch := fun heq => hequals (congrArg some heq.symm)
      rcases hcount with rfl | rfl | rfl
      · have hmore : '>' ≠ ch := fun heq => hmore (by decide) (congrArg some heq.symm)
        simp [punctuation?, spelledChars, spellings, Cursor.startsWith, greaterText, hequals, hmore]
        rfl
      · have hmore : '>' ≠ ch := fun heq => hmore (by decide) (congrArg some heq.symm)
        simp [punctuation?, spelledChars, spellings, Cursor.startsWith, greaterText, hequals, hmore]
        rfl
      · simp [punctuation?, spelledChars, spellings, Cursor.startsWith, greaterText, hequals]
        rfl

theorem greaterText_opens (count : Nat) (equals : Bool) (tail : List Char) :
    Opens (greaterText (count + 1) equals ++ tail) :=
  opens_cons (by decide) (by decide) (by decide) fun heq => absurd heq (by decide)

/-- The signs with which a text begins. -/
theorem exists_run (text : List Char) :
    ∃ run tail, text = List.replicate run '>' ++ tail ∧ tail.head? ≠ some '>' := by
  induction text with
  | nil => exact ⟨0, [], rfl, nofun⟩
  | cons ch text ih =>
    by_cases hsign : ch = '>'
    · obtain ⟨run, tail, rfl, htail⟩ := ih
      exact ⟨run + 1, tail, by rw [hsign]; rfl, htail⟩
    · exact ⟨0, ch :: text, rfl, fun hhead => hsign (Option.some.inj hhead)⟩

/-- Of a run, a mark is read, and what is left of the run stands behind it. -/
theorem greaterText_of_run {run : Nat} (hrun : 1 ≤ run) (htail : tail.head? ≠ some '>') :
    ∃ count equals rest, 1 ≤ count ∧ count ≤ 3 ∧
      List.replicate run '>' ++ tail = greaterText count equals ++ rest ∧
      (equals = false → rest.head? ≠ some '=') ∧
      (equals = false → count < 3 → rest.head? ≠ some '>') := by
  by_cases hlong : 3 < run
  · obtain ⟨more, rfl⟩ : ∃ more, run = 3 + (more + 1) := ⟨run - 4, by omega⟩
    refine ⟨3, false, List.replicate (more + 1) '>' ++ tail, by decide, by decide, ?_, ?_, ?_⟩
    · rw [← List.replicate_append_replicate, greaterText]
      simp
    · intro _
      simp [List.replicate_succ]
    · intro _ hless
      exact absurd hless (by decide)
  · by_cases hequals : tail.head? = some '='
    · obtain ⟨more, rfl⟩ := List.head?_eq_some_iff.mp hequals
      exact ⟨run, true, more, hrun, by omega, by simp [greaterText], nofun, nofun⟩
    · exact ⟨run, false, tail, hrun, by omega, by simp [greaterText], fun _ => hequals,
        fun _ _ => htail⟩

theorem greaterText_of_head {text : List Char} (h : text.head? = some '>') :
    ∃ count equals rest, 1 ≤ count ∧ count ≤ 3 ∧ text = greaterText count equals ++ rest ∧
      (equals = false → rest.head? ≠ some '=') ∧
      (equals = false → count < 3 → rest.head? ≠ some '>') := by
  obtain ⟨run, tail, rfl, htail⟩ := exists_run text
  have hrun : 1 ≤ run := by
    by_contra hnone
    obtain rfl : run = 0 := by omega
    exact htail h
  exact greaterText_of_run hrun htail

/-- Where more signs follow than a mark may leave, the mark takes more of them. -/
theorem greaterText_longer {count count' : Nat} {rest more : List Char} (hfew : count ≤ 2)
    (hwhole : List.replicate count '>' ++ '>' :: more = greaterText count' equals ++ rest)
    (hmore : equals = false → count' < 3 → rest.head? ≠ some '>') : count < count' := by
  by_contra hless
  obtain ⟨k, rfl⟩ : ∃ k, count = count' + k := ⟨count - count', by omega⟩
  rw [← List.replicate_append_replicate, greaterText, List.append_assoc, List.append_assoc,
    List.append_cancel_left_eq] at hwhole
  have hhead : (List.replicate k '>' ++ '>' :: more).head? = some '>' := by cases k <;> rfl
  rw [hwhole] at hhead
  cases equals with
  | true => cases hhead
  | false => exact hmore rfl (by omega) hhead

end Scan

open Scan

namespace Lines

variable {front text : List Char}

/-- Characters that end no line leave the number of lines as it is. -/
theorem ends_of_narrow (htext : AllNarrow text) : ends 0 (front ++ text) = ends 0 front := by
  have hwhole : ¬ Splits front text := by
    rintro ⟨-, hhead⟩
    obtain ⟨more, rfl⟩ := List.head?_eq_some_iff.mp hhead
    exact absurd (htext _ List.mem_cons_self).2 (by decide)
  rw [ends_append hwhole, ends_of_forall_not htext.plain, List.append_nil]

theorem append_inj_of_byteLength {a b c d : List Char} (h : a ++ b = c ++ d)
    (hlength : byteLength a = byteLength c) : a = c ∧ b = d := by
  obtain ⟨more, rfl, rfl⟩ := append_of_byteLength_le h (Nat.le_of_eq hlength)
  have hzero : byteLength more = 0 := by
    rw [byteLength_append] at hlength
    omega
  rw [byteLength_eq_zero hzero]
  exact ⟨(List.append_nil a).symm, rfl⟩

/-- The range without its first sign. -/
theorem spanOf_behind (front rest : List Char) :
    ({ spanOf front ('>' :: rest) with start := (spanOf front ('>' :: rest)).start + 1 } : Span) =
      spanOf (front ++ ['>']) rest := by
  have hsign : AllNarrow ['>'] := by decide
  have hwhole : front ++ '>' :: rest = front ++ ['>'] ++ rest := by simp
  have hlength : byteLength (front ++ ['>']) = byteLength front + 1 := by
    rw [byteLength_append]
    rfl
  simp only [spanOf, hwhole, ends_of_narrow hsign, hlength]

end Lines

/-- A single sign behind the beginning of a text. -/
def greaterAt (front : List Char) : Token :=
  { kind := .operator, operator := some .greater, span := Lines.spanOf front ['>'] }

theorem firstGreater_eq {t : Token} {front text : List Char} (h : t.span = Lines.spanOf front text) :
    Parse.firstGreater t = greaterAt front := by
  have hsign : AllNarrow ['>'] := by decide
  have hstop : byteLength (front ++ ['>']) = byteLength front + 1 := byteLength_append _ _
  unfold Parse.firstGreater greaterAt
  rw [h]
  simp only [Lines.spanOf, Lines.ends_of_narrow hsign, hstop]
  rfl

namespace Scanner

/-- The current token is a mark that begins with signs of a run. -/
structure OnRun (front : List Char) (count : Nat) (equals : Bool) (s : Scanner) : Prop where
  least : 1 ≤ count
  most : count ≤ 3
  passed : s.Passed (front ++ greaterText count equals)
  token : s.token = { greaterMark count equals with
    span := Lines.spanOf front (greaterText count equals) }
  longest : equals = false → s.cursor.rest.head? ≠ some '='

namespace OnRun

variable {before front gap rest : List Char} {notes : List Comment} {count : Nat} {equals : Bool}
  {s : Scanner} {start : Cursor}

theorem content (h : s.OnRun front count equals) :
    s.script.content = front ++ (greaterText count equals ++ s.cursor.rest) := by
  rw [h.passed.content, List.append_assoc]

/-- A mark of a run is no slash. -/
theorem not_slash (h : s.OnRun front count equals) (span : Span) :
    ¬ Rules.beginsRegularExpression { greaterMark count equals with span } = true := by
  have hcount : count = 1 ∨ count = 2 ∨ count = 3 := by
    have hleast := h.least
    have hmost := h.most
    omega
  rcases hcount with rfl | rfl | rfl <;> cases equals <;> exact Bool.false_ne_true

/-- A mark of a run is read as it stands. -/
theorem of_mark (hs : s.Passed before) (hgap : s.cursor.Passes gap notes start)
    (htrivia : trivia s.cursor = .ok start) (hleast : 1 ≤ count) (hmost : count ≤ 3)
    (hrest : start.rest = greaterText count equals ++ rest) (hequals : equals = false → rest.head? ≠ some '=')
    (hmore : equals = false → count < 3 → rest.head? ≠ some '>') :
    s.next.1 = .ok () ∧ s.next.2.OnRun (before ++ gap) count equals ∧ s.next.2.cursor.rest = rest ∧
      Mark.ofSpan s.next.2.token.span = ⟨start.line, start.index⟩ ∧
      (start = s.cursor → s.next.2.script = s.script) := by
  have hlexeme := lexeme_greater hleast hmost hrest hequals hmore
  have hpasses := passes_skip hrest (greaterText_narrow count equals)
  have hmoved := hs.moveTo (hgap.trans hpasses)
  rw [← List.append_assoc] at hmoved
  have hspan := (hs.behind.passes hgap).spanTo hpasses
  have hbehind : (start.skip (greaterText count equals).length).rest = rest := rest_skip hrest
  rw [Scanner.next_of_lexeme htrivia hlexeme]
  refine ⟨rfl, ⟨hleast, hmost, hmoved.withToken _, ?_, ?_⟩, hbehind, rfl, ?_⟩
  · show ({ greaterMark count equals with span := _ } : Token) = _
    rw [hspan]
  · show equals = false → (start.skip _).rest.head? ≠ some '='
    rw [hbehind]
    exact hequals
  · rintro rfl
    show (s.moveTo (s.cursor.skip _)).script = s.script
    unfold Scanner.moveTo
    simp only [Cursor.skip, hs.linesTaken, hs.commentsTaken, List.reverse_nil, Array.appendList_nil]
    cases s.script
    rfl

/-- A run is read as the longest mark that fits. -/
theorem of_next (hs : s.Passed before) (hgap : s.cursor.Passes gap notes start)
    (htrivia : trivia s.cursor = .ok start) (hsign : start.rest.head? = some '>') :
    ∃ count equals, s.next.1 = .ok () ∧ s.next.2.OnRun (before ++ gap) count equals ∧
      (start = s.cursor → s.next.2.script = s.script) := by
  obtain ⟨count, equals, rest, hleast, hmost, hrest, hequals, hmore⟩ := greaterText_of_head hsign
  obtain ⟨hok, hrun, -, -, hscript⟩ := of_mark hs hgap htrivia hleast hmost hrest hequals hmore
  exact ⟨count, equals, hok, hrun, hscript⟩

/-- What the scripts hold apart from text and lines is of no account. -/
theorem withScript (h : s.OnRun front count equals) {script : Script}
    (hcontent : script.content = s.script.content) (hlines : script.lineStarts = s.script.lineStarts) :
    ({ s with script } : Scanner).OnRun front count equals :=
  ⟨h.least, h.most, h.passed.withScript hcontent hlines, h.token, h.longest⟩

end OnRun

end Scanner

namespace ParserState

/-- A sign of a run has been taken, and the parser stands at what is behind it: at more signs, at an
equals sign, or at the next token, whatever that is. -/
inductive PastGreater (front rest : List Char) (s t : ParserState) : Prop
  | signs {count : Nat} {equals : Bool} (head : rest.head? = some '>')
    (run : t.scanner.OnRun front count equals) (script : t.script = s.script)
  | equals {more : List Char} (head : rest = '=' :: more)
    (scanner : t.scanner = { Scanner.behind s.script (front ++ ['=']) more with
      token := { kind := .assign, span := Lines.spanOf front ['='] } })
  | other (greater : rest.head? ≠ some '>') (equals : rest.head? ≠ some '=')
    (passed : (Scanner.behind s.script front rest).Passed front)
    (scanner : (Scanner.behind s.script front rest).next = (.ok (), t.scanner))

/-- The parser stands where the rest begins: at its first token, or at what is left of a mark there. -/
inductive Meets (front rest : List Char) (s : ParserState) : Prop
  | faces (h : s.Faces front rest)
  | signs {count : Nat} {equals : Bool} {more : List Char} (head : rest = '>' :: more)
    (run : s.scanner.OnRun front count equals) (content : s.script.content = front ++ rest)

variable {front rest : List Char} {count : Nat} {equals : Bool} {s t : ParserState}

namespace Meets

theorem content (h : s.Meets front rest) : s.script.content = front ++ rest := by
  cases h with
  | faces h => exact h.content
  | signs _ _ content => exact content

theorem faces_of_head (h : s.Meets front rest) (hhead : rest.head? ≠ some '>') : s.Faces front rest := by
  cases h with
  | faces h => exact h
  | signs head => exact absurd (by rw [head]; rfl) hhead

/-- A problem that has been found says nothing of what is read. -/
theorem collect (h : s.Meets front rest) (problem : Problem) : (s.collect problem).Meets front rest := by
  cases h with
  | faces h => exact .faces (h.collect problem)
  | signs head run content => exact .signs head (run.withScript rfl rfl) content

end Meets

theorem PastGreater.meets (h : PastGreater front rest s t) (hcontent : s.script.content = front ++ rest)
    (hequals : rest.head? ≠ some '=') : t.Meets front rest := by
  cases h with
  | signs head run script =>
    obtain ⟨more, hmore⟩ := List.head?_eq_some_iff.mp head
    exact .signs hmore run (by rw [script, hcontent])
  | equals head scanner =>
    rw [head] at hequals
    exact absurd rfl hequals
  | other _ _ passed scanner => exact .faces ⟨_, passed, rfl, scanner⟩

/-- Where more signs of the mark stand behind the first one, they are left. -/
theorem split_onRun (h : s.scanner.OnRun front (count + 2) equals) :
    ∃ kind operator, Parse.afterGreater? s.token = some (kind, operator) ∧
      (s.split kind operator).scanner.OnRun (front ++ ['>']) (count + 1) equals := by
  have hmost := h.most
  have htoken : s.token = _ := h.token
  have hspan := Lines.spanOf_behind front (greaterText (count + 1) equals)
  have hless : count = 0 ∨ count = 1 := by omega
  have hafter : Parse.afterGreater? s.token =
      some ((greaterMark (count + 1) equals).kind, (greaterMark (count + 1) equals).operator) := by
    rw [htoken]
    rcases hless with rfl | rfl <;> cases equals <;> rfl
  have hmark : ({ greaterMark (count + 2) equals with
      kind := (greaterMark (count + 1) equals).kind
      operator := (greaterMark (count + 1) equals).operator } : Lexeme) =
        greaterMark (count + 1) equals := by
    rcases hless with rfl | rfl <;> cases equals <;> rfl
  refine ⟨_, _, hafter, ⟨Nat.succ_pos count, by omega, ?_, ?_, h.longest⟩⟩
  · have hpassed := h.passed
    rw [greaterText_succ, ← List.singleton_append, ← List.append_assoc] at hpassed
    exact hpassed.withToken _
  · show ({ s.token with
      kind := (greaterMark (count + 1) equals).kind
      operator := (greaterMark (count + 1) equals).operator
      span := { s.token.span with start := s.token.span.start + 1 } } : Token) = _
    rw [htoken, ← hspan]
    exact congrArg (fun l : Lexeme => ({ l with span := _ } : Token)) hmark

/-- The first sign is taken, and the parser stands at what is behind it. -/
theorem take_greater (h : s.scanner.OnRun front count equals) {rest : List Char}
    (hcontent : s.script.content = front ++ '>' :: rest)
    (hbehind : rest.head? = some '>' ∨ rest.head? = some '=' ∨
      (Scanner.behind s.script (front ++ ['>']) rest).next.1 = .ok ()) :
    ∃ t, Parse.expectGreater s = .ok () t ∧ t.previous = greaterAt front ∧
      PastGreater (front ++ ['>']) rest s t ∧ s.Keeps t := by
  obtain ⟨count, rfl⟩ : ∃ n, count = n + 1 := ⟨count - 1, by have := h.least; omega⟩
  have hrest : rest = greaterText count equals ++ s.scanner.cursor.rest := by
    have hwhole : front ++ '>' :: rest = front ++ (greaterText (count + 1) equals ++ _) :=
      hcontent.symm.trans h.content
    rw [List.append_cancel_left_eq, greaterText_succ, List.cons_append] at hwhole
    exact (List.cons_eq_cons.mp hwhole).2
  have htoken : s.token = { greaterMark (count + 1) equals with
      span := Lines.spanOf front (greaterText (count + 1) equals) } := h.token
  have splits : ∀ {kind : TokenKind} {operator : Option Operator},
      s.token.isOperator .greater = false → Parse.afterGreater? s.token = some (kind, operator) →
      Parse.expectGreater s = .ok () (s.split kind operator) ∧
        (s.split kind operator).previous = greaterAt front := by
    intro kind operator hnot hafter
    refine ⟨?_, firstGreater_eq (congrArg Token.span htoken)⟩
    unfold Parse.expectGreater Parse.consumeOperator
    rw [Parse.bind_of_ok (Parse.consumeIf_no hnot)]
    simp only [Bool.false_eq_true, if_false, Parse.token_bind]
    rw [hafter]
    rfl
  cases count with
  | succ count =>
    obtain ⟨kind, operator, hafter, hsplit⟩ := split_onRun h
    have hmost := h.most
    have hnot : s.token.isOperator .greater = false := by
      rw [htoken]
      have hless : count = 0 ∨ count = 1 := by omega
      rcases hless with rfl | rfl <;> cases equals <;> rfl
    obtain ⟨hexpect, hprevious⟩ := splits hnot hafter
    exact ⟨_, hexpect, hprevious, .signs (by rw [hrest]; rfl) hsplit rfl, rfl, rfl, rfl, rfl⟩
  | zero =>
    cases equals with
    | true =>
      have hafter : Parse.afterGreater? s.token = some (.assign, none) := by
        rw [htoken]
        rfl
      have hnot : s.token.isOperator .greater = false := by
        rw [htoken]
        rfl
      obtain ⟨hexpect, hprevious⟩ := splits hnot hafter
      have hequals : rest = '=' :: s.scanner.cursor.rest := hrest
      refine ⟨_, hexpect, hprevious, .equals hequals ?_, rfl, rfl, rfl, rfl⟩
      have hfront : front ++ ['>'] ++ ['='] = front ++ greaterText (0 + 1) true := by simp [greaterText]
      have hspan := Lines.spanOf_behind front ['=']
      have hbehind := h.passed.behind_eq { kind := .assign, span := Lines.spanOf (front ++ ['>']) ['='] }
      rw [hfront]
      refine Eq.trans ?_ hbehind.symm
      show ({ s.scanner with token := { s.token with
        kind := .assign
        operator := none
        span := { s.token.span with start := s.token.span.start + 1 } } } : Scanner) = _
      rw [htoken, ← hspan]
      rfl
    | false =>
      have hrest : rest = s.scanner.cursor.rest := hrest
      have hprevious : s.token = greaterAt front := htoken
      have hexpect : ∀ {t : ParserState}, Parse.next s = .ok () t → Parse.expectGreater s = .ok () t := by
        intro t hnext
        have hsign : s.token.isOperator .greater = true := by
          rw [hprevious]
          rfl
        have hconsume : Parse.consumeOperator .greater s = .ok true t :=
          Parse.consumeIf_yes hsign hnext
        unfold Parse.expectGreater
        rw [Parse.bind_of_ok hconsume]
        rfl
      by_cases hsigns : rest.head? = some '>'
      · rw [hrest] at hsigns
        obtain ⟨more, hmore⟩ := List.head?_eq_some_iff.mp hsigns
        have hopens : Opens ('>' :: more) := greaterText_opens 0 false more
        have htrivia := trivia_over (hopens _ hmore)
        obtain ⟨count, equals, hok, hrun, hscript⟩ :=
          Scanner.OnRun.of_next h.passed (.refl _) htrivia hsigns
        rw [List.append_nil] at hrun
        have hscan : s.scanner.next = (.ok (), s.scanner.next.2) := Prod.ext hok rfl
        obtain ⟨hpath, -, hvalid⟩ := Scanner.next_keeps hscan
        refine ⟨s.advance, hexpect ?_, hprevious, .signs (hrest ▸ hsigns) hrun (hscript rfl), hpath,
          hvalid, rfl, rfl⟩
        show Parse.scan Scanner.next { s with previous := s.token } = _
        unfold Parse.scan
        dsimp only
        rw [hscan]
        rfl
      · have hequals := hrest ▸ h.longest rfl
        have hok := (hbehind.resolve_left hsigns).resolve_left hequals
        subst hrest
        have hnext := h.passed.next_behind hok
        have hpassed : (Scanner.behind s.script (front ++ ['>']) s.scanner.cursor.rest).Passed
            (front ++ ['>']) := h.passed.behind_passed
        have hscan : s.scanner.next =
            (.ok (), (Scanner.behind s.script (front ++ ['>']) s.scanner.cursor.rest).next.2) :=
          hnext.trans (Prod.ext hok rfl)
        obtain ⟨hpath, -, hvalid⟩ := Scanner.next_keeps hscan
        refine ⟨{ s with
          previous := s.token
          scanner := (Scanner.behind s.script (front ++ ['>']) s.scanner.cursor.rest).next.2 },
          hexpect ?_, hprevious, .other hsigns hequals hpassed (Prod.ext hok rfl), hpath, hvalid, rfl,
          rfl⟩
        show Parse.scan Scanner.next { s with previous := s.token } = _
        unfold Parse.scan
        dsimp only
        rw [hscan]

/-- What has been taken of a run is what was expected, one sign after the other. -/
theorem take_run {run : Nat} {tail : List Char} (htail : tail.head? ≠ some '>') :
    ∀ {front : List Char} {count : Nat} {equals : Bool} {s : ParserState},
      s.scanner.OnRun front count equals →
      s.script.content = front ++ (List.replicate (run + 1) '>' ++ tail) →
      (tail.head? = some '=' ∨
        (Scanner.behind s.script (front ++ List.replicate (run + 1) '>') tail).next.1 = .ok ()) →
      ∃ states : Nat → ParserState, states 0 = s ∧
        (∀ i ≤ run, Parse.expectGreater (states i) = .ok () (states (i + 1)) ∧
          (states (i + 1)).previous = greaterAt (front ++ List.replicate i '>')) ∧
        PastGreater (front ++ List.replicate (run + 1) '>') tail s (states (run + 1)) := by
  induction run with
  | zero =>
    intro front count equals s h hcontent hbehind
    obtain ⟨t, hexpect, hprevious, hpast, -⟩ := take_greater h hcontent (Or.inr hbehind)
    refine ⟨fun i => if i = 0 then s else t, rfl, ?_, hpast⟩
    intro i hi
    obtain rfl : i = 0 := Nat.le_zero.mp hi
    exact ⟨hexpect, by simpa using hprevious⟩
  | succ run ih =>
    intro front count equals s h hcontent hbehind
    have hsigns : (List.replicate (run + 1) '>' ++ tail).head? = some '>' := rfl
    obtain ⟨t, hexpect, hprevious, hpast, -⟩ := take_greater h hcontent (Or.inl hsigns)
    have hfront : front ++ ['>'] ++ List.replicate (run + 1) '>' =
        front ++ List.replicate (run + 1 + 1) '>' := by
      simp [List.replicate_succ]
    cases hpast with
    | equals head => cases head
    | other greater => exact absurd hsigns greater
    | signs _ hrun hscript =>
      have hcontent' : t.script.content = front ++ ['>'] ++ (List.replicate (run + 1) '>' ++ tail) := by
        rw [hscript, hcontent]
        simp [List.replicate_succ]
      have hbehind' := hbehind
      rw [← hfront, ← hscript] at hbehind'
      obtain ⟨states, hfirst, hsteps, hlast⟩ := ih hrun hcontent' hbehind'
      rw [hfront] at hlast
      refine ⟨fun i => if i = 0 then s else states (i - 1), rfl, ?_, ?_⟩
      · intro i hi
        cases i with
        | zero => exact ⟨by simpa [hfirst] using hexpect, by simpa [hfirst] using hprevious⟩
        | succ i =>
          obtain ⟨hstep, hbefore⟩ := hsteps i (by omega)
          refine ⟨by simpa using hstep, ?_⟩
          simpa [List.replicate_succ] using hbefore
      · show PastGreater _ tail s (states (run + 1))
        cases hlast with
        | signs head => exact absurd head htail
        | equals head scanner => exact .equals head (hscript ▸ scanner)
        | other greater equals passed scanner =>
          exact .other greater equals (hscript ▸ passed) (hscript ▸ scanner)

end ParserState

/-- The token is an operator, or an assignment with one. What a step that failed leaves is neither. -/
def Token.Operates (t : Token) : Prop :=
  t.operator ≠ none ∧ (t.kind = .operator ∨ t.kind = .compoundAssignment)

/-- An operator stands where it is said to stand, and what begins with a sign of a run is a mark. -/
def Scanner.Marked (s : Scanner) : Prop :=
  s.token.Operates → ∃ front ch rest, s.script.content = front ++ ch :: rest ∧
    s.token.span.start = byteLength front ∧
    (ch = '>' → ∃ count equals, s.OnRun front count equals) ∧
    (Parse.afterGreater? s.token ≠ none → ch = '>')

namespace Scanner

variable {before : List Char} {s : Scanner}

theorem Scanned.passed (h : s.Scanned before) : s.Passed before :=
  ⟨h.content, h.behind, h.linesTaken, h.commentsTaken, h.lineStarts⟩

/-- What a sign can be taken from begins with it. -/
theorem spelled_sign : ∀ entry ∈ spelledChars, entry.1 ≠ [] ∧
    (Parse.afterGreater? { entry.2 with span := default } = none ∨ entry.1.head? = some '>') := by
  decide +kernel

theorem next_marked (h : s.Scanned before) : s.next.2.Marked := by
  obtain ⟨start, l, stop, htrivia, hlexeme, hnext⟩ | ⟨failure, token, htoken, hnext⟩ := s.next_cases
  · have hcrosses := triviaEnd_crosses (s.cursor.rest.length + 1) h.behind
    have htrivia' : triviaEnd (s.cursor.rest.length + 1) s.cursor = .ok start := htrivia
    rw [htrivia'] at hcrosses
    obtain ⟨gap, notes, -, hgap⟩ := hcrosses
    rintro ⟨hoperator, hkind⟩
    have htoken : s.next.2.token = { l with span := start.spanTo stop } := by rw [hnext]
    rw [htoken] at hoperator hkind
    obtain ⟨entry, hmem, rfl, hrest⟩ := lexeme_spelled hlexeme hkind
    obtain ⟨hne, hsign⟩ := spelled_sign entry hmem
    obtain ⟨ch, text, htext⟩ := List.exists_cons_of_ne_nil hne
    have hstart : start.rest = ch :: (text ++ stop.rest) := by
      rw [hrest, htext]
      rfl
    refine ⟨before ++ gap, ch, text ++ stop.rest, ?_, ?_, ?_, ?_⟩
    · rw [s.next_content, h.content, hgap.rest, hstart, List.append_assoc]
    · rw [htoken]
      exact (h.behind.passes hgap).index
    · intro heq
      have hhead : start.rest.head? = some '>' := by
        rw [hstart, heq]
        rfl
      obtain ⟨count, equals, -, hrun, -⟩ := OnRun.of_next h.passed hgap htrivia hhead
      exact ⟨count, equals, hrun⟩
    · intro hafter
      rw [htoken] at hafter
      have hhead := hsign.resolve_left hafter
      rw [htext] at hhead
      exact Option.some.inj hhead
  · rintro ⟨hoperator, -⟩
    have hnone : s.next.2.token.operator = none := by
      rw [hnext]
      rcases htoken with rfl | ⟨start, rfl⟩ <;> rfl
    exact absurd hnone hoperator

theorem readRegularExpression_marked (h : s.Marked)
    (hslash : Rules.beginsRegularExpression s.token = true) : s.readRegularExpression.2.Marked := by
  rintro hoperates
  have hcontent := s.readRegularExpression_content
  obtain ⟨body, flags, stop, -, -, hread⟩ | ⟨failure, hread⟩ := s.readRegularExpression_cases
  · rw [hread] at hoperates
    exact absurd rfl hoperates.1
  · have htoken : s.readRegularExpression.2.token = s.token := by
      rw [hread]
      rfl
    rw [htoken] at hoperates
    obtain ⟨front, ch, rest, hfront, hstart, hrun, hafter⟩ := h hoperates
    refine ⟨front, ch, rest, hcontent.trans hfront, by rw [htoken, hstart], ?_, by rwa [htoken]⟩
    intro heq
    obtain ⟨count, equals, hmark⟩ := hrun heq
    rw [hmark.token] at hslash
    exact absurd hslash (hmark.not_slash _)

theorem Marked.withScript (h : s.Marked) {script : Script}
    (hcontent : script.content = s.script.content)
    (hlines : script.lineStarts = s.script.lineStarts) : ({ s with script } : Scanner).Marked := by
  intro hoperates
  obtain ⟨front, ch, rest, hfront, hstart, hrun, hafter⟩ := h hoperates
  refine ⟨front, ch, rest, hcontent.trans hfront, hstart, ?_, hafter⟩
  intro heq
  obtain ⟨count, equals, hmark⟩ := hrun heq
  exact ⟨count, equals, hmark.withScript hcontent hlines⟩

end Scanner

/-- What is left of a mark is a mark, or an equals sign. -/
theorem ParserState.split_marked {s : ParserState} {kind : TokenKind} {operator : Option Operator}
    (h : s.scanner.Marked) (hafter : Parse.afterGreater? s.token = some (kind, operator)) :
    (s.split kind operator).scanner.Marked := by
  have hsome : Parse.afterGreater? s.token ≠ none := by simp [hafter]
  obtain ⟨front, ch, rest, hcontent, -, hrun, hsign⟩ := h (Walk.afterGreater?_kind hafter)
  obtain ⟨count, equals, hmark⟩ := hrun (hsign hsome)
  obtain ⟨count, rfl⟩ : ∃ n, count = n + 1 := ⟨count - 1, by have := hmark.least; omega⟩
  have htoken : s.token = { greaterMark (count + 1) equals with
      span := Lines.spanOf front (greaterText (count + 1) equals) } := hmark.token
  cases count with
  | succ count =>
    obtain ⟨kind', operator', hafter', hsplit⟩ := split_onRun hmark
    obtain ⟨rfl, rfl⟩ : kind' = kind ∧ operator' = operator := by
      rw [hafter] at hafter'
      cases hafter'
      exact ⟨rfl, rfl⟩
    intro _
    refine ⟨front ++ ['>'], '>', greaterText count equals ++ (s.split kind' operator').scanner.cursor.rest,
      hsplit.content, ?_, fun _ => ⟨_, _, hsplit⟩, fun _ => rfl⟩
    rw [hsplit.token]
    rfl
  | zero =>
    rw [htoken] at hafter
    cases equals with
    | true =>
      cases hafter
      rintro ⟨hoperator, -⟩
      exact absurd rfl hoperator
    | false => cases hafter

/-- Wherever a parser comes to, what begins with a sign is a mark of a run. -/
theorem Walk.marked {s t : ParserState} (h : Walk s t) (hs : s.Sound) (hmarked : s.scanner.Marked) :
    t.scanner.Marked := by
  induction h with
  | refl => exact hmarked
  | scan h _ =>
    obtain ⟨before, hscanned⟩ := (h.sound hs).1.scanned
    exact Scanner.next_marked hscanned
  | keep _ ih => exact ih hs hmarked
  | regular _ slash ih => exact Scanner.readRegularExpression_marked (ih hs hmarked) slash
  | split _ greater ih => exact ParserState.split_marked (ih hs hmarked) greater
  | collect _ _ ih => exact (ih hs hmarked).withScript rfl rfl
  | note _ _ _ ih => exact ih hs hmarked
  | splice _ _ ih _ => exact (ih hs hmarked).withScript rfl rfl

/-- Where the current token begins a run of signs, each of them is taken when it is expected, however the
run has been grouped into tokens. Then the equals sign behind the run is current, or else the token that
stands there. -/
theorem expectGreater_run {path source : String} {s : ParserState} {front tail : List Char} {run : Nat}
    (h : Walk (ParserState.ofScript (Script.ofSource path source)) s) (hoperates : s.token.Operates)
    (hrun : 1 ≤ run) (hcontent : s.script.content = front ++ (List.replicate run '>' ++ tail))
    (htail : tail.head? ≠ some '>') (hstart : s.token.span.start = byteLength front)
    (hbehind : tail.head? = some '=' ∨
      (Scanner.behind s.script (front ++ List.replicate run '>') tail).next.1 = .ok ()) :
    ∃ states : Nat → ParserState, states 0 = s ∧
      (∀ i < run, Parse.expectGreater (states i) = .ok () (states (i + 1)) ∧
        (states (i + 1)).previous = greaterAt (front ++ List.replicate i '>')) ∧
      ((∃ rest, tail = '=' :: rest ∧ (states run).token =
          { kind := .assign, span := Lines.spanOf (front ++ List.replicate run '>') ['='] }) ∨
        tail.head? ≠ some '=' ∧ (states run).token =
          (Scanner.behind s.script (front ++ List.replicate run '>') tail).next.2.token) := by
  obtain ⟨run, rfl⟩ : ∃ n, run = n + 1 := ⟨run - 1, by omega⟩
  have hinitial : (ParserState.ofScript (Script.ofSource path source)).scanner.Marked :=
    fun hoperates => absurd rfl hoperates.1
  have hmarked := h.marked (.ofSource path source) hinitial
  obtain ⟨front', ch, rest, hwhole, hstart', hmark, -⟩ := hmarked hoperates
  obtain ⟨rfl, hrest⟩ : front' = front ∧ ch :: rest = List.replicate (run + 1) '>' ++ tail :=
    Lines.append_inj_of_byteLength (hwhole.symm.trans hcontent) (hstart'.symm.trans hstart)
  obtain ⟨count, equals, hrun⟩ := hmark (List.cons_eq_cons.mp hrest).1
  obtain ⟨states, hfirst, hsteps, hlast⟩ :=
    ParserState.take_run htail hrun hcontent hbehind
  refine ⟨states, hfirst, fun i hi => hsteps i (Nat.le_of_lt_succ hi), ?_⟩
  cases hlast with
  | signs head => exact absurd head htail
  | equals head scanner =>
    exact Or.inl ⟨_, head, congrArg Scanner.token scanner⟩
  | other _ equals _ scanner =>
    refine Or.inr ⟨equals, ?_⟩
    rw [scanner]
    rfl

end ActionSyntax
