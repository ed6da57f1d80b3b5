import ActionSyntax.Proofs.Respacing.States

/-!
The steps of the scanner in the three texts, in front of the gap, over it, and behind it: tokens are read, and
read on as regular expressions. Whatever is read in front of the gap is the same, and so is what is read
behind it.
-/

namespace ActionSyntax

set_option autoImplicit false

open Utf8 Scan Cursor

theorem Cursor.before_inj {c d : Cursor} {tail : List Char} (h : c.before tail = d.before tail) : c = d := by
  obtain ⟨rest, index, line, lines, notes⟩ := c
  obtain ⟨rest', index', line', lines', notes'⟩ := d
  simp only [before, mk.injEq] at h
  obtain ⟨hrest, rfl, rfl, rfl, rfl⟩ := h
  rw [List.append_cancel_right hrest]

/-- What is passed in a text that goes on is passed in the text. -/
theorem Cursor.Passes.of_before {c d : Cursor} {text tail : List Char} {notes : List Comment}
    (h : (c.before tail).Passes text notes (d.before tail)) : c.Passes text notes d where
  rest := by
    have hrest := h.rest
    rw [before_rest, before_rest, ← List.append_assoc] at hrest
    exact List.append_cancel_right hrest
  index := h.index
  line := h.line
  lines := h.lines
  noted := h.noted
  whole := Lines.not_splits_left h.whole

theorem byteLength_lt_of_append {a b c d : List Char} (h : a ++ b = c ++ d) (hlt : d.length < b.length) :
    byteLength a < byteLength c := by
  rcases List.append_eq_append_iff.mp h with ⟨more, rfl, rfl⟩ | ⟨more, rfl, rfl⟩
  · have hne : more ≠ [] := by
      rintro rfl
      simp at hlt
    have hpos : byteLength more ≠ 0 := fun hzero => hne (Lines.byteLength_eq_zero hzero)
    rw [byteLength_append]
    omega
  · simp only [List.length_append] at hlt
    omega

/-- A token is found, or a failure. -/
theorem Scan.token_cases (u : Cursor) :
    (∃ start l stop, trivia u = .ok start ∧ lexeme start = .ok (l, stop)) ∨
    ∃ f, trivia u = .error f ∨ ∃ start, trivia u = .ok start ∧ lexeme start = .error f := by
  cases htrivia : trivia u with
  | error f => exact Or.inr ⟨f, Or.inl rfl⟩
  | ok start =>
    cases hlexeme : lexeme start with
    | error f => exact Or.inr ⟨f, Or.inr ⟨start, rfl, hlexeme⟩⟩
    | ok found => exact Or.inl ⟨start, found.1, found.2, rfl, hlexeme⟩

namespace Scanner

variable {s : Scanner} {u : Cursor} {o : Offset}

/-- A scanner that comes to a cursor further on finds the token that is found at the cursor. -/
theorem found_shifted (h : trivia s.cursor = trivia (u.shifted o)) {start stop : Cursor} {l : Lexeme}
    (htrivia : trivia u = .ok start) (hlexeme : lexeme start = .ok (l, stop)) :
    trivia s.cursor = .ok (start.shifted o) ∧ lexeme (start.shifted o) = .ok (l, stop.shifted o) := by
  rw [trivia_shifted, htrivia] at h
  rw [lexeme_shifted, hlexeme]
  exact ⟨h, rfl⟩

/-- It fails where the cursor does. -/
theorem next_failed_shifted (h : trivia s.cursor = trivia (u.shifted o)) {f : Failure}
    (hfails : trivia u = .error f ∨ ∃ start, trivia u = .ok start ∧ lexeme start = .error f) :
    ∃ token, s.next = (.error (f.shifted o).problem, { s with token }.stopAt (f.shifted o)) := by
  rw [trivia_shifted] at h
  unfold Scanner.next
  rw [h]
  obtain htrivia | ⟨start, htrivia, hlexeme⟩ := hfails <;> rw [htrivia]
  · exact ⟨_, rfl⟩
  · simp only [moved]
    rw [lexeme_shifted, hlexeme]
    exact ⟨_, rfl⟩

end Scanner

theorem Scan.Failure.problem_shifted (f : Failure) (o o' : Offset) :
    Matches (f.shifted o).problem (f.shifted o').problem := rfl

/-- Scripts that have the same problems still do where scanners stop at the same one. -/
theorem Script.Alike.stopAt {s t : Scanner} (h : s.script.Alike t.script) (f : Failure) (o o' : Offset) :
    (s.stopAt (f.shifted o)).script.Alike (t.stopAt (f.shifted o')).script := by
  have hmoved : ∀ c d, (s.moveTo c).script.Alike (t.moveTo d).script :=
    fun c d => ⟨h.problems, h.valid, h.included⟩
  exact (hmoved _ _).collect (f.problem_shifted o o')

namespace Respacing

variable {x : Respacing} {read : List Char} {s t u : ParserState}

/-- What the scanner passes that does not leave the gap in front of it takes something of the gap. -/
theorem Standing.astray (h : x.Standing read u) {text : List Char} {notes : List Comment} {stop : Cursor} {token : Token}
    (hp : (u.scanner.cursor.before x.gap).Passes text notes stop)
    (hshort : ¬ x.gap.length ≤ stop.rest.length) (hstop : token.span.stop = stop.index)
    (hend : token.kind = .endOfProgram → u.previous.span.stop ≠ byteLength x.front) :
    x.Astray { u.before x.gap with
      scanner := { (u.before x.gap).scanner.moveTo stop with token } } := by
  have hpassed := (h.before x.gap).moveTo hp
  have hwhole : x.front ++ x.gap = read ++ text ++ stop.rest := by
    rw [List.append_assoc, ← hp.rest, h.front_eq, List.append_assoc]
    rfl
  have hindex : byteLength x.front < stop.index := by
    rw [(h.before x.gap).behind.passes hp |>.index]
    exact byteLength_lt_of_append hwhole (by omega)
  exact ⟨⟨_, hpassed.withToken token⟩, hindex, hstop ▸ hindex, hend⟩

/-- A state of the front, behind a token or in front of the first one. -/
structure Reading (x : Respacing) (read : List Char) (u : ParserState) : Prop
    extends x.Standing read u where
  previous : u.previous.span.stop = byteLength read

namespace Reading

variable (h : x.Reading read u)
include h

theorem behind (tail : List Char) : (u.scanner.cursor.before tail).Behind read := (h.before tail).behind

theorem solid_front (hrest : u.scanner.cursor.rest = []) : read = x.front ∧ EndsSolid x.front := by
  have hread : read = x.front := by rw [h.front_eq, hrest, List.append_nil]
  refine ⟨hread, h.solid.elim (fun hnil => ?_) fun hsolid => hread ▸ hsolid⟩
  exact absurd (hread.symm.trans hnil) x.led

/-- Where something is left of the front, the previous token does not end there. -/
theorem previous_ne (hrest : u.scanner.cursor.rest ≠ []) : u.previous.span.stop ≠ byteLength x.front := by
  have hne : byteLength u.scanner.cursor.rest ≠ 0 := fun hzero => hrest (Lines.byteLength_eq_zero hzero)
  rw [h.previous, h.front_eq, byteLength_append]
  omega

/-- A token that leaves the gap in front of the scanner is read in any text that goes on alike. -/
theorem carried {start stop : Cursor} {l : Lexeme}
    (htrivia : trivia (u.scanner.cursor.before x.gap) = .ok start) (hlexeme : lexeme start = .ok (l, stop))
    (hfits : x.gap.length ≤ stop.rest.length) :
    ∃ d e : Cursor, start = d.before x.gap ∧ stop = e.before x.gap ∧ l.kind ≠ .endOfProgram ∧
      ∀ w, Tails x.gap w → trivia (u.scanner.cursor.before w) = .ok (d.before w) ∧
        lexeme (d.before w) = .ok (l, e.before w) := by
  have hpos := List.length_pos_iff.mpr x.nonempty
  have hkind : l.kind ≠ .endOfProgram := by
    intro hend
    obtain ⟨hnil, -, rfl⟩ := Scanner.lexeme_end hlexeme hend
    rw [hnil, List.length_nil] at hfits
    omega
  have hlt := Nat.lt_of_le_of_lt hfits (lexeme_firm hlexeme hkind).length_lt
  obtain ⟨d, -, rfl, hreads⟩ := trivia_carries (h.behind x.gap) htrivia hlt
  obtain ⟨b, hb, -⟩ := lexeme_carries x.tails_whole d _ hlexeme hfits
  obtain ⟨rfl, rfl⟩ : b.1 = l ∧ stop = b.2.before x.gap :=
    ⟨(congrArg Prod.fst hb).symm, congrArg Prod.snd hb⟩
  refine ⟨d, b.2, rfl, rfl, hkind, fun w hw => ⟨hreads w hw, ?_⟩⟩
  obtain ⟨b', hb', hread⟩ := lexeme_carries hw d _ hlexeme hfits
  have hsame : b' = b := Prod.ext (congrArg Prod.fst hb').symm
    (before_inj (congrArg Prod.snd hb')).symm
  rw [hread, hsame]
  rfl

end Reading

section Beyond

/-- A scanner that moves to a place behind the gap has passed the gap. -/
theorem passed_to {front gap back later text : List Char} {notes : List Comment} {s : Scanner}
    {stop : Cursor} (hs : s.Passed read) (hcontent : s.script.content = front ++ (gap ++ back))
    (hp : s.cursor.Passes text notes stop) (hback : back = later ++ stop.rest) :
    (s.moveTo stop).Passed (front ++ gap ++ later) := by
  have hmoved := hs.moveTo hp
  have hread : read ++ text = front ++ gap ++ later := by
    have hwhole := hcontent.symm.trans hmoved.content
    rw [hback, ← List.append_assoc, ← List.append_assoc] at hwhole
    exact (List.append_cancel_right hwhole).symm
  exact hread ▸ hmoved

theorem lexeme_rest {u start stop : Cursor} {l : Lexeme} (htrivia : trivia u = .ok start)
    (hlexeme : lexeme start = .ok (l, stop)) : ∃ text, u.rest = text ++ stop.rest := by
  obtain ⟨gap, hgap⟩ := trivia_leads htrivia
  have hcovers := lexeme_covers start
  rw [hlexeme] at hcovers
  obtain ⟨text, hp⟩ := hcovers
  exact ⟨gap ++ text, by rw [← hgap, hp.rest, List.append_assoc]⟩

/-- Two scanners that stand in front of the same text, be it in front of their gaps or behind them. -/
structure Abreast (x : Respacing) (later : List Char) (u : Cursor) (s t : ParserState) : Prop where
  solid : EndsSolid x.front
  split : x.back = later ++ u.rest
  passed : ∃ read, s.scanner.Passed read
  passedOther : ∃ read, t.scanner.Passed read
  content : s.script.content = x.whole
  contentOther : t.script.content = x.respaced
  trivia : ∃ noted, Scan.trivia s.scanner.cursor =
    Scan.trivia (u.shifted { bytes := byteLength (x.front ++ x.gap), noted })
  triviaOther : ∃ noted, Scan.trivia t.scanner.cursor =
    Scan.trivia (u.shifted { bytes := byteLength (x.front ++ x.other), noted })
  previous : s.previous.Twin t.previous
  functions : s.functions = t.functions
  superFound : s.superFound = t.superFound
  path : s.script.path = t.script.path
  alike : s.script.Alike t.script

/-- From there on they read the same. -/
theorem Abreast.next {later : List Char} {u : Cursor} (h : x.Abreast later u s t) :
    EndAlike x.Beyond Eq (Parse.scan Scanner.next s) (Parse.scan Scanner.next t) := by
  obtain ⟨noted, htrivia⟩ := h.trivia
  obtain ⟨notedOther, htriviaOther⟩ := h.triviaOther
  obtain ⟨read, hs⟩ := h.passed
  obtain ⟨read', ht⟩ := h.passedOther
  rw [Parse.scan_apply, Parse.scan_apply]
  obtain ⟨start, l, stop, hstart, hlexeme⟩ | ⟨f, hfails⟩ := token_cases u
  · obtain ⟨hpast, hread⟩ := Scanner.found_shifted htrivia hstart hlexeme
    obtain ⟨hpast', hread'⟩ := Scanner.found_shifted htriviaOther hstart hlexeme
    rw [Scanner.next_of_lexeme hpast hread, Scanner.next_of_lexeme hpast' hread']
    obtain ⟨_, _, hp⟩ := lexeme_passes hs.behind hpast hread
    obtain ⟨_, _, hp'⟩ := lexeme_passes ht.behind hpast' hread'
    obtain ⟨text, htext⟩ := lexeme_rest hstart hlexeme
    have hback : x.back = later ++ text ++ stop.rest := by rw [h.split, htext, List.append_assoc]
    refine .ok rfl ⟨later ++ text, { stop with passedLines := [], passedComments := [] },
      { l with span := start.spanTo stop }, ?_⟩
    exact {
      solid := h.solid
      split := hback
      passed := (passed_to hs h.content hp hback).withToken _
      passedOther := (passed_to ht h.contentOther hp' hback).withToken _
      cursor := rfl
      cursorOther := rfl
      token := rfl
      tokenOther := rfl
      previous := h.previous
      functions := h.functions
      superFound := h.superFound
      path := h.path
      alike := ⟨h.alike.problems, h.alike.valid, h.alike.included⟩ }
  · obtain ⟨token, hnext⟩ := Scanner.next_failed_shifted htrivia hfails
    obtain ⟨token', hnext'⟩ := Scanner.next_failed_shifted htriviaOther hfails
    rw [hnext, hnext']
    refine .stopped (congrArg Stop.problem (f.problem_shifted _ _)) ?_
    exact Script.Alike.stopAt (s := { s.scanner with token }) (t := { t.scanner with token := token' })
      h.alike f _ _

end Beyond

/-- A gap on one line is passed to a place further on, where no line has been passed. -/
theorem over_gap {front gap : List Char} {notes : List Comment} {c d : Cursor} (hp : c.Passes gap notes d)
    (hindex : c.index = byteLength front) (hlines : c.passedLines = [])
    (hplain : ∀ ch ∈ gap, CharClass.isLineTerminator ch = false) :
    d = ({ rest := d.rest, index := 0, line := c.line } : Cursor).shifted
      { bytes := byteLength (front ++ gap), noted := d.passedComments } := by
  have hends := Lines.ends_of_forall_not hplain c.index
  have hend : d.index = byteLength (front ++ gap) := by rw [hp.index, hindex, byteLength_append]
  have hline : d.line = c.line := by simp [hp.line, hends]
  have hpassed : d.passedLines = [] := by simp [hp.lines, hends, hlines]
  obtain ⟨rest, index, line, lines, comments⟩ := d
  simp only at hend hline hpassed
  subst hend hline hpassed
  simp [shifted]

namespace Reading

variable (h : x.Reading read u) {problems : Array Problem}
  (hproblems : Matches u.script.problems.toList problems.toList)
include h hproblems

/-- In front of the gaps. -/
theorem abreast (hrest : u.scanner.cursor.rest = []) :
    x.Abreast [] { rest := x.back, index := 0, line := u.scanner.cursor.line }
      (u.before (x.gap ++ x.back)) ((u.refound problems).before (x.other ++ x.back)) := by
  obtain ⟨hread, hsolid⟩ := h.solid_front hrest
  have hindex : u.scanner.cursor.index = byteLength x.front := by rw [h.passed.behind.index, hread]
  -- Both gaps are passed as they stand.
  have hover : ∀ {gap : List Char} {notes : List Comment}, Gap x.front gap notes x.back →
      (∀ ch ∈ gap, CharClass.isLineTerminator ch = false) →
      ∃ noted, trivia (u.scanner.cursor.before (gap ++ x.back)) = trivia
        (({ rest := x.back, index := 0, line := u.scanner.cursor.line } : Cursor).shifted
          { bytes := byteLength (x.front ++ gap), noted }) := by
    intro gap notes hgap hplain
    have hbehind : (u.scanner.cursor.before (gap ++ x.back)).Behind x.front := hread ▸ h.behind _
    have hwhole : (u.scanner.cursor.before (gap ++ x.back)).rest = gap ++ x.back := by
      rw [before_rest, hrest, List.nil_append]
    obtain ⟨d, hp, htrivia⟩ := trivia_of_gap hgap hbehind hwhole
    have hd : d.rest = x.back := List.append_cancel_left (hp.rest.symm.trans hwhole)
    refine ⟨d.passedComments, htrivia.trans ?_⟩
    rw [← hd]
    exact congrArg trivia (over_gap (c := u.scanner.cursor.before _) hp hindex h.passed.linesTaken hplain)
  exact {
    solid := hsolid
    split := rfl
    passed := ⟨read, h.before _⟩
    passedOther := ⟨read, (h.before _).withScript rfl rfl⟩
    content := congrArg (· ++ (x.gap ++ x.back)) h.content
    contentOther := congrArg (· ++ (x.other ++ x.back)) h.content
    trivia := hover x.stands x.plain
    triviaOther := hover x.standsOther x.plainOther
    previous := .refl _
    functions := rfl
    superFound := rfl
    path := rfl
    alike := ⟨hproblems, rfl, rfl⟩ }

/-- A token is read. -/
theorem next : PartAlike x.Before x.Beyond x.Astray x.Arrived Eq
    (Parse.scan Scanner.next (u.before x.gap))
    (Parse.scan Scanner.next (u.before (x.gap ++ x.back)))
    (Parse.scan Scanner.next ((u.refound problems).before (x.other ++ x.back))) := by
  by_cases hrest : u.scanner.cursor.rest = []
  · exact .past (h.abreast hproblems hrest).next
  have hne := h.previous_ne hrest
  obtain ⟨start, l, stop, htrivia, hlexeme, hnext⟩ | ⟨f, token, -, hnext⟩ :=
    (u.before x.gap).scanner.next_cases
  case inr =>
    refine .astray ?_
    rw [Parse.scan_apply, hnext]
    exact .stopped fun harrived => hne harrived.2
  obtain ⟨text, notes, hp⟩ := lexeme_passes (h.behind x.gap) htrivia hlexeme
  by_cases hfits : x.gap.length ≤ stop.rest.length
  case neg =>
    refine .astray ?_
    rw [Parse.scan_apply, hnext]
    exact .ok (h.astray hp hfits rfl fun _ => hne)
  obtain ⟨d, e, rfl, rfl, hkind, hreads⟩ := h.carried htrivia hlexeme hfits
  obtain ⟨hwhole, hwhole'⟩ := hreads _ x.tails_whole
  obtain ⟨hother, hother'⟩ := hreads _ x.tails_respaced
  have hmoved := h.passed.moveTo hp.of_before
  have hfirm := (lexeme_firm hlexeme hkind).after (trivia_leads htrivia)
  let v : ParserState := { u with
    scanner := { u.scanner.moveTo e with token := { l with span := d.spanTo e } } }
  have hv : x.Inside (read ++ text) v := {
    passed := hmoved.withToken _
    content := h.content
    solid := .of_firm hfirm hp.rest
    ends := hmoved.behind.index
    proper := hkind }
  rw [Parse.scan_apply, Parse.scan_apply, Parse.scan_apply, hnext, Scanner.next_of_lexeme hwhole hwhole',
    Scanner.next_of_lexeme hother hother']
  exact .kept rfl ⟨_, v, problems, hv, hproblems, rfl, rfl, rfl⟩

end Reading

end Respacing

/-- A token that has been read on as a regular expression. -/
def Token.regular (t : Token) (text flags : String) (stop : Cursor) : Token :=
  { t with
    kind := .regularExpression
    text
    flags
    operator := none
    span := { t.span with lastLine := stop.line, stop := stop.index } }

namespace Respacing

variable {x : Respacing} {read : List Char} {c s t u : ParserState}

theorem Inside.reading (h : x.Inside read u) : x.Reading read { u with previous := u.token } :=
  ⟨⟨h.passed, h.content, Or.inr h.solid⟩, h.ends⟩

theorem Before.next (h : x.Before c s t) :
    PartAlike x.Before x.Beyond x.Astray x.Arrived Eq (Parse.next c) (Parse.next s) (Parse.next t) := by
  obtain ⟨read, u, problems, hu, hproblems, rfl, rfl, rfl⟩ := h
  exact hu.reading.next hproblems

theorem Level.content {later : List Char} {u : Cursor} {v : Token} (h : x.Level later u v s t) :
    s.script.content = x.whole ∧ t.script.content = x.respaced := by
  have hs := h.passed.content
  have ht := h.passedOther.content
  rw [h.cursor, shifted_rest, List.append_assoc, ← h.split, List.append_assoc] at hs
  rw [h.cursorOther, shifted_rest, List.append_assoc, ← h.split, List.append_assoc] at ht
  exact ⟨hs, ht⟩

theorem Beyond.next (h : x.Beyond s t) : EndAlike x.Beyond Eq (Parse.next s) (Parse.next t) := by
  have hview := h.views
  obtain ⟨later, u, v, hst⟩ := h
  have habreast : x.Abreast later u { s with previous := s.token } { t with previous := t.token } := {
    solid := hst.solid
    split := hst.split
    passed := ⟨_, hst.passed⟩
    passedOther := ⟨_, hst.passedOther⟩
    content := hst.content.1
    contentOther := hst.content.2
    trivia := ⟨[], congrArg trivia hst.cursor⟩
    triviaOther := ⟨[], congrArg trivia hst.cursorOther⟩
    previous := hview.token
    functions := hst.functions
    superFound := hst.superFound
    path := hst.path
    alike := hst.alike }
  exact habreast.next

theorem Astray.next (h : x.Astray c) : Strays x.Astray x.Arrived (Parse.next c) := by
  obtain ⟨⟨read, hread⟩, hindex, hstop, -⟩ := h
  have hne : c.token.span.stop ≠ byteLength x.front := Nat.ne_of_gt hstop
  rw [Parse.next_apply]
  unfold ParserState.advance
  obtain ⟨start, l, stop, htrivia, hlexeme, hnext⟩ | ⟨f, token, -, hnext⟩ := c.scanner.next_cases <;>
    rw [hnext]
  · obtain ⟨text, notes, hp⟩ := lexeme_passes hread.behind htrivia hlexeme
    have hlater : byteLength x.front < stop.index := by
      rw [hp.index]
      omega
    exact .ok ⟨⟨_, (hread.moveTo hp).withToken _⟩, hlater, hlater, fun _ => hne⟩
  · exact .stopped fun harrived => hne harrived.2

section Regular

/-- The body of a regular expression that ends in the front is the same in any text that goes on. -/
theorem Standing.regularBodyText (h : x.Standing read u) {body : Cursor} {fuel : Nat} {tail : List Char}
    (hbody : regularBody fuel (u.scanner.cursor.before tail) = .ok (body.before tail)) (w : List Char) :
    (u.before w).scanner.regularBodyText (body.before w) = u.scanner.regularBodyText body := by
  obtain ⟨text, hp⟩ := regularBody_passes hbody
  have hindex : body.index = byteLength (read ++ (text ++ ['/'])) :=
    (h.passed.behind.passes hp.of_before).index
  have hwhole : x.front = read ++ (text ++ ['/']) ++ body.rest := by
    rw [h.front_eq, hp.of_before.rest]
    simp only [List.append_assoc]
  have hfits : body.index - 1 ≤ byteLength u.script.content := by
    rw [h.content, hwhole, byteLength_append, ← hindex]
    omega
  have hslice : slice? (u.script.content ++ w) (u.token.span.start + 1) (body.index - 1) =
      slice? u.script.content (u.token.span.start + 1) (body.index - 1) := by
    simpa using slice?_amid [] u.script.content w hfits
  unfold Scanner.regularBodyText
  exact congrArg (fun slice : Option (List Char) => String.ofList (unifiedLines (slice.getD []))) hslice

/-- A regular expression that leaves the gap in front of the scanner is read in any text that goes on alike. -/
theorem regular_carried (x : Respacing) {k body stop : Cursor} {flags : List Char} {fuel : Nat}
    (hbody : regularBody fuel (k.before x.gap) = .ok body)
    (hflags : regularFlags body = .ok (flags, stop)) (hfits : x.gap.length ≤ stop.rest.length) :
    ∃ d e : Cursor, body = d.before x.gap ∧ stop = e.before x.gap ∧
      ∀ w, Tails x.gap w →
        regularBody ((k.before w).rest.length + 1) (k.before w) = .ok (d.before w) ∧
        regularFlags (d.before w) = .ok (flags, e.before w) := by
  have hfuel : ∀ w, k.rest.length < (k.before w).rest.length + 1 := by
    intro w
    rw [before_rest, List.length_append]
    omega
  have hbodyFits : x.gap.length ≤ body.rest.length :=
    Nat.le_trans hfits (regularFlags_leads hflags).length_le
  obtain ⟨d, rfl, -⟩ := regularBody_carries x.tails_whole fuel _ _ (hfuel x.gap) _ hbody hbodyFits
  obtain ⟨b, hb, -⟩ := regularFlags_carries x.tails_whole d _ hflags hfits
  obtain ⟨rfl, rfl⟩ : b.1 = flags ∧ stop = b.2.before x.gap :=
    ⟨(congrArg Prod.fst hb).symm, congrArg Prod.snd hb⟩
  refine ⟨d, b.2, rfl, rfl, fun w hw => ?_⟩
  obtain ⟨d', hd', hread⟩ := regularBody_carries hw fuel _ _ (hfuel w) _ hbody hbodyFits
  obtain ⟨b', hb', hread'⟩ := regularFlags_carries hw d _ hflags hfits
  obtain rfl : d' = d := (before_inj hd').symm
  have hsame : b' = b := Prod.ext (congrArg Prod.fst hb').symm (before_inj (congrArg Prod.snd hb')).symm
  rw [hread', hsame]
  exact ⟨hread, rfl⟩

theorem Before.regular (h : x.Before c s t) : PartAlike x.Before x.Beyond x.Astray x.Arrived Eq
    (Parse.scan Scanner.readRegularExpression c) (Parse.scan Scanner.readRegularExpression s)
    (Parse.scan Scanner.readRegularExpression t) := by
  obtain ⟨read, u, problems, hu, hproblems, rfl, rfl, rfl⟩ := h
  obtain ⟨body, flags, stop, hbody, hflags, hread⟩ | ⟨f, hread⟩ :=
    (u.before x.gap).scanner.readRegularExpression_cases
  case inr =>
    refine .astray ?_
    rw [Parse.scan_apply, hread]
    exact .stopped fun harrived => hu.proper harrived.1
  obtain ⟨text, hp⟩ := Passage.regular_passes hbody hflags
  by_cases hfits : x.gap.length ≤ stop.rest.length
  case neg =>
    refine .astray ?_
    rw [Parse.scan_apply, hread]
    exact .ok (hu.standing.astray hp hfits rfl nofun)
  obtain ⟨d, e, rfl, rfl, hreads⟩ := regular_carried x hbody hflags hfits
  obtain ⟨hwhole, hwhole'⟩ := hreads _ x.tails_whole
  obtain ⟨hother, hother'⟩ := hreads _ x.tails_respaced
  have htext := hu.standing.regularBodyText hbody
  have htextOther : ((u.refound problems).before (x.other ++ x.back)).scanner.regularBodyText
      (d.before (x.other ++ x.back)) = u.scanner.regularBodyText d := htext _
  have hmoved := hu.passed.moveTo hp.of_before
  have hfirm := (regularBody_firm hbody).then_steady (regularFlags_steady hflags)
  let v : ParserState := { u with
    scanner := { u.scanner.moveTo e with
      token := u.token.regular (u.scanner.regularBodyText d) (String.ofList flags) e } }
  have hv : x.Inside (read ++ text) v := {
    passed := hmoved.withToken _
    content := hu.content
    solid := .of_firm hfirm hp.rest
    ends := hmoved.behind.index
    proper := nofun }
  rw [Parse.scan_apply, Parse.scan_apply, Parse.scan_apply, hread, Passage.regular_of_flags hwhole hwhole',
    Passage.regular_of_flags hother hother', htext, htext, htextOther]
  exact .kept rfl ⟨_, v, problems, hv, hproblems, rfl, rfl, rfl⟩

/-- The body of a regular expression is the same slice of what stands behind the gap. -/
theorem regularBodyText_behind {front back : List Char} {s : Scanner} {body : Cursor} {v : Token}
    (hcontent : s.script.content = front ++ back) (htoken : s.token = v.moved (byteLength front))
    (hpos : 1 ≤ body.index) : s.regularBodyText (body.shifted { bytes := byteLength front }) =
      String.ofList (unifiedLines ((slice? back (v.span.start + 1) (body.index - 1)).getD [])) := by
  have hstart : s.token.span.start + 1 = byteLength front + (v.span.start + 1) := by
    rw [htoken]
    show v.span.start + byteLength front + 1 = _
    omega
  have hstop : (body.shifted { bytes := byteLength front }).index - 1 = byteLength front + (body.index - 1) := by
    show body.index + byteLength front - 1 = _
    omega
  unfold Scanner.regularBodyText
  rw [hcontent, hstart, hstop, slice?_add]

/-- A regular expression that is found at a cursor is found further on. -/
theorem regular_shifted {u body stop : Cursor} {flags : List Char} {s : Scanner} {o : Offset}
    (hcursor : s.cursor = u.shifted o) (hbody : regularBody (u.rest.length + 1) u = .ok body)
    (hflags : regularFlags body = .ok (flags, stop)) :
    regularBody (s.cursor.rest.length + 1) s.cursor = .ok (body.shifted o) ∧
      regularFlags (body.shifted o) = .ok (flags, stop.shifted o) := by
  rw [hcursor, shifted_rest, regularBody_shifted, hbody, regularFlags_shifted, hflags]
  exact ⟨rfl, rfl⟩

theorem regular_failed_shifted {u : Cursor} {f : Failure} {s : Scanner} {o : Offset}
    (hcursor : s.cursor = u.shifted o) (hfails : regularBody (u.rest.length + 1) u = .error f ∨
      ∃ body, regularBody (u.rest.length + 1) u = .ok body ∧ regularFlags body = .error f) :
    s.readRegularExpression = (.error (f.shifted o).problem, s.stopAt (f.shifted o)) := by
  unfold Scanner.readRegularExpression
  rw [hcursor, shifted_rest, regularBody_shifted]
  obtain hbody | ⟨body, hbody, hflags⟩ := hfails <;> rw [hbody]
  · rfl
  · simp only [moved]
    rw [regularFlags_shifted, hflags]
    rfl

theorem regular_cases (u : Cursor) :
    (∃ body flags stop, regularBody (u.rest.length + 1) u = .ok body ∧
      regularFlags body = .ok (flags, stop)) ∨
    ∃ f, regularBody (u.rest.length + 1) u = .error f ∨
      ∃ body, regularBody (u.rest.length + 1) u = .ok body ∧ regularFlags body = .error f := by
  cases hbody : regularBody (u.rest.length + 1) u with
  | error f => exact Or.inr ⟨f, Or.inl rfl⟩
  | ok body =>
    cases hflags : regularFlags body with
    | error f => exact Or.inr ⟨f, Or.inr ⟨body, rfl, hflags⟩⟩
    | ok found => exact Or.inl ⟨body, found.1, found.2, rfl, hflags⟩

theorem Beyond.regular (h : x.Beyond s t) : EndAlike x.Beyond Eq
    (Parse.scan Scanner.readRegularExpression s) (Parse.scan Scanner.readRegularExpression t) := by
  obtain ⟨later, u, v, hst⟩ := h
  obtain ⟨hwhole, hrespaced⟩ := hst.content
  rw [Parse.scan_apply, Parse.scan_apply]
  obtain ⟨body, flags, stop, hbody, hflags⟩ | ⟨f, hfails⟩ := regular_cases u
  · obtain ⟨hs, hs'⟩ := regular_shifted hst.cursor hbody hflags
    obtain ⟨ht, ht'⟩ := regular_shifted hst.cursorOther hbody hflags
    have hpos : 1 ≤ body.index := by
      obtain ⟨text, hp⟩ := regularBody_passes hbody
      rw [hp.index, byteLength_append]
      exact Nat.le_trans (Nat.le_add_left 1 _) (Nat.le_add_left _ _)
    have hcontent : s.script.content = x.front ++ x.gap ++ x.back := by
      rw [hwhole, List.append_assoc]
      rfl
    have hcontentOther : t.script.content = x.front ++ x.other ++ x.back := by
      rw [hrespaced, List.append_assoc]
      rfl
    obtain ⟨text, hp⟩ := Passage.regular_passes hbody hflags
    obtain ⟨_, hps⟩ := Passage.regular_passes hs hs'
    obtain ⟨_, hpt⟩ := Passage.regular_passes ht ht'
    have hback : x.back = later ++ text ++ stop.rest := by rw [hst.split, hp.rest, List.append_assoc]
    rw [Passage.regular_of_flags hs hs', Passage.regular_of_flags ht ht',
      regularBodyText_behind hcontent hst.token hpos, regularBodyText_behind hcontentOther hst.tokenOther hpos]
    let body' := String.ofList (unifiedLines ((slice? x.back (v.span.start + 1) (body.index - 1)).getD []))
    let readOn (bytes : Nat) (t : Token) : Token :=
      t.regular body' (String.ofList flags) (stop.shifted { bytes })
    refine .ok rfl ⟨later ++ text, { stop with passedLines := [], passedComments := [] },
      v.regular body' (String.ofList flags) stop, ?_⟩
    exact { hst with
      split := hback
      passed := (passed_to hst.passed hwhole hps hback).withToken _
      passedOther := (passed_to hst.passedOther hrespaced hpt hback).withToken _
      cursor := rfl
      cursorOther := rfl
      token := congrArg (readOn _) hst.token
      tokenOther := congrArg (readOn _) hst.tokenOther
      alike := ⟨hst.alike.problems, hst.alike.valid, hst.alike.included⟩ }
  · rw [regular_failed_shifted hst.cursor hfails, regular_failed_shifted hst.cursorOther hfails]
    refine .stopped (congrArg Stop.problem (f.problem_shifted _ _)) ?_
    exact Script.Alike.stopAt hst.alike f _ _

theorem Astray.regular (h : x.Astray c) :
    Strays x.Astray x.Arrived (Parse.scan Scanner.readRegularExpression c) := by
  obtain ⟨⟨read, hread⟩, hindex, hstop, hshort⟩ := h
  rw [Parse.scan_apply]
  obtain ⟨body, flags, stop, hbody, hflags, hnext⟩ | ⟨f, hnext⟩ := c.scanner.readRegularExpression_cases <;>
    rw [hnext]
  · obtain ⟨text, hp⟩ := Passage.regular_passes hbody hflags
    have hlater : byteLength x.front < stop.index := by
      rw [hp.index]
      omega
    exact .ok ⟨⟨_, (hread.moveTo hp).withToken _⟩, hlater, hlater, nofun⟩
  · exact .stopped fun harrived => hshort harrived.1 harrived.2

end Regular

/-- The states of the three readings. -/
def fork (x : Respacing) : Fork where
  before := x.Before
  beyond := x.Beyond
  astray := x.Astray
  arrived := x.Arrived
  before_short := Before.short
  before_proper := Before.proper
  astray_short := Astray.short
  before_view := Before.views
  beyond_view := Beyond.views
  beyond_alike := Beyond.alike
  before_next := Before.next
  beyond_next := Beyond.next
  astray_next := Astray.next
  before_regular := Before.regular
  beyond_regular := Beyond.regular
  astray_regular := Astray.regular
  before_split := Before.split
  beyond_split := fun h _ => h.split
  astray_split := Astray.split
  before_collect := Before.collect
  beyond_collect := Beyond.collect
  astray_collect := fun h _ => h.withScript rfl rfl
  before_functions := Before.withFunctions
  beyond_functions := Beyond.withFunctions
  astray_functions := fun h _ => h
  before_superFound := Before.withSuperFound
  beyond_superFound := Beyond.withSuperFound
  astray_superFound := fun h _ => h
  arrived_superFound := id
  before_addIncluded := Before.addIncluded
  beyond_addIncluded := Beyond.addIncluded
  astray_addIncluded := fun h _ => h.withScript rfl rfl

end Respacing

end ActionSyntax
