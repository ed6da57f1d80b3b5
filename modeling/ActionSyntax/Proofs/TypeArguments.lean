import Mathlib
import ActionSyntax.Proofs.Respacing.Crossing
import ActionSyntax.Proofs.UnionChains

/-!
Type arguments. They may be nested as deep as one likes, and then the signs that close them stand next to
each other, where the scanner takes several of them for one token. Each list of arguments takes one sign,
so every type ends with its own, in types, in expressions and behind `new`.
-/

namespace ActionSyntax

set_option autoImplicit false

open Utf8 Cursor Scan

namespace Scan

variable {gap rest : List Char}

/-- Blanks, line breaks and comments that are over where they end, unless a line begins there. -/
def Skipped (gap : List Char) : Prop := ∃ notes, Gap [] gap notes [',']

/-- Such a gap may stand anywhere. -/
theorem Skipped.anywhere (h : Skipped gap) (front : List Char)
    (hrest : ∀ ch ∈ rest.head?, CharClass.isLineTerminator ch = false) :
    ∃ notes, Gap front gap notes rest := by
  obtain ⟨notes, h⟩ := h
  have go : ∀ {before gap notes after}, Gap before gap notes after → after = [','] →
      ∀ front, ∃ notes, Gap front gap notes rest := by
    intro before gap notes after h
    induction h with
    | nil before after => exact fun _ front => ⟨[], .nil _ _⟩
    | blank blank below ih =>
      intro hafter front
      obtain ⟨notes, hbelow⟩ := ih hafter _
      exact ⟨notes, .blank blank hbelow⟩
    | @newline before terminator between after notes ends whole below ih =>
      intro hafter front
      obtain ⟨notes, hbelow⟩ := ih hafter _
      refine ⟨notes, .newline ends (fun hsplits => ?_) hbelow⟩
      obtain ⟨hlast, hhead⟩ := hsplits
      cases between with
      | nil =>
        have hfeed := hrest '\n' hhead
        exact absurd hfeed (by decide)
      | cons ch between => exact whole ⟨hlast, hhead⟩
    | @comment before between after notes form content complete below ih =>
      intro hafter front
      obtain ⟨notes, hbelow⟩ := ih hafter _
      refine ⟨_, .comment form content ?_ hbelow⟩
      cases form with
      | line =>
        refine ⟨complete.1, ?_⟩
        have hends := complete.2
        cases between with
        | nil =>
          rw [hafter] at hends
          exact absurd (hends ',' rfl) (by decide)
        | cons ch between => exact hends
      | block => exact complete
      | markup => exact complete
  exact go h rfl front

/-- A gap begins with a blank, a line break or a comment. -/
theorem Skipped.begins (h : Skipped gap) : ∀ ch ∈ gap.head?, ch ∈ '/' :: '<' :: spaces := by
  obtain ⟨notes, h⟩ := h
  intro ch hch
  cases h with
  | nil => cases hch
  | blank blank below =>
    cases hch
    exact List.mem_cons_of_mem _ (List.mem_cons_of_mem _ (mem_spaces (Or.inl blank)))
  | newline ends whole below =>
    obtain ⟨first, more, rfl, hfirst⟩ := terminators_head ends
    cases hch
    exact List.mem_cons_of_mem _ (List.mem_cons_of_mem _ (mem_spaces (Or.inr hfirst)))
  | comment form content complete below =>
    cases form <;> cases hch <;> decide

theorem Skipped.head (h : Skipped gap) {p : Char → Prop} (hspaces : ∀ ch ∈ '/' :: '<' :: spaces, p ch)
    (hrest : ∀ ch ∈ rest.head?, p ch) : ∀ ch ∈ (gap ++ rest).head?, p ch := by
  intro ch hch
  cases gap with
  | nil => exact hrest ch hch
  | cons first gap => exact hspaces ch (h.begins ch hch)

/-- The text goes on with a comma, or with a sign that closes type arguments. -/
def EndsArgument (rest : List Char) : Prop := rest.head? = some ',' ∨ rest.head? = some '>'

/-- Where signs stand, a mark is read. -/
theorem readable_greater (front more : List Char) : Scanner.Readable front ('>' :: more) := by
  have hhead : ('>' :: more).head? = some '>' := rfl
  obtain ⟨count, equals, rest, hleast, hmost, hwhole, hequals, hmore⟩ := greaterText_of_head hhead
  have htoken : Tokenizes [] (greaterText count equals) rest (greaterMark count equals) := by
    refine ⟨nofun, ?_, fun c hrest => ?_⟩
    · rw [← hwhole]
      exact greaterText_opens 0 false more
    · exact ⟨_, lexeme_greater hleast hmost hrest hequals hmore,
        passes_skip hrest (greaterText_narrow count equals)⟩
  rw [hwhole]
  exact htoken.scans front

namespace EndsArgument

theorem head (h : EndsArgument rest) {p : Char → Prop} (hcomma : p ',') (hsign : p '>') :
    ∀ ch ∈ rest.head?, p ch := by
  intro ch hch
  rcases h with h | h
  · obtain rfl : ',' = ch := Option.some.inj (h.symm.trans hch)
    exact hcomma
  · obtain rfl : '>' = ch := Option.some.inj (h.symm.trans hch)
    exact hsign

theorem readable (h : EndsArgument rest) (front : List Char) : Scanner.Readable front rest := by
  rcases h with h | h
  · obtain ⟨more, rfl⟩ := List.head?_eq_some_iff.mp h
    have htoken : Tokenizes [] [','] more _ := tokenizes_comma (List.forall_mem_nil _) more
    exact htoken.scans front
  · obtain ⟨more, rfl⟩ := List.head?_eq_some_iff.mp h
    exact readable_greater front more

end EndsArgument

end Scan

section Gaps

variable {front gap rest : List Char} {s : ParserState}

/-- The token behind a gap is the next one. -/
theorem Scanner.Passed.next_over {s : Scanner} (h : s.Passed front) (hrest : s.cursor.rest = gap ++ rest)
    (hgap : Skipped gap) (hplain : ∀ ch ∈ rest.head?, CharClass.isLineTerminator ch = false)
    (hscans : Scanner.Readable (front ++ gap) rest) :
    ∃ t : Scanner, t.Passed (front ++ gap) ∧ t.cursor.rest = rest ∧ t.next.1 = .ok () ∧ s.next = t.next := by
  obtain ⟨notes, hgap⟩ := hgap.anywhere front hplain
  obtain ⟨c, hpasses, htrivia⟩ := trivia_of_gap hgap h.behind hrest
  have hmoved := h.moveTo hpasses
  have hleft : (s.moveTo c).cursor.rest = rest := List.append_cancel_left (hpasses.rest.symm.trans hrest)
  subst hleft
  have hok := hscans (s.moveTo c).script
  have hread : (s.moveTo c).next = (.ok (), (s.moveTo c).next.2) := by
    rw [hmoved.next_behind hok]
    exact Prod.ext hok rfl
  exact ⟨_, hmoved, rfl, congrArg Prod.fst hread, (Scanner.next_moveTo htrivia hread).trans hread.symm⟩

theorem Scanner.Readable.over (h : Scanner.Readable (front ++ gap) rest) (hgap : Skipped gap)
    (hplain : ∀ ch ∈ rest.head?, CharClass.isLineTerminator ch = false)
    (hwhole : ¬ Lines.Splits front (gap ++ rest)) : Scanner.Readable front (gap ++ rest) := by
  let script : Script := { Script.ofSource "" (String.ofList (front ++ (gap ++ rest))) with
    lineStarts := (Lines.starts front).toArray }
  have hpassed : (Scanner.behind script front (gap ++ rest)).Passed front :=
    ⟨String.toList_ofList, ⟨rfl, rfl, hwhole⟩, rfl, rfl, rfl⟩
  obtain ⟨t, -, -, hok, hnext⟩ := hpassed.next_over rfl hgap hplain h
  rw [← hnext] at hok
  exact scans_of_ok hok

namespace ParserState

theorem Behind.faces_over (h : s.Behind front (gap ++ rest)) (hgap : Skipped gap)
    (hplain : ∀ ch ∈ rest.head?, CharClass.isLineTerminator ch = false)
    (hscans : Scanner.Readable (front ++ gap) rest) :
    ∃ t, Parse.next s = .ok () t ∧ t.Faces (front ++ gap) rest ∧ s.Keeps t := by
  obtain ⟨scanner, hpassed, hrest, hok, hnext⟩ := h.passed.next_over h.rest hgap hplain hscans
  have hscan : s.scanner.next = (.ok (), s.scanner.next.2) := Prod.ext (hnext ▸ hok) rfl
  obtain ⟨hpath, -, hvalid⟩ := Scanner.next_keeps hscan
  refine ⟨s.advance, ?_, ⟨scanner, hpassed, hrest, hnext.symm.trans hscan⟩, hpath, hvalid, rfl, rfl⟩
  rw [Parse.next_apply, hscan]

theorem Faces.over (h : s.Faces front (gap ++ rest)) (hgap : Skipped gap)
    (hplain : ∀ ch ∈ rest.head?, CharClass.isLineTerminator ch = false)
    (hscans : Scanner.Readable (front ++ gap) rest) : s.Faces (front ++ gap) rest := by
  obtain ⟨scanner, hpassed, hrest, hscan⟩ := h
  obtain ⟨t, hmoved, hleft, -, hnext⟩ := hpassed.next_over hrest hgap hplain hscans
  exact ⟨t, hmoved, hleft, hnext.symm.trans hscan⟩

end ParserState

end Gaps

namespace ParserState.Meets

variable {front rest more : List Char} {s : ParserState}

theorem onRun (h : s.Meets front ('>' :: more)) : ∃ count equals, s.scanner.OnRun front count equals := by
  cases h with
  | faces h =>
    obtain ⟨scanner, hpassed, hrest, hnext⟩ := h
    have htrivia := trivia_over (greaterText_opens 0 false more scanner.cursor hrest)
    obtain ⟨count, equals, -, hrun, -⟩ :=
      Scanner.OnRun.of_next hpassed (.refl _) htrivia (by rw [hrest]; rfl)
    rw [hnext, List.append_nil] at hrun
    exact ⟨count, equals, hrun⟩
  | signs head run _ => exact ⟨_, _, run⟩

theorem comma (h : s.Meets front (',' :: more)) :
    s.Behind (front ++ [',']) more ∧ s.token.kind = .comma := by
  have hfaces : s.Faces front ([] ++ ([','] ++ more)) := h.faces_of_head nofun
  obtain ⟨hbehind, htoken⟩ := hfaces.behind (tokenizes_comma (List.forall_mem_nil _) more)
  rw [List.append_nil] at hbehind
  exact ⟨hbehind, by rw [htoken]⟩

/-- A mark of a run is neither an arrow nor a suffix of a type. -/
theorem run_parts {count : Nat} {equals : Bool} (h : s.scanner.OnRun front count equals) :
    s.token.EndsType ∧ s.token.Parting := by
  have htoken : s.token = _ := h.token
  have hcount : count = 1 ∨ count = 2 ∨ count = 3 := by
    have hleast := h.least
    have hmost := h.most
    omega
  rw [htoken]
  rcases hcount with rfl | rfl | rfl <;> cases equals <;>
    exact ⟨⟨by simp [greaterMark], rfl⟩, ⟨by simp [greaterMark], rfl⟩⟩

/-- No type goes on there. -/
theorem parts (h : s.Meets front rest) (hrest : EndsArgument rest) :
    s.token.EndsType ∧ s.token.Parting := by
  rcases hrest with hrest | hrest
  · obtain ⟨more, rfl⟩ := List.head?_eq_some_iff.mp hrest
    have hkind := h.comma.2
    exact ⟨⟨by simp [hkind], by simp [Token.isOperator, hkind]⟩,
      ⟨by simp [hkind], by simp [Token.isOperator, hkind]⟩⟩
  · obtain ⟨more, rfl⟩ := List.head?_eq_some_iff.mp hrest
    obtain ⟨count, equals, hrun⟩ := h.onRun
    exact run_parts hrun

end ParserState.Meets

/-- An argument may stand in front of a comma or a closing sign. -/
theorem Scan.EndsArgument.followed {rest : List Char} (h : EndsArgument rest) (before piece : List Char) :
    (Passage.bare before piece rest).Followed where
  edged := by
    obtain ⟨ch, more, rfl⟩ : ∃ ch more, rest = ch :: more := by
      rcases h with h | h
      · exact ⟨_, List.head?_eq_some_iff.mp h⟩
      · exact ⟨_, List.head?_eq_some_iff.mp h⟩
    refine ⟨Or.inr ⟨ch, more, rfl, h.head (p := (· ∈ partings)) (by decide) (by decide) ch rfl⟩, ?_⟩
    intro last _ first hfirst
    have hne := h.head (p := fun ch => ch ≠ '|' ∧ ch ≠ '=' ∧ ch ≠ '\n') (by decide) (by decide) first hfirst
    exact ⟨fun _ => ⟨hne.1, hne.2.1⟩, fun _ => hne.2.2⟩
  readable := h.readable _
  token hmeets := (hmeets.parts h).2
  last hdot := absurd rfl (h.head (p := (· ≠ '.')) (by decide) (by decide) '.' hdot)

/-- In front of a comma or a closing sign, the text is read as a type. Its tree depends on where it
stands. -/
def ReadsType (host : Host) (path : String) (text : List Char) (type : List Char → TypeExpr) : Prop :=
  ∀ {n : Nat} {front rest : List Char} {w : ParserState}, text.length + 3 ≤ n → EndsArgument rest →
    w.Behind front (text ++ rest) → w.script.path = path → w.script.valid = true →
    ∃ t v, Parse.next w = .ok () t ∧ (host.level n).typeExprRule t = .ok (type front) v ∧
      v.Meets (front ++ text) rest ∧ v.script.path = path ∧ v.script.valid = true

/-- In front of a closing sign, the text is read as types that commas separate. -/
def ReadsTypes (host : Host) (path : String) (text : List Char) (types : List Char → List TypeExpr) : Prop :=
  ∀ {n fuel : Nat} {front more : List Char} {w : ParserState}, text.length + 3 ≤ n → text.length < fuel →
    w.Behind front (text ++ '>' :: more) → w.script.path = path → w.script.valid = true →
    ∃ t v, Parse.next w = .ok () t ∧ Parse.separated (host.level n).typeExprRule fuel t = .ok (types front) v ∧
      v.Meets (front ++ text) ('>' :: more) ∧ v.script.path = path ∧ v.script.valid = true

/-- The text by itself is accepted as this type, and no comment runs on behind it. -/
structure ArgumentText (host : Host) (path text : String) (type : TypeExpr) : Prop where
  accepted : (Parser.ofScript host (Script.ofSource path text)).parseType.1 = some type
  ended : ¬ EndsInComment host path text

/-- What type arguments are given to, up to the sign that opens them: a text with the type that it is by
itself, and what stands between the dot and the sign. -/
structure GenericOpening where
  base : String
  own : TypeExpr
  gap : List Char

namespace GenericOpening

def text (o : GenericOpening) : List Char := o.base.toList ++ '.' :: (o.gap ++ ['<'])

/-- A question mark in front of the dot would be read together with it. -/
structure Proper (host : Host) (path : String) (o : GenericOpening) : Prop where
  base : TypeText host path o.base o.own
  ended : ¬ EndsInComment host path o.base
  last : ∀ ch ∈ o.base.toList.getLast?, ch ∉ ['?', '.']
  gap : Skipped o.gap

/-- The type that the base is, where it stands behind the beginning of the text. -/
def baseType (o : GenericOpening) (front : List Char) : TypeExpr :=
  o.own.moved (byteLength front) (Lines.ends 0 front).length

/-- The tree of the whole type, which ends with its own closing sign. -/
def type (o : GenericOpening) (arguments : List Char) (types : List Char → List TypeExpr)
    (front : List Char) : TypeExpr :=
  .instantiation ((Mark.ofSpan (o.baseType front).span).«to» (greaterAt (front ++ o.text ++ arguments)).span)
    (o.baseType front) (types (front ++ o.text))

end GenericOpening

mutual

/-- A type with type arguments, which may have type arguments themselves, and what stands behind its closing
sign. Whatever else may be an argument is given as a text with the type that it is by itself. -/
inductive GenericType where
  | other (text : String) (own : TypeExpr)
  | instantiation (opening : GenericOpening) (arguments : GenericTypes) (behind : List Char)

/-- One or more types with commas between them. -/
inductive GenericTypes where
  | last (type : GenericType)
  | more (type : GenericType) (rest : GenericTypes)

end

mutual

def GenericType.text : GenericType → List Char
  | .other text _ => text.toList
  | .instantiation opening arguments behind => opening.text ++ (arguments.text ++ '>' :: behind)

def GenericTypes.text : GenericTypes → List Char
  | .last type => type.text
  | .more type rest => type.text ++ ',' :: rest.text

end

mutual

/-- The tree of the type, where it stands behind the beginning of the text. -/
def GenericType.type : GenericType → List Char → TypeExpr
  | .other _ own => fun front => own.moved (byteLength front) (Lines.ends 0 front).length
  | .instantiation opening arguments _ => opening.type arguments.text arguments.types

def GenericTypes.types : GenericTypes → List Char → List TypeExpr
  | .last type => fun front => [type.type front]
  | .more type rest => fun front => type.type front :: rest.types (front ++ type.text ++ [','])

end

mutual

def GenericType.Proper (host : Host) (path : String) : GenericType → Prop
  | .other text own => ArgumentText host path text own
  | .instantiation opening arguments behind =>
    opening.Proper host path ∧ arguments.Proper host path ∧
      (∀ ch ∈ arguments.text.head?, ch ∉ ['<', '=', '/', '!']) ∧ Skipped behind

def GenericTypes.Proper (host : Host) (path : String) : GenericTypes → Prop
  | .last type => type.Proper host path
  | .more type rest => type.Proper host path ∧ rest.Proper host path

end

section Readings

open Rules Parse

variable {host : Host} {path text : String} {n : Nat} {front tail : List Char} {s w : ParserState}

/-- What a text is by itself, it is where an argument is expected. -/
theorem ArgumentText.reads {own : TypeExpr} (h : ArgumentText host path text own) :
    ReadsType host path text.toList fun front => own.moved (byteLength front) (Lines.ends 0 front).length := by
  intro n front rest w hn hrest hw hpath hvalid
  have hw : w.Behind front ([] ++ (text.toList ++ rest)) := hw
  obtain ⟨t, v, hnext, hread, hpast, hkeeps⟩ := Parser.parseType_within h.accepted (hrest.followed _ _)
    (fun hmeets => (hmeets.parts hrest).1) hw nofun nofun hpath hvalid
    (fun hcomment => absurd hcomment h.ended) hn
  rw [List.append_nil] at hread hpast
  exact ⟨t, v, hnext, hread, hpast.meets, hkeeps.path.trans hpath, hkeeps.valid.trans hvalid⟩

/-- Type arguments may end with any of their types. -/
theorem ReadsType.last {text : List Char} {type : List Char → TypeExpr} (h : ReadsType host path text type) :
    ReadsTypes host path text fun front => [type front] := by
  intro n fuel front more w hn hfuel hw hpath hvalid
  obtain ⟨fuel, rfl⟩ : ∃ k, fuel = k + 1 := ⟨fuel - 1, by omega⟩
  obtain ⟨t, v, hnext, hread, hmeets, hpath', hvalid'⟩ := h hn (Or.inr rfl) hw hpath hvalid
  obtain ⟨count, equals, hrun⟩ := hmeets.onRun
  have hcomma : v.token.kind ≠ .comma := by
    have htoken : v.token = _ := hrun.token
    rw [htoken]
    rcases greaterMark_kind count equals with hkind | hkind <;> simp [hkind]
  refine ⟨t, v, hnext, ?_, hmeets, hpath', hvalid'⟩
  rw [separated, bind_of_ok hread, bind_of_ok (consume_no hcomma)]
  rfl

/-- Behind a comma stand more of them. -/
theorem ReadsType.more {text others : List Char} {type : List Char → TypeExpr}
    {types : List Char → List TypeExpr} (h : ReadsType host path text type)
    (hothers : ReadsTypes host path others types) :
    ReadsTypes host path (text ++ ',' :: others) fun front =>
      type front :: types (front ++ text ++ [',']) := by
  intro n fuel front more w hn hfuel hw hpath hvalid
  have hwhole : text ++ ',' :: others ++ '>' :: more = text ++ ',' :: (others ++ '>' :: more) := by simp
  have hfront : front ++ text ++ [','] ++ others = front ++ (text ++ ',' :: others) := by simp
  rw [hwhole] at hw
  simp only [List.length_append, List.length_cons] at hn hfuel
  obtain ⟨fuel, rfl⟩ : ∃ k, fuel = k + 1 := ⟨fuel - 1, by omega⟩
  obtain ⟨t, u, hnext, hread, hmeets, hpath', hvalid'⟩ := h (n := n) (by omega) (Or.inl rfl) hw hpath hvalid
  obtain ⟨hbehind, hcomma⟩ := hmeets.comma
  obtain ⟨u', v, hnext', hmore, hmeets', hpath'', hvalid''⟩ :=
    hothers (n := n) (by omega) (show others.length < fuel by omega) hbehind hpath' hvalid'
  refine ⟨t, v, hnext, ?_, hfront ▸ hmeets', hpath'', hvalid''⟩
  rw [separated, bind_of_ok hread, bind_of_ok (consume_yes hcomma hnext'), if_pos rfl, bind_of_ok hmore]
  rfl

/-- Type arguments are read up to the sign that closes them. -/
theorem ReadsTypes.closed {text : List Char} {types : List Char → List TypeExpr}
    (h : ReadsTypes host path text types) (hn : text.length + 4 ≤ n) (hw : w.Behind front (text ++ '>' :: tail))
    (hpath : w.script.path = path) (hvalid : w.script.valid = true)
    (htail : tail.head? = some '>' ∨ tail.head? = some '=' ∨
      Scanner.Readable (front ++ text ++ ['>']) tail) :
    ∃ t u v, Parse.next w = .ok () t ∧ (host.level n).typeArguments t = .ok (types front) v ∧
      v.previous = greaterAt (front ++ text) ∧ ParserState.PastGreater (front ++ text ++ ['>']) tail u v ∧
      u.script.content = front ++ text ++ ['>'] ++ tail ∧ v.script.path = path ∧ v.script.valid = true := by
  obtain ⟨n, rfl⟩ : ∃ k, n = k + 1 := ⟨n - 1, by omega⟩
  have hrounds : text.length < (host.level (n + 1)).rounds := by
    show text.length < n + 1 + 2
    omega
  obtain ⟨t, u, hnext, hread, hmeets, hpath', hvalid'⟩ := h (n := n) (by omega) hrounds hw hpath hvalid
  obtain ⟨count, equals, hrun⟩ := hmeets.onRun
  have hcontent := hmeets.content
  obtain ⟨v, hclose, hprevious, hpast, hkeeps⟩ := ParserState.take_greater hrun hcontent
    (htail.imp_right (Or.imp_right fun hscans => hscans _))
  refine ⟨t, u, v, hnext, ?_, hprevious, hpast, ?_, hkeeps.path.trans hpath', hkeeps.valid.trans hvalid'⟩
  · have hread : separated (host.level (n + 1)).typeExpr (host.level (n + 1)).rounds t = .ok (types front) u :=
      hread
    unfold typeArguments
    rw [bind_of_ok hread, bind_of_ok hclose]
    rfl
  · rw [hcontent]
    simp

variable {o : GenericOpening} {arguments : List Char} {types : List Char → List TypeExpr}

/-- What arguments are given to is read, with the sign that opens them. -/
theorem GenericOpening.Proper.read (ho : o.Proper host path)
    (hbegins : ∀ ch ∈ arguments.head?, ch ∉ ['<', '=', '/', '!'])
    (hw : w.Behind front (o.text ++ arguments)) (hpath : w.script.path = path)
    (hvalid : w.script.valid = true) (hn : o.base.toList.length + 3 ≤ n) :
    ∃ t u v fuel, Parse.next w = .ok () t ∧
      (host.level n).typeExprRule t = (host.level n).typeSuffixes
        (fuel + 1 + (n - (o.base.toList.length + 3))) (o.baseType front) u ∧
      u.token.kind = .dot ∧ Parse.next u = .ok () v ∧ v.token.isOperator .less = true ∧
      v.Behind (front ++ o.text) arguments ∧ v.script.path = path ∧ v.script.valid = true := by
  have hless : Tokenizes [] ['<'] arguments { kind := .operator, operator := some .less } :=
    tokenizes_less nofun hbegins
  have hdot : Tokenizes [] ['.'] (o.gap ++ '<' :: arguments) { kind := .dot } :=
    tokenizes_dot nofun (ho.gap.head (by decide) fun ch hch => by cases hch; decide)
  have hfollowed : (Passage.bare (front ++ []) o.base.toList ('.' :: (o.gap ++ '<' :: arguments))).Followed := by
    refine ⟨⟨Or.inr ⟨'.', _, rfl, by decide⟩, ?_⟩, hdot.scans _, fun hmeets => ?_, fun _ => ho.last⟩
    · intro last _ first hfirst
      cases hfirst
      exact ⟨fun _ => by decide, fun _ => by decide⟩
    · have hfaces := hmeets.faces_of_head nofun
      obtain ⟨-, htoken⟩ := ParserState.Faces.behind hfaces hdot
      rw [htoken]
      exact ⟨by simp, rfl⟩
  have htext : o.text ++ arguments = o.base.toList ++ '.' :: (o.gap ++ '<' :: arguments) := by
    simp [GenericOpening.text]
  have hfront : front ++ o.base.toList ++ ['.'] ++ o.gap ++ ['<'] = front ++ o.text := by
    simp [GenericOpening.text]
  rw [htext] at hw
  have hw : w.Behind front ([] ++ (o.base.toList ++ '.' :: (o.gap ++ '<' :: arguments))) := hw
  obtain ⟨t, u, fuel, hnext, hread, hfaces, hpath', hvalid'⟩ := ho.base.read hfollowed nofun hw
    nofun nofun hpath hvalid (fun hcomment => absurd hcomment ho.ended) hn
  rw [List.append_nil] at hread hfaces
  obtain ⟨hbehind, htoken⟩ := ParserState.Faces.behind hfaces hdot
  rw [List.append_nil] at hbehind
  obtain ⟨v, hnext', hfaces', hkeeps⟩ := hbehind.faces_over ho.gap (fun ch hch => by cases hch; decide)
    (hless.scans _)
  obtain ⟨hbehind', htoken'⟩ := ParserState.Faces.behind hfaces' hless
  rw [List.append_nil, hfront] at hbehind'
  refine ⟨t, u, v, fuel, hnext, hread, by rw [htoken], hnext', ?_, hbehind', hkeeps.path.trans hpath',
    hkeeps.valid.trans hvalid'⟩
  rw [htoken']
  rfl

/-- A type with type arguments is read up to its own closing sign. What stands behind the sign is current
then, and says whether the type goes on. -/
theorem GenericOpening.Proper.instantiation (ho : o.Proper host path)
    (harguments : ReadsTypes host path arguments types)
    (hbegins : ∀ ch ∈ arguments.head?, ch ∉ ['<', '=', '/', '!'])
    (hn : (o.text ++ arguments).length + 3 ≤ n) (hw : w.Behind front (o.text ++ (arguments ++ '>' :: tail)))
    (hpath : w.script.path = path) (hvalid : w.script.valid = true)
    (htail : tail.head? = some '>' ∨ tail.head? = some '=' ∨
      Scanner.Readable (front ++ o.text ++ arguments ++ ['>']) tail) :
    ∃ t u v fuel, Parse.next w = .ok () t ∧ (host.level n).typeExprRule t =
        (host.level n).typeSuffixes (fuel + 1) (o.type arguments types front) v ∧
      ParserState.PastGreater (front ++ o.text ++ arguments ++ ['>']) tail u v ∧
      u.script.content = front ++ o.text ++ arguments ++ ['>'] ++ tail ∧ v.script.path = path ∧
      v.script.valid = true := by
  have hlength : o.base.toList.length + (o.gap.length + arguments.length) + 5 ≤ n := by
    simp only [GenericOpening.text, List.length_append, List.length_cons, List.length_nil] at hn
    omega
  have hbegins' : ∀ ch ∈ (arguments ++ '>' :: tail).head?, ch ∉ ['<', '=', '/', '!'] := by
    cases arguments with
    | nil =>
      rintro ch ⟨⟩
      decide
    | cons first arguments => exact hbegins
  obtain ⟨t, u, v, fuel, hnext, hread, hdot, hnext', hless, hbehind, hpath', hvalid'⟩ :=
    ho.read (n := n) hbegins' hw hpath hvalid (by omega)
  obtain ⟨t', u', v', hnext'', harguments, hprevious, hpast, hcontent, hpath'', hvalid''⟩ :=
    harguments.closed (n := n) (by omega) hbehind hpath' hvalid' htail
  obtain ⟨k, hk⟩ : ∃ k, n - (o.base.toList.length + 3) = k + 1 := ⟨n - (o.base.toList.length + 4), by omega⟩
  refine ⟨t, u', v', fuel + k, hnext, ?_, hpast, hcontent, hpath'', hvalid''⟩
  have hmember : (host.level n).typeMember (Mark.ofSpan (o.baseType front).span) (o.baseType front) v =
      .ok (o.type arguments types front) v' := by
    rw [typeMember_arguments hless hnext'' harguments, hprevious]
    rfl
  rw [hread, hk, show fuel + 1 + (k + 1) = fuel + k + 1 + 1 by omega]
  exact typeSuffixes_some (typeSuffix?_dot hdot hnext' hmember) _

/-- What may stand behind the closing sign is passed. -/
theorem GenericOpening.Proper.read_over (ho : o.Proper host path)
    (harguments : ReadsTypes host path arguments types)
    (hbegins : ∀ ch ∈ arguments.head?, ch ∉ ['<', '=', '/', '!']) {behind rest : List Char}
    (hbehind : Skipped behind) (hplain : ∀ ch ∈ rest.head?, CharClass.isLineTerminator ch = false)
    (hequals : ∀ ch ∈ rest.head?, ch ≠ '=')
    (hscans : Scanner.Readable (front ++ (o.text ++ (arguments ++ '>' :: behind))) rest)
    (hn : (o.text ++ (arguments ++ '>' :: behind)).length + 3 ≤ n)
    (hw : w.Behind front (o.text ++ (arguments ++ '>' :: behind) ++ rest)) (hpath : w.script.path = path)
    (hvalid : w.script.valid = true) :
    ∃ t v fuel, Parse.next w = .ok () t ∧ (host.level n).typeExprRule t =
        (host.level n).typeSuffixes (fuel + 1) (o.type arguments types front) v ∧
      v.Meets (front ++ (o.text ++ (arguments ++ '>' :: behind))) rest ∧ v.script.path = path ∧
      v.script.valid = true := by
  have htext : o.text ++ (arguments ++ '>' :: behind) ++ rest =
      o.text ++ (arguments ++ '>' :: (behind ++ rest)) := by simp
  have hfront : front ++ (o.text ++ (arguments ++ '>' :: behind)) =
      front ++ o.text ++ arguments ++ ['>'] ++ behind := by simp
  have hlength : (o.text ++ arguments).length + 3 ≤ n := by
    simp only [List.length_append, List.length_cons] at hn ⊢
    omega
  rw [htext] at hw
  rw [hfront] at hscans
  have hover : Scanner.Readable (front ++ o.text ++ arguments ++ ['>']) (behind ++ rest) :=
    hscans.over hbehind hplain (Lines.not_splits_of_last (by decide) _ _)
  obtain ⟨t, u, v, fuel, hnext, hread, hpast, hcontent, hpath', hvalid'⟩ :=
    ho.instantiation harguments hbegins hlength hw hpath hvalid (Or.inr (Or.inr hover))
  have hmeets := hpast.meets hcontent fun hhead => hbehind.head (by decide) hequals '=' hhead rfl
  refine ⟨t, v, fuel, hnext, hread, ?_, hpath', hvalid'⟩
  rw [hfront]
  cases behind with
  | nil => rwa [List.append_nil]
  | cons first behind =>
    have hsign : (first :: behind ++ rest).head? ≠ some '>' := fun hhead =>
      absurd (hbehind.begins '>' hhead) (by decide)
    exact .faces ((hmeets.faces_of_head hsign).over hbehind hplain hscans)

/-- Type arguments are types that are read in front of a comma or a closing sign. -/
theorem GenericOpening.Proper.reads (ho : o.Proper host path)
    (harguments : ReadsTypes host path arguments types)
    (hbegins : ∀ ch ∈ arguments.head?, ch ∉ ['<', '=', '/', '!']) {behind : List Char}
    (hbehind : Skipped behind) :
    ReadsType host path (o.text ++ (arguments ++ '>' :: behind)) (o.type arguments types) := by
  intro n front rest w hn hrest hw hpath hvalid
  obtain ⟨t, v, fuel, hnext, hread, hmeets, hpath', hvalid'⟩ := ho.read_over harguments hbegins hbehind
    (hrest.head (by decide) (by decide)) (hrest.head (by decide) (by decide)) (hrest.readable _) hn hw
    hpath hvalid
  exact ⟨t, v, hnext, hread.trans (typeSuffixes_over (hmeets.parts hrest).1 _ _), hmeets, hpath', hvalid'⟩

end Readings

mutual

/-- A type is read wherever it may be an argument. -/
theorem GenericType.reads {host : Host} {path : String} (type : GenericType) (h : type.Proper host path) :
    ReadsType host path type.text type.type :=
  match type with
  | .other _ _ => h.reads
  | .instantiation _ arguments _ => h.1.reads (arguments.reads h.2.1) h.2.2.1 h.2.2.2

theorem GenericTypes.reads {host : Host} {path : String} (types : GenericTypes) (h : types.Proper host path) :
    ReadsTypes host path types.text types.types :=
  match types with
  | .last type => ReadsType.last (type.reads h)
  | .more type rest => ReadsType.more (type.reads h.1) (rest.reads h.2)

end

/-- Behind a closing sign, the equals sign that stands there is current, or else what begins there: the next
token, or what is left of a mark. -/
def ParserState.BehindClosing (front tail : List Char) (s : ParserState) : Prop :=
  (∃ more, tail = '=' :: more ∧ s.token = { kind := .assign, span := Lines.spanOf front ['='] }) ∨
    tail.head? ≠ some '=' ∧ s.Meets front tail

theorem ParserState.PastGreater.behindClosing {front tail : List Char} {s t : ParserState}
    (h : PastGreater front tail s t) (hcontent : s.script.content = front ++ tail) :
    t.BehindClosing front tail := by
  by_cases hequals : tail.head? = some '='
  · cases h with
    | signs head => exact absurd (hequals.symm.trans head) (by decide)
    | equals head scanner => exact Or.inl ⟨_, head, congrArg Scanner.token scanner⟩
    | other _ equals => exact absurd hequals equals
  · exact Or.inr ⟨hequals, h.meets hcontent hequals⟩

section Whole

open Rules Parse

variable {host : Host} {path source : String} {n : Nat} {front tail behind : List Char} {s w : ParserState}
  {o : GenericOpening} {arguments : GenericTypes}

theorem continuation?_dot {allowIn : Bool} {level : Precedence} (hkind : s.token.kind = .dot) :
    continuation? allowIn level s = some .dot := by
  unfold continuation? OperatorRule.between? OperatorRule.behind?
  simp [hkind, Token.isKeyword, Token.isContextKeyword]

/-- Behind a dot, type arguments are read whatever they are given to: a type, an expression, or an
expression behind `new`. -/
theorem GenericTypes.Proper.read_behind (h : arguments.Proper host w.script.path)
    (hvalid : w.script.valid = true) (hn : arguments.text.length + 4 ≤ n) (hdot : s.token.kind = .dot)
    (hnext : Parse.next s = .ok () w) (hless : w.token.isOperator .less = true)
    (hw : w.Behind front (arguments.text ++ '>' :: tail))
    (htail : tail.head? = some '>' ∨ tail.head? = some '=' ∨
      Scanner.Readable (front ++ arguments.text ++ ['>']) tail) :
    ∃ t, t.BehindClosing (front ++ arguments.text ++ ['>']) tail ∧
      (∀ base, (host.level n).typeSuffix? base s = .ok (some (.instantiation
        ((Mark.ofSpan base.span).«to» (greaterAt (front ++ arguments.text)).span) base
        (arguments.types front))) t) ∧
      (∀ base allowIn level fuel, (host.level n).continuations allowIn level (fuel + 1) base s =
        (host.level n).continuations allowIn level fuel (.instantiation
          ((Mark.ofSpan base.span).«to» (greaterAt (front ++ arguments.text)).span) base
          (arguments.types front)) t) ∧
      ∀ base fuel, (host.level n).newBase (fuel + 1) base s = (host.level n).newBase fuel (.instantiation
        ((Mark.ofSpan base.span).«to» (greaterAt (front ++ arguments.text)).span) base
        (arguments.types front)) t := by
  obtain ⟨t, u, v, hnext', harguments, hprevious, hpast, hcontent, -⟩ :=
    ReadsTypes.closed (arguments.reads h) hn hw rfl hvalid htail
  have hmember : ∀ m base, (host.level n).dotContinuation m base w = .ok (.instantiation
      (m.«to» (greaterAt (front ++ arguments.text)).span) base (arguments.types front)) v := by
    intro m base
    have hopen : consumeOperator .less w = .ok true t := consumeIf_yes hless hnext'
    unfold dotContinuation
    rw [bind_of_ok hopen, if_pos rfl, bind_of_ok harguments, finish_bind, hprevious]
    rfl
  refine ⟨v, hpast.behindClosing hcontent, fun base => ?_, fun base allowIn level fuel => ?_,
    fun base fuel => ?_⟩
  · refine typeSuffix?_dot hdot hnext ?_
    rw [typeMember_arguments hless hnext' harguments, hprevious]
  · rw [RulesShadow.continuations_some (continuation?_dot hdot), bind_of_ok hnext]
    exact bind_of_ok (hmember _ _) _
  · have hconsume : consume .dot s = .ok true w := consume_yes hdot hnext
    rw [newBase, bind_of_ok hconsume, if_pos rfl, bind_of_ok (hmember _ _)]

/-- A type with type arguments is read wherever a type may stand, and goes on or not with what stands behind
its own closing sign. -/
theorem GenericOpening.Proper.read_past (ho : o.Proper host path) (harguments : arguments.Proper host path)
    (hbegins : ∀ ch ∈ arguments.text.head?, ch ∉ ['<', '=', '/', '!'])
    (hn : (o.text ++ arguments.text).length + 3 ≤ n)
    (hw : w.Behind front (o.text ++ (arguments.text ++ '>' :: tail))) (hpath : w.script.path = path)
    (hvalid : w.script.valid = true)
    (htail : tail.head? = some '>' ∨ tail.head? = some '=' ∨
      Scanner.Readable (front ++ o.text ++ arguments.text ++ ['>']) tail) :
    ∃ t v fuel, Parse.next w = .ok () t ∧ (host.level n).typeExprRule t =
        (host.level n).typeSuffixes (fuel + 1) (o.type arguments.text arguments.types front) v ∧
      v.BehindClosing (front ++ o.text ++ arguments.text ++ ['>']) tail := by
  obtain ⟨t, u, v, fuel, hnext, hread, hpast, hcontent, -⟩ :=
    ho.instantiation (arguments.reads harguments) hbegins hn hw hpath hvalid htail
  exact ⟨t, v, fuel, hnext, hread, hpast.behindClosing hcontent⟩

/-- A text that is a type with type arguments is accepted. -/
theorem Parser.parseType_arguments (h : (GenericType.instantiation o arguments behind).Proper host path)
    (hsource : source.toList = (GenericType.instantiation o arguments behind).text) :
    (Parser.ofScript host (Script.ofSource path source)).parseType.1 =
      some ((GenericType.instantiation o arguments behind).type []) := by
  obtain ⟨ho, harguments, hbegins, hbehind⟩ := h
  have hw : (ParserState.ofScript (Script.ofSource path source)).Behind []
      (o.text ++ (arguments.text ++ '>' :: behind) ++ []) :=
    ⟨.ofSource path source, hsource.trans (List.append_nil _).symm⟩
  have hn : (o.text ++ (arguments.text ++ '>' :: behind)).length + 3 ≤ source.toList.length + 3 := by
    rw [hsource]
    exact Nat.le_refl _
  obtain ⟨t, v, fuel, hnext, hread, hmeets, -, hvalid⟩ := ho.read_over (arguments.reads harguments) hbegins
    hbehind (by simp) (by simp) (tokenizes_end.scans _) hn hw rfl rfl
  have hfaces := hmeets.faces_of_head nofun
  obtain ⟨-, htoken⟩ := ParserState.Faces.behind hfaces tokenizes_end
  have hkind : v.token.kind = .endOfProgram := by rw [htoken]
  exact Parser.parseType_of_read hnext
    (hread.trans (typeSuffixes_over (.of_closing (Or.inr hkind)) _ _)) hkind hvalid

end Whole

/-- Where the current token begins a run of signs, each of them is taken when one is expected, however the
run has been grouped into tokens. Then the equals sign behind the run is current, or else the token that
stands there. So type arguments that are nested in each other are read, behind whatever type or expression
they are given to, and every one of them ends with its own sign, in front of an equals sign or anything
else; a text that is nothing but such a type is accepted. -/
theorem greater_signs_taken_singly :
    (∀ {path source : String} {s : ParserState} {front tail : List Char} {run : Nat},
      Walk (ParserState.ofScript (Script.ofSource path source)) s → s.token.Operates → 1 ≤ run →
      s.script.content = front ++ (List.replicate run '>' ++ tail) → tail.head? ≠ some '>' →
      s.token.span.start = byteLength front →
      (tail.head? = some '=' ∨
        (Scanner.behind s.script (front ++ List.replicate run '>') tail).next.1 = .ok ()) →
      ∃ states : Nat → ParserState, states 0 = s ∧
        (∀ i < run, Parse.expectGreater (states i) = .ok () (states (i + 1)) ∧
          (states (i + 1)).previous = greaterAt (front ++ List.replicate i '>')) ∧
        ((∃ rest, tail = '=' :: rest ∧ (states run).token =
            { kind := .assign, span := Lines.spanOf (front ++ List.replicate run '>') ['='] }) ∨
          tail.head? ≠ some '=' ∧ (states run).token =
            (Scanner.behind s.script (front ++ List.replicate run '>') tail).next.2.token)) ∧
    (∀ (host : Host) {n : Nat} {front tail : List Char} {s w : ParserState} {arguments : GenericTypes},
      arguments.Proper host w.script.path → w.script.valid = true → arguments.text.length + 4 ≤ n →
      s.token.kind = .dot → Parse.next s = .ok () w → w.token.isOperator .less = true →
      w.Behind front (arguments.text ++ '>' :: tail) →
      (tail.head? = some '>' ∨ tail.head? = some '=' ∨
        Scanner.Readable (front ++ arguments.text ++ ['>']) tail) →
      ∃ t, t.BehindClosing (front ++ arguments.text ++ ['>']) tail ∧
        (∀ base, (host.level n).typeSuffix? base s = .ok (some (.instantiation
          ((Mark.ofSpan base.span).«to» (greaterAt (front ++ arguments.text)).span) base
          (arguments.types front))) t) ∧
        (∀ base allowIn level fuel, (host.level n).continuations allowIn level (fuel + 1) base s =
          (host.level n).continuations allowIn level fuel (.instantiation
            ((Mark.ofSpan base.span).«to» (greaterAt (front ++ arguments.text)).span) base
            (arguments.types front)) t) ∧
        ∀ base fuel, (host.level n).newBase (fuel + 1) base s = (host.level n).newBase fuel (.instantiation
          ((Mark.ofSpan base.span).«to» (greaterAt (front ++ arguments.text)).span) base
          (arguments.types front)) t) ∧
    (∀ (host : Host) {path : String} {n : Nat} {front tail : List Char} {w : ParserState}
      {o : GenericOpening} {arguments : GenericTypes}, o.Proper host path → arguments.Proper host path →
      (∀ ch ∈ arguments.text.head?, ch ∉ ['<', '=', '/', '!']) →
      (o.text ++ arguments.text).length + 3 ≤ n → w.Behind front (o.text ++ (arguments.text ++ '>' :: tail)) →
      w.script.path = path → w.script.valid = true →
      (tail.head? = some '>' ∨ tail.head? = some '=' ∨
        Scanner.Readable (front ++ o.text ++ arguments.text ++ ['>']) tail) →
      ∃ t v fuel, Parse.next w = .ok () t ∧ (host.level n).typeExprRule t =
          (host.level n).typeSuffixes (fuel + 1) (o.type arguments.text arguments.types front) v ∧
        v.BehindClosing (front ++ o.text ++ arguments.text ++ ['>']) tail) ∧
    ∀ (host : Host) (path : String) {source : String} {o : GenericOpening} {arguments : GenericTypes}
      {behind : List Char}, (GenericType.instantiation o arguments behind).Proper host path →
      source.toList = (GenericType.instantiation o arguments behind).text →
      (Parser.ofScript host (Script.ofSource path source)).parseType.1 =
        some ((GenericType.instantiation o arguments behind).type []) := by
  refine ⟨?_, ?_, ?_, ?_⟩
  · intro path source s front tail run hwalk hoperates hrun hcontent htail hstart hbehind
    exact expectGreater_run hwalk hoperates hrun hcontent htail hstart hbehind
  · intro host n front tail s w arguments h hvalid hn hdot hnext hless hw htail
    exact h.read_behind hvalid hn hdot hnext hless hw htail
  · intro host path n front tail w o arguments ho harguments hbegins hn hw hpath hvalid htail
    exact ho.read_past harguments hbegins hn hw hpath hvalid htail
  · intro host path source o arguments behind h hsource
    exact Parser.parseType_arguments h hsource

/-- Four signs and an equals sign, of which the scanner makes two tokens; a call behind nested arguments; an
equals sign behind those of a member of a name; a comment between the dot and arguments, of which one ends
with arguments itself. -/
theorem greater_signs_taken_singly_nested :
    (let s := (ParserState.ofScript (Script.ofSource "/a.es" ">>>>=")).scanned;
      s.token.operator = some .shiftRightUnsigned ∧ ∃ states : Nat → ParserState, states 0 = s ∧
        (∀ i < 4, Parse.expectGreater (states i) = .ok () (states (i + 1)) ∧
          (states (i + 1)).previous = greaterAt (List.replicate i '>')) ∧
        (states 4).token = { kind := .assign, span := ⟨1, 1, 4, 5⟩ }) ∧
    (let s := (ParserState.ofScript (Script.ofSource "/a.es" "f.<a.<b>>(x)")).advance.advance;
      s.token.kind = .dot ∧ ∃ t, (Parse.kind t = .ok .leftParen t) ∧
        (∀ base fuel, ((Host.ofFiles []).level 20).continuations true .list (fuel + 1) base s =
          ((Host.ofFiles []).level 20).continuations true .list fuel (.instantiation
            ((Mark.ofSpan base.span).«to» ⟨1, 1, 8, 9⟩) base
            [.instantiation ⟨1, 1, 3, 8⟩ (.name ⟨1, 1, 3, 4⟩ "a") [.name ⟨1, 1, 6, 7⟩ "b"]]) t) ∧
        ∀ base fuel, ((Host.ofFiles []).level 20).newBase (fuel + 1) base s =
          ((Host.ofFiles []).level 20).newBase fuel (.instantiation
            ((Mark.ofSpan base.span).«to» ⟨1, 1, 8, 9⟩) base
            [.instantiation ⟨1, 1, 3, 8⟩ (.name ⟨1, 1, 3, 4⟩ "a") [.name ⟨1, 1, 6, 7⟩ "b"]]) t) ∧
    (∃ t v fuel, Parse.next (ParserState.ofScript (Script.ofSource "/a.es" "a.b.<c.<d>>=1")) = .ok () t ∧
      ((Host.ofFiles []).level 20).typeExprRule t = ((Host.ofFiles []).level 20).typeSuffixes (fuel + 1)
        (.instantiation ⟨1, 1, 0, 11⟩
          (.member ⟨1, 1, 0, 3⟩ (.name ⟨1, 1, 0, 1⟩ "a") { span := ⟨1, 1, 2, 3⟩, name := "b" })
          [.instantiation ⟨1, 1, 5, 10⟩ (.name ⟨1, 1, 5, 6⟩ "c") [.name ⟨1, 1, 8, 9⟩ "d"]]) v ∧
      v.token = { kind := .assign, span := ⟨1, 1, 11, 12⟩ }) ∧
    (Parser.ofScript (Host.ofFiles []) (Script.ofSource "/a.es" "a./**/<b|c.<d>>")).parseType.1 =
      some (.instantiation ⟨1, 1, 0, 15⟩ (.name ⟨1, 1, 0, 1⟩ "a") [.union ⟨1, 1, 7, 14⟩ [.name ⟨1, 1, 7, 8⟩ "b",
        .instantiation ⟨1, 1, 9, 14⟩ (.name ⟨1, 1, 9, 10⟩ "c") [.name ⟨1, 1, 12, 13⟩ "d"]]]) := by
  let host : Host := Host.ofFiles []
  -- The names are types by themselves, and no comment stands in any of the texts.
  have hname : ∀ name ∈ ["a", "b", "c", "d"], TypeText host "/a.es" name (.name ⟨1, 1, 0, 1⟩ name) := by
    have hparse : ∀ name ∈ ["a", "b", "c", "d"], (Parser.ofScript host
        (Script.ofSource "/a.es" name)).parseType.1 = some (.name ⟨1, 1, 0, 1⟩ name) := by
      simp only [List.forall_mem_cons]
      exact ⟨by cbv, by cbv, by cbv, by cbv, List.forall_mem_nil _⟩
    have hbar : ∀ name ∈ ["a", "b", "c", "d"], (Parser.ofScript host
        (Script.ofSource "/a.es" name)).state.token.isOperator .bitwiseOr = false := by decide +kernel
    exact fun name hmem => ⟨hparse name hmem, trivial, hbar name hmem⟩
  have hended : ∀ text ∈ ["a", "b", "c", "d", "a.b", "b|c.<d>"], ¬ EndsInComment host "/a.es" text := by
    have hnone : ∀ text ∈ ["a", "b", "c", "d", "a.b", "b|c.<d>"], (Parser.ofScript host
        (Script.ofSource "/a.es" text)).parseType.2.state.script.comments = #[] := by decide +kernel
    rintro text hmem ⟨comment, hcomment, -⟩
    rw [hnone text hmem] at hcomment
    exact absurd hcomment (by simp)
  have hgap : Skipped [] := ⟨[], .nil _ _⟩
  have hfirst : ∀ (first : Char) {text : List Char}, text.head? = some first → first ∉ ['<', '=', '/', '!'] →
      ∀ ch ∈ text.head?, ch ∉ ['<', '=', '/', '!'] := by
    intro first text hhead hout ch hch
    obtain rfl : first = ch := Option.some.inj (hhead.symm.trans hch)
    exact hout
  have hopening : ∀ name ∈ ["a", "b", "c", "d"],
      GenericOpening.Proper host "/a.es" ⟨name, .name ⟨1, 1, 0, 1⟩ name, []⟩ := by
    have hlast : ∀ name ∈ ["a", "b", "c", "d"], ∀ ch ∈ name.toList.getLast?, ch ∉ ['?', '.'] := by
      simp
    have hall : ∀ name ∈ ["a", "b", "c", "d"], name ∈ ["a", "b", "c", "d", "a.b", "b|c.<d>"] := by decide
    exact fun name hmem => ⟨hname name hmem, hended name (hall name hmem), hlast name hmem, hgap⟩
  have hother : ∀ name ∈ ["a", "b", "c", "d"],
      (GenericTypes.last (.other name (.name ⟨1, 1, 0, 1⟩ name))).Proper host "/a.es" := by
    have hall : ∀ name ∈ ["a", "b", "c", "d"], name ∈ ["a", "b", "c", "d", "a.b", "b|c.<d>"] := by decide
    exact fun name hmem => ⟨(hname name hmem).accepted, hended name (hall name hmem)⟩
  refine ⟨?_, ?_, ?_, ?_⟩
  · intro s
    have hwalk : Walk (ParserState.ofScript (Script.ofSource "/a.es" ">>>>=")) s := .scan (.refl _)
    have hoperates : s.token.Operates := ⟨by decide +kernel, Or.inl (by decide +kernel)⟩
    have hcontent : s.script.content = [] ++ (List.replicate 4 '>' ++ ['=']) := by decide +kernel
    have hstart : s.token.span.start = byteLength [] := by decide +kernel
    obtain ⟨states, hfirst, hsteps, hlast⟩ := greater_signs_taken_singly.1 hwalk hoperates (by decide)
      hcontent (by decide) hstart (Or.inl rfl)
    refine ⟨by decide +kernel, states, hfirst, hsteps, ?_⟩
    rcases hlast with ⟨rest, -, htoken⟩ | ⟨hother, -⟩
    · exact htoken.trans (by decide +kernel)
    · exact absurd rfl hother
  · intro s
    let arguments : GenericTypes := .last (.instantiation ⟨"a", .name ⟨1, 1, 0, 1⟩ "a", []⟩
      (.last (.other "b" (.name ⟨1, 1, 0, 1⟩ "b"))) [])
    have harguments : arguments.Proper host s.advance.script.path :=
      ⟨hopening "a" (by decide), hother "b" (by decide), hfirst 'b' (by decide +kernel) (by decide), hgap⟩
    have hlength : arguments.text.length + 4 ≤ 20 := by decide +kernel
    have hdot : s.token.kind = .dot := by decide +kernel
    have hnext : Parse.next s = .ok () s.advance := by
      have hok : s.scanner.next.1 = .ok () := by rfl
      rw [Parse.next_apply, hok]
    have hw : s.advance.Behind ['f', '.', '<'] (arguments.text ++ '>' :: ['(', 'x', ')']) := by
      refine ⟨⟨by decide +kernel, ⟨by decide +kernel, by decide +kernel, ?_⟩, by decide +kernel,
        by decide +kernel, by decide +kernel⟩, by decide +kernel⟩
      exact Lines.not_splits_of_last (by decide) ['f', '.'] _
    have htail : Tokenizes [] ['('] ['x', ')'] { kind := .leftParen } :=
      tokenizes_sole (show ('(', TokenKind.leftParen) ∈ soleMarks by decide) (List.forall_mem_nil _) _
    obtain ⟨t, hbehind, -, hexpression, hnew⟩ := greater_signs_taken_singly.2.1 (Host.ofFiles [])
      harguments (by decide +kernel) hlength hdot hnext (by decide +kernel) hw
      (Or.inr (Or.inr (htail.scans _)))
    have hspan : (greaterAt (['f', '.', '<'] ++ arguments.text)).span = ⟨1, 1, 8, 9⟩ := by cbv
    have htypes : arguments.types ['f', '.', '<'] =
        [.instantiation ⟨1, 1, 3, 8⟩ (.name ⟨1, 1, 3, 4⟩ "a") [.name ⟨1, 1, 6, 7⟩ "b"]] := by cbv
    rw [hspan, htypes] at hexpression hnew
    refine ⟨hdot, t, ?_, fun base fuel => hexpression base true .list fuel, hnew⟩
    obtain ⟨more, hequals, -⟩ | ⟨-, hmeets⟩ := hbehind
    · cases hequals
    · have hfaces := hmeets.faces_of_head (by decide)
      obtain ⟨-, htoken⟩ := ParserState.Faces.behind hfaces htail
      show EStateM.Result.ok t.token.kind t = _
      rw [htoken]
  · let member : TypeExpr := .member ⟨1, 1, 0, 3⟩ (.name ⟨1, 1, 0, 1⟩ "a") { span := ⟨1, 1, 2, 3⟩, name := "b" }
    let o : GenericOpening := ⟨"a.b", member, []⟩
    let arguments : GenericTypes := .last (.instantiation ⟨"c", .name ⟨1, 1, 0, 1⟩ "c", []⟩
      (.last (.other "d" (.name ⟨1, 1, 0, 1⟩ "d"))) [])
    have ho : o.Proper host "/a.es" :=
      ⟨⟨by cbv, trivial, by decide +kernel⟩, hended "a.b" (by decide), by simp [o], hgap⟩
    have harguments : arguments.Proper host "/a.es" :=
      ⟨hopening "c" (by decide), hother "d" (by decide), hfirst 'd' (by decide +kernel) (by decide), hgap⟩
    have hlength : (o.text ++ arguments.text).length + 3 ≤ 20 := by decide +kernel
    have htext : "a.b.<c.<d>>=1".toList = o.text ++ (arguments.text ++ '>' :: ['=', '1']) := by
      decide +kernel
    have hw : (ParserState.ofScript (Script.ofSource "/a.es" "a.b.<c.<d>>=1")).Behind []
        (o.text ++ (arguments.text ++ '>' :: ['=', '1'])) := ⟨.ofSource _ _, htext⟩
    obtain ⟨t, v, fuel, hnext, hread, hbehind⟩ := greater_signs_taken_singly.2.2.1 (Host.ofFiles []) ho
      harguments (hfirst 'c' (by decide +kernel) (by decide)) hlength hw rfl rfl (Or.inr (Or.inl rfl))
    have htree : o.type arguments.text arguments.types [] = .instantiation ⟨1, 1, 0, 11⟩
        (.member ⟨1, 1, 0, 3⟩ (.name ⟨1, 1, 0, 1⟩ "a") { span := ⟨1, 1, 2, 3⟩, name := "b" })
        [.instantiation ⟨1, 1, 5, 10⟩ (.name ⟨1, 1, 5, 6⟩ "c") [.name ⟨1, 1, 8, 9⟩ "d"]] := by cbv
    rw [htree] at hread
    refine ⟨t, v, fuel, hnext, hread, ?_⟩
    rcases hbehind with ⟨more, -, htoken⟩ | ⟨hother, -⟩
    · exact htoken.trans (by decide +kernel)
    · exact absurd rfl hother
  · let gap : List Char := CommentForm.block.written []
    let bar : TypeExpr := .union ⟨1, 1, 0, 7⟩ [.name ⟨1, 1, 0, 1⟩ "b",
      .instantiation ⟨1, 1, 2, 7⟩ (.name ⟨1, 1, 2, 3⟩ "c") [.name ⟨1, 1, 5, 6⟩ "d"]]
    let o : GenericOpening := ⟨"a", .name ⟨1, 1, 0, 1⟩ "a", gap⟩
    let arguments : GenericTypes := .last (.other "b|c.<d>" bar)
    have hcomment : Skipped gap := ⟨_, .comment .block [] .nil (.nil _ _)⟩
    have ho : o.Proper host "/a.es" := { hopening "a" (by decide) with gap := hcomment }
    have harguments : arguments.Proper host "/a.es" := ⟨by cbv, hended "b|c.<d>" (by decide)⟩
    have htext : "a./**/<b|c.<d>>".toList = (GenericType.instantiation o arguments []).text := by
      decide +kernel
    have htree : (GenericType.instantiation o arguments []).type [] = .instantiation ⟨1, 1, 0, 15⟩
        (.name ⟨1, 1, 0, 1⟩ "a") [.union ⟨1, 1, 7, 14⟩ [.name ⟨1, 1, 7, 8⟩ "b",
          .instantiation ⟨1, 1, 9, 14⟩ (.name ⟨1, 1, 9, 10⟩ "c") [.name ⟨1, 1, 12, 13⟩ "d"]]] := by cbv
    rw [← htree]
    exact greater_signs_taken_singly.2.2.2 (Host.ofFiles []) "/a.es"
      ⟨ho, harguments, hfirst 'b' (by decide +kernel) (by decide), hgap⟩ htext

end ActionSyntax
