import Mathlib
import ActionSyntax.Proofs.Frames.Statements
import ActionSyntax.Proofs.UnionMembers

/-!
Chains of types with bars between them. The first type takes the rest of the chain behind its bar, and
the members of what is read there join it, so the whole is one union of as many members as there are
texts, each of them what its text is by itself.
-/

namespace ActionSyntax

set_option autoImplicit false

open Utf8 Scan Parse Rules

/-- The text by itself is accepted as this type. No bar, colon or arrow stands in it outside of brackets:
one that stands in front makes the text begin with it, and any other makes the type a union, a typed type
or a function with a result. -/
structure TypeText (host : Host) (path text : String) (type : TypeExpr) : Prop where
  accepted : (Parser.ofScript host (Script.ofSource path text)).parseType.1 = some type
  plain : type.Plain
  unbarred : (Parser.ofScript host (Script.ofSource path text)).state.token.isOperator .bitwiseOr = false

/-- The text ends in a comment to the end of the line. -/
def EndsInComment (host : Host) (path text : String) : Prop :=
  ∃ comment ∈ (Parser.ofScript host (Script.ofSource path text)).parseType.2.state.script.comments,
    comment.multiLine = false ∧ comment.span.stop = byteLength text.toList

/-- What stands between two types: a bar, with blanks and line breaks around it. A comment to the end of
the line ends in front of it. -/
structure Bars (host : Host) (path text : String) (before behind rest : List Char) : Prop where
  front : Spacing before
  back : Spacing behind
  apart : Apart text.toList (before ++ ['|'])
  parted : Apart ('|' :: behind) rest
  comment : EndsInComment host path text → ∃ ch ∈ before.head?, CharClass.isLineTerminator ch = true

/-- Types with bars between them, and what stands between a bar and the types around it. -/
inductive TypeChain where
  | last (text : String)
  | bar (text : String) (before behind : List Char) (rest : TypeChain)

namespace TypeChain

def text : TypeChain → List Char
  | .last text => text.toList
  | .bar text before behind rest => text.toList ++ (before ++ '|' :: (behind ++ rest.text))

/-- The text of each type, with all that stands in front of it. -/
def pieces : TypeChain → List Char → List (List Char × String)
  | .last text, front => [(front, text)]
  | .bar text before behind rest, front =>
    (front, text) :: rest.pieces (front ++ text.toList ++ before ++ ['|'] ++ behind)

def texts : TypeChain → List String
  | .last text => [text]
  | .bar text _ _ rest => text :: rest.texts

/-- Every text is a type by itself, and a bar stands between two of them. -/
def Proper (host : Host) (path : String) : TypeChain → Prop
  | .last text => ∃ type, TypeText host path text type
  | .bar text before behind rest =>
    (∃ type, TypeText host path text type) ∧ Bars host path text before behind rest.text ∧
      rest.Proper host path

end TypeChain

/-- What stands in front of a chain: nothing, or another bar. -/
def Leads (lead rest : List Char) : Prop :=
  lead = [] ∨ ∃ before behind, lead = before ++ '|' :: behind ∧ Spacing before ∧ Spacing behind ∧
    Apart ('|' :: behind) rest

/-- The type that a text is by itself, as it stands behind the front. -/
def StandsAs (host : Host) (path : String) (piece : List Char × String) (type : TypeExpr) : Prop :=
  ∃ own, TypeText host path piece.2 own ∧ Matches own type ∧
    type.span = own.span.moved (byteLength piece.1) (Lines.ends 0 piece.1).length

/-- A type with all members of a chain, from the first to the last one. -/
structure TypeChain.Reads (chain : TypeChain) (host : Host) (path : String) (front : List Char)
    (type : TypeExpr) : Prop where
  members : List.Forall₂ (StandsAs host path) (chain.pieces front) type.unionMembers
  span : ∃ first last, type.unionMembers.head? = some first ∧ type.unionMembers.getLast? = some last ∧
    type.span = first.span.«to» last.span
  union : 2 ≤ chain.texts.length → type = .union type.span type.unionMembers

section Reading

variable {host : Host} {path text : String} {front gap after : List Char} {n : Nat} {s w : ParserState}
  {own : TypeExpr}

/-- Behind blanks and line breaks, the first token of a piece is read as it is when the piece is a text by
itself. -/
theorem Passage.first_tracks {x : Passage} {first : ParserState} (hx : x.Followed) (hlead : x.lead = [])
    (hfront : x.before = front ++ gap) (hw : w.Behind front (gap ++ (x.piece ++ x.after)))
    (hgap : Spacing gap) (hwhole : ¬ Lines.Splits gap (x.piece ++ x.after)) (hvalid : w.script.valid = true)
    (hfirst : Parse.next (ParserState.ofScript
      (Script.ofSource w.script.path (String.ofList x.piece))) = .ok () first)
    (hlost : ¬ x.Lost first) :
    ∃ t previous, Parse.next w = .ok () t ∧ x.Runs first { t with previous } := by
  obtain ⟨c, hpasses, htrivia⟩ := trivia_gap hgap hwhole hw.rest
  have hmoved : (w.scanner.moveTo c).Passed x.before := by
    rw [hfront]
    exact hw.passed.moveTo hpasses
  have hrest : (w.scanner.moveTo c).cursor.rest = x.piece ++ x.after :=
    List.append_cancel_left (hpasses.rest.symm.trans hw.rest)
  let w' : ParserState := { w with scanner := w.scanner.moveTo c }
  have hown : String.toList (String.ofList x.piece) = x.own := by simp [Passage.own, hlead]
  have hpassed : (Scanner.ofScript (Script.ofSource w.script.path (String.ofList x.piece))).Passed x.lead := by
    rw [hlead]
    exact .ofSource _ _
  obtain ⟨t, hnext, -, hruns⟩ := (Passage.Aligned.start hpassed hown hmoved hrest).advance
    (s := ParserState.ofScript _) (t := w') hx rfl hvalid.symm hfirst hlost
  refine ⟨t, _, ?_, hruns⟩
  obtain ⟨hscan, rfl⟩ := Parse.next_inv hnext
  have hread : w.scanner.next = (.ok (), w'.scanner.next.2) := Scanner.next_moveTo htrivia hscan
  rw [Parse.next_apply, ParserState.advance, hread]
  rfl

/-- Types end where nothing goes on with them, also those of a level. -/
theorem Host.level_typeExpr_ends (host : Host) {n : Nat} {type : TypeExpr} {u : ParserState}
    (h : (host.level n).typeExpr s = .ok type u) : u.token.EndsType := by
  cases n with
  | zero => cases h
  | succ n => exact typeExprRule_ends (q := host.level n) h

/-- A text that is a type by itself is begun where it stands in a whole text, and runs on in it. -/
theorem Parser.parseType_runs
    (h : (Parser.ofScript host (Script.ofSource path text)).parseType.1 = some own)
    (hx : (Passage.bare (front ++ gap) text.toList after).Followed)
    (hw : w.Behind front (gap ++ (text.toList ++ after))) (hgap : Spacing gap)
    (hwhole : ¬ Lines.Splits gap (text.toList ++ after)) (hpath : w.script.path = path)
    (hvalid : w.script.valid = true)
    (hcomment : EndsInComment host path text → ∀ ch ∈ after.head?, CharClass.isLineTerminator ch = true) :
    let p := Parser.ofScript host (Script.ofSource path text)
    ∃ t previous, Parse.next w = .ok () t ∧
      (Passage.bare (front ++ gap) text.toList after).Runs p.state { t with previous } ∧
      (host.level (text.toList.length + 3)).typeExprRule p.state = .ok own p.parseType.2.state ∧
      p.parseType.2.state.token.kind = .endOfProgram ∧
      ¬ (Passage.bare (front ++ gap) text.toList after).Lost p.parseType.2.state ∧
      p.parseType.2.state.script.path = path ∧ p.parseType.2.state.script.valid = true := by
  intro p
  obtain ⟨s, hspans, hok⟩ := Parser.spans_of_run h
  obtain ⟨first, hscan, hread, hend⟩ := hspans.from_first
  have hfirst : Parse.next (ParserState.ofScript (Script.ofSource path text)) = .ok () first := hscan
  have hstate : p.state = first := by
    unfold p Parser.ofScript
    rw [hscan]
  have hlast : p.parseType.2.state = s := by
    unfold p Parser.parseType
    rw [Parser.run_of_spans hspans]
  let x : Passage := .bare (front ++ gap) text.toList after
  have hgone : ¬ x.Gone s := by
    rintro ⟨⟨ch, hch, hplain⟩, -, comment, hmem, hline, hstop⟩
    have hterminator := hcomment ⟨comment, hlast ▸ hmem, hline, hstop⟩ ch hch
    rw [hplain] at hterminator
    cases hterminator
  have hlost : ¬ x.Lost first := fun hlost =>
    Tandem.Follows.typeExprRule_insists.empty (hx.tandem.gone_spent hlost) hread
  subst hpath
  obtain ⟨t, previous, hnext, hruns⟩ := Passage.first_tracks (x := x) hx rfl rfl hw hgap hwhole hvalid
    (by rwa [String.ofList_toList]) hlost
  have hkept : first.script.path = w.script.path := (Scanner.next_keeps (Parse.next_inv hfirst).1).1
  have hends := (level_lenient host.readFile host.includeDepth (text.toList.length + 3)).typeExprRule_reads
    first (Or.inl trivial)
  rw [hread] at hends
  rw [hstate, hlast]
  exact ⟨t, previous, hnext, hruns, hread, hend, fun hlost => hgone (hlost.gone hend),
    hends.reaches.grows.path.trans hkept, hok⟩

/-- Where something else follows, the text is read to its end, and its type may be gone on with. -/
theorem TypeText.read (h : TypeText host path text own)
    (hx : (Passage.bare (front ++ gap) text.toList after).Followed) (hhead : after.head? ≠ some '>')
    (hw : w.Behind front (gap ++ (text.toList ++ after))) (hgap : Spacing gap)
    (hwhole : ¬ Lines.Splits gap (text.toList ++ after)) (hpath : w.script.path = path)
    (hvalid : w.script.valid = true)
    (hcomment : EndsInComment host path text → ∀ ch ∈ after.head?, CharClass.isLineTerminator ch = true)
    (hn : text.toList.length + 3 ≤ n) :
    ∃ t v fuel, Parse.next w = .ok () t ∧
      (host.level n).typeExprRule t = (host.level n).typeSuffixes (fuel + 1 + (n - (text.toList.length + 3)))
        (own.moved (byteLength (front ++ gap)) (Lines.ends 0 (front ++ gap)).length) v ∧
      v.Faces (front ++ gap ++ text.toList) after ∧ v.script.path = path ∧ v.script.valid = true := by
  obtain ⟨t, previous, hnext, hruns, hread, hend, hlost, hpath', hvalid'⟩ :=
    Parser.parseType_runs h.accepted hx hw hgap hwhole hpath hvalid hcomment
  have hfollows : hx.tandem.Follows (host.level (text.toList.length + 3)) (host.level n) :=
    Tandem.level_follows host _ hn
  have hlength : (host.level n).rounds = (host.level (text.toList.length + 3)).rounds +
      (n - (text.toList.length + 3)) := by
    unfold rounds
    rw [Rules.level_depth, Rules.level_depth]
    omega
  obtain ⟨v, fuel, heq, hruns'⟩ := Tandem.typeExprRule_tracks hfollows host.level_typeExpr_ends hruns
    h.unbarred hread h.plain hend hlost hlength
  have hpast := Passage.Runs.past hruns' hend
  exact ⟨t, v, fuel, hnext, heq, hpast.faces hhead, hpast.path.symm.trans hpath',
    hpast.valid.symm.trans hvalid'⟩

/-- Where no type goes on with what follows, the text is read as the type that it is by itself, up to there,
and nothing else is changed. -/
theorem Parser.parseType_within
    (h : (Parser.ofScript host (Script.ofSource path text)).parseType.1 = some own)
    (hx : (Passage.bare (front ++ gap) text.toList after).Followed)
    (hafter : ∀ {t : ParserState}, t.Meets (front ++ gap ++ text.toList) after → t.token.EndsType)
    (hw : w.Behind front (gap ++ (text.toList ++ after))) (hgap : Spacing gap)
    (hwhole : ¬ Lines.Splits gap (text.toList ++ after)) (hpath : w.script.path = path)
    (hvalid : w.script.valid = true)
    (hcomment : EndsInComment host path text → ∀ ch ∈ after.head?, CharClass.isLineTerminator ch = true)
    (hn : text.toList.length + 3 ≤ n) :
    ∃ t v, Parse.next w = .ok () t ∧ (host.level n).typeExprRule t =
        .ok (own.moved (byteLength (front ++ gap)) (Lines.ends 0 (front ++ gap)).length) v ∧
      (Passage.bare (front ++ gap) text.toList after).Past
        (Parser.ofScript host (Script.ofSource path text)).parseType.2.state v ∧ w.Keeps v := by
  obtain ⟨t, previous, hnext, hruns, hread, hend, hlost, hpath', hvalid'⟩ :=
    Parser.parseType_runs h hx hw hgap hwhole hpath hvalid hcomment
  have htracks := Tandem.level_typeExpr_whole (P := hx.tandem) host (Tandem.endsType_of_near hx hafter)
    (Nat.succ_le_succ hn)
  rcases htracks.tracks hruns hread hlost with ⟨v, hv, hruns'⟩ | ⟨⟨⟩⟩
  have hv : (host.level n).typeExprRule t = .ok (own.moved _ _) v := typeExprRule_fresh hv
  have hpast := Passage.Runs.past hruns' hend
  have hframed : Framed .type (host.level n).typeExprRule := Framed.typeExprRule
  have hkeeps := hframed.keeps t
  rw [hv] at hkeeps
  refine ⟨t, v, hnext, hv, hpast, ?_, ?_, ?_, ?_⟩
  · rw [hpath]
    exact hpast.path.symm.trans hpath'
  · rw [hvalid]
    exact hpast.valid.symm.trans hvalid'
  · exact (hkeeps.functions rfl).trans (by rw [(Parse.next_inv hnext).2]; rfl)
  · exact (hkeeps.superFound (by decide)).trans (by rw [(Parse.next_inv hnext).2]; rfl)

end Reading

/-- A type that is none of those has itself for its only member. -/
theorem TypeExpr.Plain.unionMembers {type : TypeExpr} (h : type.Plain) : type.unionMembers = [type] := by
  cases type with
  | union => exact h.elim
  | _ => rfl

theorem TypeExpr.bare_plain (type : TypeExpr) : type.bare.Plain ↔ type.Plain := by
  cases type with
  | function span required optional rest result => cases result <;> simp [Plain]
  | _ => simp [Plain]

theorem StandsAs.plain {host : Host} {path : String} {piece : List Char × String} {type : TypeExpr}
    (h : StandsAs host path piece type) : type.Plain := by
  obtain ⟨own, hmember, hmatch, -⟩ := h
  have hbare : own.bare = type.bare := hmatch
  rw [← type.bare_plain, ← hbare, own.bare_plain]
  exact hmember.plain

/-- A text that is a type by itself stands for the same type elsewhere. -/
theorem TypeText.stands {host : Host} {path text : String} {front : List Char} {own : TypeExpr}
    (h : TypeText host path text own) : StandsAs host path (front, text)
      (own.moved (byteLength front) (Lines.ends 0 front).length) :=
  ⟨own, h, (TypeExpr.bare_moved _ _ own).symm, TypeExpr.span_moved _ _ own⟩

/-- What separates two texts. -/
theorem Scan.Apart.bar {behind rest : List Char} (h : Apart ('|' :: behind) rest) (hbehind : Spacing behind) :
    (∀ ch ∈ (behind ++ rest).head?, ch ≠ '|' ∧ ch ≠ '=') ∧ ¬ Lines.Splits behind rest := by
  have hspaces : ∀ ch ∈ spaces, ch ≠ '|' ∧ ch ≠ '=' := by decide
  constructor
  · cases behind with
    | nil =>
      intro ch hch
      exact (h '|' rfl ch hch).1 rfl
    | cons first behind =>
      intro ch hch
      obtain rfl : first = ch := Option.some.inj hch
      exact hspaces first (mem_spaces (hbehind first List.mem_cons_self))
  · rintro ⟨hlast, hhead⟩
    have hlast' : ('|' :: behind).getLast? = some '\r' := by
      rw [List.getLast?_cons, hlast]
      rfl
    exact (h '\r' hlast' '\n' hhead).2 rfl rfl

/-- The type behind the last bar, or the only one. -/
theorem TypeChain.Reads.last {host : Host} {path text : String} {front : List Char} {type : TypeExpr}
    (h : StandsAs host path (front, text) type) : (TypeChain.last text).Reads host path front type := by
  have hmembers := h.plain.unionMembers
  refine ⟨?_, ⟨type, type, ?_, ?_, rfl⟩, ?_⟩
  · rw [hmembers]
    exact .cons h .nil
  · rw [hmembers]
    rfl
  · rw [hmembers]
    rfl
  · intro hseveral
    have hseveral : 2 ≤ 1 := hseveral
    exact absurd hseveral (by decide)

/-- The type in front of a bar joins those behind it. -/
theorem TypeChain.Reads.bar {host : Host} {path text : String} {front before behind : List Char}
    {rest : TypeChain} {first type : TypeExpr} (h : StandsAs host path (front, text) first)
    (hrest : rest.Reads host path (front ++ text.toList ++ before ++ ['|'] ++ behind) type) :
    (TypeChain.bar text before behind rest).Reads host path front
      (.union (first.span.«to» type.span) (first.unionMembers ++ type.unionMembers)) := by
  obtain ⟨head, last, hhead, hlast, hspan⟩ := hrest.span
  have hmembers := h.plain.unionMembers
  refine ⟨?_, ⟨first, last, ?_, ?_, ?_⟩, fun _ => rfl⟩
  · rw [hmembers]
    exact .cons h hrest.members
  · rw [hmembers]
    rfl
  · rw [TypeExpr.unionMembers, List.getLast?_append, hlast]
    rfl
  · rw [hspan]
    rfl

namespace Bars

variable {host : Host} {path text : String} {before behind rest : List Char}

theorem barred (h : Bars host path text before behind rest) (front : List Char) :
    (Passage.bare front text.toList (before ++ '|' :: (behind ++ rest))).Barred := by
  refine ⟨?_, Or.inr ⟨before, behind ++ rest, rfl, h.front, (h.parted.bar h.back).1⟩⟩
  intro last hlast ch hch
  apply h.apart last hlast ch
  cases before with
  | nil => exact hch
  | cons first before => exact hch

theorem ends (h : Bars host path text before behind rest) (hends : EndsInComment host path text) :
    ∀ ch ∈ (before ++ '|' :: (behind ++ rest)).head?, CharClass.isLineTerminator ch = true := by
  obtain ⟨terminator, hterminator, hline⟩ := h.comment hends
  intro ch hch
  cases before with
  | nil => cases hterminator
  | cons first before =>
    obtain rfl : first = ch := Option.some.inj hch
    obtain rfl : first = terminator := Option.some.inj hterminator
    exact hline

end Bars

section Chain

variable {host : Host} {path : String}

/-- A chain is read to the end of its text. The type in front of a bar is read as far as it goes by itself;
the rest of the chain is read behind the bar, one level below. -/
theorem TypeChain.read : ∀ {chain : TypeChain} {front gap : List Char} {n : Nat} {w : ParserState},
    chain.Proper host path → w.Behind front (gap ++ chain.text) → Spacing gap →
    ¬ Lines.Splits gap chain.text → w.script.path = path → w.script.valid = true →
    chain.text.length + 3 ≤ n →
    ∃ t type v, Parse.next w = .ok () t ∧ (host.level n).typeExprRule t = .ok type v ∧
      chain.Reads host path (front ++ gap) type ∧ v.token.kind = .endOfProgram ∧ v.script.valid = true
  | .last text, front, gap, n, w, ⟨own, hmember⟩, hw, hgap, hwhole, hpath, hvalid, hn => by
    have hx : (Passage.bare (front ++ gap) text.toList []).Barred := ⟨nofun, Or.inl rfl⟩
    have hnil : text.toList ++ [] = text.toList := List.append_nil _
    obtain ⟨t, v, fuel, hnext, hread, hfaces, -, hvalid'⟩ := hmember.read hx.followed nofun
      (by rwa [hnil]) hgap (by rwa [hnil]) hpath hvalid nofun hn
    have hfaces : v.Faces (front ++ gap ++ text.toList) ([] ++ ([] ++ [])) := hfaces
    obtain ⟨-, htoken⟩ := hfaces.behind tokenizes_end
    have hkind : v.token.kind = .endOfProgram := by rw [htoken]
    refine ⟨t, _, v, hnext, ?_, .last hmember.stands, hkind, hvalid'⟩
    rw [hread, Nat.add_right_comm]
    exact typeSuffixes_over (.of_closing (Or.inr hkind)) _ _
  | .bar text before behind rest, front, gap, n, w, ⟨⟨own, hmember⟩, hbars, hrest⟩, hw, hgap, hwhole,
      hpath, hvalid, hn => by
    obtain ⟨hhead, hwhole'⟩ := hbars.parted.bar hbars.back
    have hlength : text.toList.length + (before.length + (behind.length + rest.text.length + 1)) + 3 ≤ n := by
      simpa [TypeChain.text] using hn
    obtain ⟨m, rfl⟩ : ∃ m, n = m + 1 := ⟨n - 1, by omega⟩
    have hfirst : text.toList.length + 3 ≤ m + 1 := by omega
    have hmore : rest.text.length + 3 ≤ m := by omega
    have hsign : (before ++ '|' :: (behind ++ rest.text)).head? ≠ some '>' := fun hhead =>
      ((hbars.barred (front ++ gap)).head '>' hhead).2.1 rfl
    obtain ⟨t, v, fuel, hnext, hread, hfaces, hpath', hvalid'⟩ :=
      hmember.read (hbars.barred _).followed hsign hw hgap hwhole hpath hvalid hbars.ends hfirst
    obtain ⟨hbehind, htoken⟩ := hfaces.behind (tokenizes_bar hbars.front hhead)
    have hbar : v.token.isOperator .bitwiseOr = true := by
      rw [htoken]
      rfl
    obtain ⟨t', type, v', hnext', hread', hreads, hkind, hvalid''⟩ :=
      TypeChain.read hrest hbehind hbars.back hwhole' hpath' hvalid' hmore
    have htype : (host.level (m + 1)).typeExpr t' = .ok type v' := hread'
    refine ⟨t, _, v', hnext, ?_, .bar hmember.stands hreads, hkind, hvalid''⟩
    obtain ⟨k, hk⟩ : ∃ k, m + 1 - (text.toList.length + 3) = k + 1 :=
      ⟨m - (text.toList.length + 3), by omega⟩
    rw [hread, hk, Nat.add_right_comm, typeSuffixes_bar hbar hnext' htype]
    exact typeSuffixes_over (.of_closing (Or.inr hkind)) _ _

/-- A type that is read from the first token to the end of a text is the answer. -/
theorem Parser.parseType_of_read {source : String} {type : TypeExpr} {t v : ParserState}
    (hnext : Parse.next (ParserState.ofScript (Script.ofSource path source)) = .ok () t)
    (hread : (host.level (source.toList.length + 3)).typeExprRule t = .ok type v)
    (hend : v.token.kind = .endOfProgram) (hvalid : v.script.valid = true) :
    (Parser.ofScript host (Script.ofSource path source)).parseType.1 = some type := by
  have hscan : Parse.scan Scanner.next (ParserState.ofScript (Script.ofSource path source)) =
    .ok () t := hnext
  have hstate : (Parser.ofScript host (Script.ofSource path source)).state = t := by
    unfold Parser.ofScript
    rw [hscan]
  obtain ⟨-, hcontent, hvalid'⟩ := Scanner.next_keeps (Parse.next_inv hnext).1
  subst hstate
  have hspans := Parser.spans_of_read hcontent hvalid' hread hend
  have hrun := congrArg Prod.fst (Parser.run_of_spans hspans)
  have hvalid : v.script.isValid = true := hvalid
  rw [if_pos hvalid] at hrun
  exact hrun

/-- A chain is read as one type, with a bar in front of it or without. -/
theorem TypeChain.Proper.parse {chain : TypeChain} {lead : List Char} {source : String}
    (h : chain.Proper host path) (hlead : Leads lead chain.text)
    (hsource : source.toList = lead ++ chain.text) :
    ∃ type, (Parser.ofScript host (Script.ofSource path source)).parseType.1 = some type ∧
      chain.Reads host path lead type := by
  have hbegins : (ParserState.ofScript (Script.ofSource path source)).Behind [] source.toList :=
    ⟨.ofSource path source, rfl⟩
  rw [hsource] at hbegins
  obtain rfl | ⟨before, behind, rfl, hbefore, hbehind, hapart⟩ := hlead
  · have hn : chain.text.length + 3 ≤ source.toList.length + 3 := by simp [hsource]
    obtain ⟨t, type, v, hnext, hread, hreads, hkind, hvalid⟩ :=
      TypeChain.read h hbegins nofun nofun rfl rfl hn
    exact ⟨type, Parser.parseType_of_read hnext hread hkind hvalid, hreads⟩
  · obtain ⟨hhead, hwhole⟩ := hapart.bar hbehind
    have hbegins : (ParserState.ofScript (Script.ofSource path source)).Behind []
        (before ++ (['|'] ++ (behind ++ chain.text))) := by simpa using hbegins
    obtain ⟨t, hnext, hbehind', htoken, -, hkeeps, -⟩ := hbegins.next (tokenizes_bar hbefore hhead)
    have hbar : t.token.isOperator .bitwiseOr = true := by
      rw [htoken]
      rfl
    obtain ⟨n, hn⟩ : ∃ n, source.toList.length + 3 = n + 1 := ⟨_, rfl⟩
    have hmore : chain.text.length + 3 ≤ n := by
      have hlength := congrArg List.length hsource
      simp only [List.length_append, List.length_cons] at hlength
      omega
    obtain ⟨u, type, v, hnext', hread, hreads, hkind, hvalid⟩ :=
      TypeChain.read h hbehind' hbehind hwhole hkeeps.path hkeeps.valid hmore
    have htype : (host.level (n + 1)).typeExpr u = .ok type v := hread
    have hover : (host.level (n + 1)).typeExprRule t = .ok type v :=
      (typeExprRule_bar hbar hnext' htype).trans (typeSuffixes_over (.of_closing (Or.inr hkind)) _ _)
    refine ⟨type, Parser.parseType_of_read hnext (hn ▸ hover) hkind hvalid, ?_⟩
    simpa using hreads

end Chain

namespace Parser

/-- Texts that are types by themselves, with bars between them and perhaps one in front, are one union. Its
members are what the texts are by themselves, in their order and none of them a union, and it ranges from
the first to the last of them. -/
theorem parseType_union_chain (host : Host) (path : String) {source : String} {chain : TypeChain}
    {lead : List Char} (hsource : source.toList = lead ++ chain.text) (hlead : Leads lead chain.text)
    (hchain : chain.Proper host path) (hseveral : 2 ≤ chain.texts.length) :
    ∃ span members,
      (Parser.ofScript host (Script.ofSource path source)).parseType.1 = some (.union span members) ∧
      List.Forall₂ (StandsAs host path) (chain.pieces lead) members ∧
      (∀ member ∈ members, member.Plain) ∧
      ∃ first last, members.head? = some first ∧ members.getLast? = some last ∧
        span = first.span.«to» last.span := by
  obtain ⟨type, hparse, hreads⟩ := hchain.parse hlead hsource
  have hplain : List.Forall₂ (fun member piece => member.Plain ∧ StandsAs host path piece member)
      type.unionMembers (chain.pieces lead) :=
    hreads.members.flip.imp fun _ _ hstands => ⟨StandsAs.plain hstands, hstands⟩
  refine ⟨type.span, type.unionMembers, ?_, hreads.members, ?_, hreads.span⟩
  · rw [hparse]
    exact congrArg some (hreads.union hseveral)
  · exact ((List.forall₂_and_left _ _).mp hplain).1

/-- Three types with a bar in front, over two lines. -/
theorem parseType_union_chain_lines : ∃ span members,
    (Parser.ofScript (Host.ofFiles []) (Script.ofSource "/a.es" "| A? |\n  [B | C]\n| d.E")).parseType.1 =
      some (.union span members) ∧
    List.Forall₂ (StandsAs (Host.ofFiles []) "/a.es")
      [("| ".toList, "A?"), ("| A? |\n  ".toList, "[B | C]"), ("| A? |\n  [B | C]\n| ".toList, "d.E")]
      members ∧
    (∀ member ∈ members, member.Plain) ∧
    ∃ first last, members.head? = some first ∧ members.getLast? = some last ∧
      span = first.span.«to» last.span := by
  let chain : TypeChain := .bar "A?" [' '] ['\n', ' ', ' '] (.bar "[B | C]" ['\n'] [' '] (.last "d.E"))
  have hspacing : ∀ gap ∈ [[], [' '], ['\n'], ['\n', ' ', ' ']], Spacing gap := by
    unfold Spacing
    decide
  have hapart : ∀ (last : Char) {front back : List Char}, front.getLast? = some last →
      last ∉ ['|', '\r'] → Apart front back := by
    intro last front back hlast hne other hother _ _
    rw [hlast] at hother
    cases hother
    simp only [List.mem_cons, List.not_mem_nil, or_false, not_or] at hne
    exact ⟨fun heq => absurd heq hne.1, fun heq => absurd heq hne.2⟩
  have hends : ∀ text ∈ ["A?", "[B | C]"], ¬ EndsInComment (Host.ofFiles []) "/a.es" text := by
    have hnone : ∀ text ∈ ["A?", "[B | C]"], (Parser.ofScript (Host.ofFiles [])
        (Script.ofSource "/a.es" text)).parseType.2.state.script.comments = #[] := by decide +kernel
    rintro text hmem ⟨comment, hcomment, -⟩
    rw [hnone text hmem] at hcomment
    exact absurd hcomment (by simp)
  have hfirst : TypeText (Host.ofFiles []) "/a.es" "A?" (.nullable ⟨1, 1, 0, 2⟩ (.name ⟨1, 1, 0, 1⟩ "A")) :=
    ⟨by cbv, trivial, by decide +kernel⟩
  have hsecond : TypeText (Host.ofFiles []) "/a.es" "[B | C]" (.array ⟨1, 1, 0, 7⟩
      (.union ⟨1, 1, 1, 6⟩ [.name ⟨1, 1, 1, 2⟩ "B", .name ⟨1, 1, 5, 6⟩ "C"])) :=
    ⟨by cbv, trivial, by decide +kernel⟩
  have hthird : TypeText (Host.ofFiles []) "/a.es" "d.E" (.member ⟨1, 1, 0, 3⟩ (.name ⟨1, 1, 0, 1⟩ "d")
      { span := ⟨1, 1, 2, 3⟩, name := "E" }) :=
    ⟨by cbv, trivial, by decide +kernel⟩
  have hchain : chain.Proper (Host.ofFiles []) "/a.es" := by
    have hfront : Bars (Host.ofFiles []) "/a.es" "A?" [' '] ['\n', ' ', ' '] "[B | C]\n| d.E".toList :=
      ⟨hspacing _ (by decide), hspacing _ (by decide), hapart '?' (by decide) (by decide),
        hapart ' ' (by decide) (by decide), fun hcomment => absurd hcomment (hends _ (by decide))⟩
    have hback : Bars (Host.ofFiles []) "/a.es" "[B | C]" ['\n'] [' '] "d.E".toList :=
      ⟨hspacing _ (by decide), hspacing _ (by decide), hapart ']' (by decide) (by decide),
        hapart ' ' (by decide) (by decide), fun hcomment => absurd hcomment (hends _ (by decide))⟩
    have hrest : (TypeChain.bar "[B | C]" ['\n'] [' '] (.last "d.E")).text = "[B | C]\n| d.E".toList := by
      decide +kernel
    rw [← hrest] at hfront
    exact ⟨⟨_, hfirst⟩, hfront, ⟨_, hsecond⟩, hback, ⟨_, hthird⟩⟩
  have hlead : Leads "| ".toList chain.text :=
    Or.inr ⟨[], [' '], by decide, hspacing _ (by decide), hspacing _ (by decide),
      hapart ' ' (by decide) (by decide)⟩
  have htext : "| A? |\n  [B | C]\n| d.E".toList = "| ".toList ++ chain.text := by decide +kernel
  have hpieces : chain.pieces "| ".toList = [("| ".toList, "A?"), ("| A? |\n  ".toList, "[B | C]"),
      ("| A? |\n  [B | C]\n| ".toList, "d.E")] := by decide +kernel
  have hread := parseType_union_chain (Host.ofFiles []) "/a.es" htext hlead hchain (by decide)
  rw [hpieces] at hread
  exact hread

/-- A comment to the end of the line takes the bar with it. -/
theorem parseType_chain_commented :
    (Parser.ofScript (Host.ofFiles []) (Script.ofSource "/a.es" "A // c")).parseType.1 =
      some (.name ⟨1, 1, 0, 1⟩ "A") ∧
    (Parser.ofScript (Host.ofFiles []) (Script.ofSource "/a.es" "B")).parseType.1 =
      some (.name ⟨1, 1, 0, 1⟩ "B") ∧
    (Parser.ofScript (Host.ofFiles []) (Script.ofSource "/a.es" ("A // c" ++ " | " ++ "B"))).parseType.1 =
      some (.name ⟨1, 1, 0, 1⟩ "A") :=
  ⟨by cbv, by cbv, by cbv⟩

end Parser

end ActionSyntax
