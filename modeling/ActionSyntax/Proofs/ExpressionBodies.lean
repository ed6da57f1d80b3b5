import ActionSyntax.Proofs.ArraySlots
import ActionSyntax.Proofs.Layout
import ActionSyntax.Proofs.Signatures

/-!
Functions whose body is an expression behind their signature. Before the body is looked for, the statement
may be over; behind a brace it always is, so no expression is taken for a body where the signature ends with
a record type.
-/

namespace ActionSyntax

set_option autoImplicit false

open Utf8 Scan Parse Rules

section Tokens

variable {front rest : List Char} {s t : ParserState}

/-- Where the scanner stands in its text, it has one cursor only. -/
theorem Scanner.Passed.cursor_eq {s t : Scanner} (hs : s.Passed front) (ht : t.Passed front)
    (hrest : s.cursor.rest = t.cursor.rest) : s.cursor = t.cursor := by
  have hindex := hs.behind.index.trans ht.behind.index.symm
  have hline := hs.behind.line.trans ht.behind.line.symm
  have hlines := hs.linesTaken.trans ht.linesTaken.symm
  have hcomments := hs.commentsTaken.trans ht.commentsTaken.symm
  obtain ⟨_, ⟨_, _, _, _, _⟩, _⟩ := s
  obtain ⟨_, ⟨_, _, _, _, _⟩, _⟩ := t
  dsimp only at hrest hindex hline hlines hcomments
  subst hrest hindex hline hlines hcomments
  rfl

/-- A token that is read depends on the cursor only. -/
theorem Scanner.next_ok {s u : Scanner} (h : s.next = (.ok (), u)) :
    ∃ start l stop, trivia s.cursor = .ok start ∧ lexeme start = .ok (l, stop) ∧
      u.token = { l with span := start.spanTo stop } := by
  obtain ⟨start, l, stop, htrivia, hlexeme, hread⟩ | ⟨failure, token, -, hread⟩ := s.next_cases
  · obtain rfl : _ = u := congrArg Prod.snd (hread.symm.trans h)
    exact ⟨start, l, stop, htrivia, hlexeme, rfl⟩
  · rw [hread] at h
    cases h

theorem ParserState.Faces.token_eq (hs : s.Faces front rest) (ht : t.Faces front rest) : s.token = t.token := by
  obtain ⟨before, hpassed, hleft, hnext⟩ := hs
  obtain ⟨before', hpassed', hleft', hnext'⟩ := ht
  obtain ⟨start, l, stop, htrivia, hlexeme, htoken⟩ := Scanner.next_ok hnext
  obtain ⟨start', l', stop', htrivia', hlexeme', htoken'⟩ := Scanner.next_ok hnext'
  rw [hpassed.cursor_eq hpassed' (hleft.trans hleft'.symm), htrivia'] at htrivia
  cases htrivia
  rw [hlexeme'] at hlexeme
  cases hlexeme
  exact htoken.trans htoken'.symm

/-- What has been read can be read in any script. -/
theorem ParserState.Faces.readable (h : s.Faces front rest) : Scanner.Readable front rest := by
  obtain ⟨before, hpassed, rfl, hnext⟩ := h
  obtain ⟨start, l, stop, htrivia, hlexeme, -⟩ := Scanner.next_ok hnext
  intro script
  have hcursor : (Scanner.behind script front before.cursor.rest).cursor = before.cursor :=
    hpassed.behind_passed.cursor_eq hpassed rfl
  rw [Scanner.next_of_lexeme (hcursor.symm ▸ htrivia) hlexeme]

/-- Behind the front of a text, a parser may begin anew. -/
theorem ParserState.behind_exists (path : String) (front rest : List Char) (hwhole : ¬ Lines.Splits front rest) :
    ∃ w : ParserState, w.Behind front rest ∧ w.script.path = path ∧ w.script.valid = true := by
  let script : Script := { Script.ofSource path (String.ofList (front ++ rest)) with
    lineStarts := (Lines.starts front).toArray }
  refine ⟨{ ParserState.ofScript script with scanner := Scanner.behind script front rest },
    ⟨⟨?_, ⟨rfl, rfl, hwhole⟩, rfl, rfl, rfl⟩, rfl⟩, rfl, rfl⟩
  exact String.toList_ofList

end Tokens

/-- The token begins a value, and no type goes on with it. -/
def Token.beginsValue (t : Token) : Bool :=
  [TokenKind.identifier, .number, .string].contains t.kind || ["null", "true", "false"].any t.isKeyword

theorem Token.beginsValue_cases {t : Token} (h : t.beginsValue = true) :
    t.kind ∈ [TokenKind.identifier, .number, .string] ∨ (t.kind = .keyword ∧ t.text ∈ ["null", "true", "false"]) := by
  simp only [beginsValue, Bool.or_eq_true, List.contains_iff_mem, List.any_eq_true, Token.isKeyword,
    Bool.and_eq_true, beq_iff_eq] at h
  rcases h with h | ⟨word, hmem, hkind, rfl⟩
  · exact Or.inl h
  · exact Or.inr ⟨hkind, hmem⟩

/-- The text is an expression by itself, on one line, and begins with a name or a literal. -/
structure BodyLine (host : Host) (path text : String) (e : Expr) : Prop where
  accepted : ((Parser.ofScript host (Script.ofSource path text)).parseExpressionWith true .assignment).1 = some e
  unbroken : Unbroken text.toList
  unindented : ∀ ch ∈ text.toList.head?, CharClass.isBlank ch = false
  value : (Parser.ofScript host (Script.ofSource path text)).state.token.beginsValue = true

section Bodies

variable {host : Host} {path text : String} {e : Expr} {front : List Char}

/-- Its first token is read in its place, too. -/
theorem BodyLine.first_faces (h : BodyLine host path text e) (front : List Char) :
    ∃ t : ParserState, t.Faces front ([' '] ++ text.toList) ∧ t.token.beginsValue = true ∧
      (Unbroken front → t.token.span.firstLine = 1) := by
  obtain ⟨s, hspans, -⟩ := Parser.spans_of_run h.accepted
  obtain ⟨first, hscan, -, -⟩ := hspans.from_first
  have hstate : (Parser.ofScript host (Script.ofSource path text)).state = first := by
    unfold Parser.ofScript
    rw [hscan]
  have hvalue := h.value
  have hsound := Parser.ofScript_sound host path text
  rw [hstate] at hvalue hsound
  let x : Passage := .bare (front ++ [' ']) text.toList []
  have hx : x.Followed := Passage.Barred.followed ⟨nofun, Or.inl rfl⟩
  obtain ⟨w, hw, hpath, hvalid⟩ := ParserState.behind_exists path front ([' '] ++ (text.toList ++ []))
    (Lines.not_splits_of_head (by decide) _ _)
  subst hpath
  obtain ⟨t, previous, hnext, hruns⟩ := Passage.first_tracks (x := x) hx rfl rfl hw (by decide)
    (Lines.not_splits_of_last (by decide) [] _) hvalid (by rwa [String.ofList_toList])
    (Passage.not_lost_of_last rfl)
  have hplain : ∀ kind ∈ [TokenKind.identifier, .number, .string, .keyword], kind ≠ .endOfProgram := by decide
  have hproper : ¬ first.Ended := fun hended => by
    rcases Token.beginsValue_cases hvalue with hkind | ⟨hkind, -⟩
    · exact hplain _ (List.mem_append_left [.keyword] hkind) hended.kind
    · exact hplain _ (by simp [hkind]) hended.kind
  have htoken := ((hruns.resolve nofun).resolve_right fun hpast => hproper hpast.ended).token
  refine ⟨t, ⟨w.scanner, hw.passed, by simpa [x] using hw.rest, (Parse.next_inv hnext).1⟩, ?_, ?_⟩
  · rw [show t.token = _ from htoken]
    exact hvalue
  · intro hfront
    rw [show t.token = _ from htoken]
    show first.token.span.firstLine + (Lines.ends 0 (front ++ [' '])).length = 1
    have hcontent : first.script.content = text.toList :=
      (Scanner.next_keeps (Parse.next_inv (s := ParserState.ofScript _) hscan).1).2.1
    rw [(hfront.append (by decide)).ends, (hcontent ▸ h.unbroken : Unbroken first.script.content).line hsound.token.1]
    rfl

/-- Wherever it stands, it begins with a value. -/
theorem BodyLine.faced (h : BodyLine host path text e) {s : ParserState}
    (hs : s.Faces front ([' '] ++ text.toList)) :
    s.token.beginsValue = true ∧ (Unbroken front → s.token.span.firstLine = 1) := by
  obtain ⟨t, ht, hvalue, hline⟩ := h.first_faces front
  rw [hs.token_eq ht]
  exact ⟨hvalue, hline⟩

/-- No signature goes on with it. -/
theorem BodyLine.bodily (h : BodyLine host path text e) : Bodily ([' '] ++ text.toList) := by
  have hkind : ∀ {front : List Char} {s : ParserState}, s.Faces front ([' '] ++ text.toList) →
      s.token.kind ∈ [.keyword, .identifier, .number, .string] := by
    intro front s hs
    rcases Token.beginsValue_cases (h.faced hs).1 with hkind | ⟨hkind, -⟩
    · exact List.mem_cons_of_mem _ hkind
    · exact hkind ▸ List.mem_cons_self
  refine ⟨⟨⟨⟨' ', _, rfl, by decide⟩, fun front => ?_, fun hs => List.mem_cons_of_mem _ (hkind hs)⟩,
    fun hs heq => ?_⟩, fun hs word hword => ?_⟩
  · obtain ⟨t, ht, -⟩ := h.first_faces front
    exact ht.readable
  · have := hkind hs
    simp [heq] at this
  · have hkinds : ∀ kind ∈ [TokenKind.identifier, .number, .string], kind ≠ .keyword := by decide
    have hwords : ∀ a ∈ ["null", "true", "false"], ∀ b ∈ ["throws", "where"], a ≠ b := by decide
    rcases Token.beginsValue_cases (h.faced hs).1 with hkind | ⟨-, htext⟩
    · simp [Token.isKeyword, hkinds _ hkind]
    · simp [Token.isKeyword, hwords _ htext _ hword]

variable {braced : Bool} {n : Nat} {s : ParserState}

/-- It is read to the end of the text, behind a line that is not indented. -/
theorem BodyLine.read (h : BodyLine host path text e) (hs : s.Arrives path front ([' '] ++ text.toList) braced)
    (hmargin : Lines.margin (front ++ [' ']) = []) (hn : text.toList.length + 3 ≤ n) :
    ∃ e' u, (host.level n).exprRule { level := .assignment } s = .ok e' u ∧ Matches e e' ∧
      u.token.kind = .endOfProgram ∧ u.script.valid = true := by
  have hsource : insetSource (front ++ [' ']) text.toList = text := by
    rw [insetSource, hmargin, List.nil_append, String.ofList_toList]
  have hinset : Inset host path (front ++ [' ']) text.toList e := by
    refine ⟨fun ch hch => ⟨h.unindented ch hch, h.unbroken ch (List.mem_of_mem_head? hch)⟩, ?_⟩
    rw [hsource]
    exact h.accepted
  obtain ⟨scanner, hpassed, hrest, hnext⟩ := hs.faces
  obtain ⟨hpath, -, hvalid⟩ := Scanner.next_keeps hnext
  have hbehind : ({ s with scanner } : ParserState).Behind front ([' '] ++ text.toList) := ⟨hpassed, hrest⟩
  have hsettled : ({ s with scanner } : ParserState).Settled path := by
    obtain ⟨hp, hv, hf, hsuper⟩ := hs.settled
    exact ⟨hpath.symm.trans hp, hvalid.symm.trans hv, hf, hsuper⟩
  obtain ⟨t, e', u, hread, hexpr, hmatch, hend, hok⟩ := hinset.read_last (by decide) hbehind hsettled
    (by simpa [hmargin] using hn)
  refine ⟨e', u, ?_, hmatch, hend, hok⟩
  -- What stands in front of the expression has no part in it.
  have hstep : Parse.next { s with scanner } = .ok () { s with previous := scanner.token } := by
    rw [Parse.next_apply]
    unfold ParserState.advance
    rw [hnext]
    rfl
  cases hread.symm.trans hstep
  rcases Heedless.exprRule (host.level n) { level := .assignment } s scanner.token with
    hsame | ⟨_, hnone, -⟩ | ⟨-, stop, v, herror⟩
  · exact hsame.symm.trans hexpr
  · exact hnone.elim
  · rw [hexpr] at herror
    cases herror

/-- Where the signature ends in a brace, there is no body; otherwise the expression is one. -/
theorem BodyLine.inFunction (h : BodyLine host path text e)
    (hs : s.Arrives path front ([' '] ++ text.toList) braced) (hfront : Unbroken front)
    (hmargin : Lines.margin (front ++ [' ']) = []) (hn : text.toList.length + 4 ≤ n) :
    (braced = true → inFunction ((host.level n).functionBody .definition) s = .ok ((none, true), {}) s) ∧
    (braced = false → ∃ e' ended use u,
      inFunction ((host.level n).functionBody .definition) s = .ok ((some (.expression e'), ended), use) u ∧
      Matches e e' ∧ u.token.kind = .endOfProgram ∧ u.script.valid = true) := by
  obtain ⟨hvalue, hline⟩ := h.faced hs.faces
  have hkind : ∀ kind ∈ [TokenKind.leftBrace, .semicolon], s.token.kind ≠ kind := by
    intro kind hmem heq
    have := h.bodily.token hs.faces
    rw [heq] at this
    simp only [List.mem_cons, List.not_mem_nil, or_false] at hmem
    rcases hmem with rfl | rfl <;> simp at this
  have hsame : s.onSameLine = true := by
    unfold ParserState.onSameLine
    rw [hs.line, hline hfront]
    rfl
  have hends : s.endsStatement = braced := by
    unfold ParserState.endsStatement
    rw [hs.previous, hsame]
    cases braced <;> rfl
  obtain ⟨m, rfl⟩ : ∃ m, n = m + 1 := ⟨n - 1, by omega⟩
  let inside : ParserState := { s with functions := {} :: s.functions }
  have hbrace : (inside.token.kind == .leftBrace) = false := beq_false_of_ne (hkind _ (by decide))
  have hended : endsHere (FunctionRole.definition != .expression) inside = .ok braced inside := by
    rw [← hends]
    exact endStatement_eq (s := inside) (hkind _ (by decide))
  constructor
  · rintro rfl
    have hbody : (host.level (m + 1)).functionBody .definition inside = .ok (none, true) inside := by
      unfold functionBody
      rw [at?_bind, hbrace, if_neg Bool.false_ne_true, bind_of_ok hended]
      rfl
    exact inFunction_of (t := inside) hbody rfl
  · rintro rfl
    obtain ⟨e', u, hread, hmatch, hend, hok⟩ := h.read hs hmargin (n := m) (by omega)
    have hframed : Framed .expression ((host.level m).exprRule { level := .assignment }) :=
      Framed.exprRule { level := .assignment }
    obtain ⟨use, -, haround⟩ | ⟨-, hspoiled⟩ := hframed.framed s {} (Or.inl rfl) rfl
    case inr =>
      rw [hread] at hspoiled
      exact absurd (hok.symm.trans hspoiled) (by decide)
    have hinside : s.around {} = inside := by
      rw [ParserState.around, hs.settled.functions]
      show _ = ({ s with functions := {} :: s.functions } : ParserState)
      rw [hs.settled.functions]
      rfl
    rw [hread, hinside] at haround
    have hexpr : (host.level (m + 1)).assignmentExpr true inside = .ok e' (u.around use) := haround
    have hover : endsHere (FunctionRole.definition != .expression) (u.around use) =
        .ok (u.around use).endsStatement (u.around use) :=
      endStatement_eq (s := u.around use) (by rw [show (u.around use).token.kind = _ from hend]; decide)
    have hbody : (host.level (m + 1)).functionBody .definition inside =
        .ok (some (.expression e'), (u.around use).endsStatement) (u.around use) := by
      unfold functionBody
      rw [at?_bind, hbrace, if_neg Bool.false_ne_true, bind_of_ok hended, if_neg Bool.false_ne_true,
        bind_of_ok hexpr, bind_of_ok hover]
      rfl
    refine ⟨e', (u.around use).endsStatement, (u.around use).functions.head?.getD {},
      { u.around use with functions := (u.around use).functions.tail }, ?_, hmatch, hend, hok⟩
    exact bind_of_ok hbody fun value => popFunction >>= fun use => pure (value, use)

end Bodies

section Definitions

variable {r : Rules} {s t u v : ParserState}

/-- A statement that begins with the keyword of functions defines one. -/
theorem Rules.statementRule_function (context : Context)
    (hword : s.token.toLexeme = { kind := .keyword, text := "function" }) (hnext : Parse.next s = .ok () t) :
    r.statementRule context s = r.functionDefinition {} context (Mark.ofSpan s.token.span) t := by
  have hkind : s.token.kind = .keyword := congrArg Lexeme.kind hword
  have htext : s.token.text = "function" := congrArg Lexeme.text hword
  have hprevious : t.previous = s.token := by rw [(next_inv hnext).2]; rfl
  have hstrict : Words.isStrictDefinition s.token = true := by
    unfold Words.isStrictDefinition
    rw [hkind, htext]
    decide
  have hbegins : Words.beginsDefinition s.token = true := by
    unfold Words.beginsDefinition
    rw [hstrict]
    rfl
  have hattributes : definitionAttributes r.rounds {} s = .ok {} s := by
    have hmodifier : Words.modifier? s.token = none := by
      unfold Words.modifier?
      rw [hkind]
      rfl
    have haccess : Words.access? s.token = none := by
      unfold Words.access?
      rw [hkind, htext]
      decide
    unfold rounds definitionAttributes
    rw [get_bind]
    simp only [hmodifier, haccess]
    rfl
  have hdefinition : r.definition {} context (Mark.ofSpan s.token.span) t =
      r.functionDefinition {} context (Mark.ofSpan s.token.span) t := by
    unfold definition
    rw [previous_bind, hprevious]
    simp [Token.isKeyword, hkind, htext]
  have hmodified : r.modifiedDefinition {} context (Mark.ofSpan s.token.span) s =
      r.functionDefinition {} context (Mark.ofSpan s.token.span) t := by
    unfold modifiedDefinition
    rw [bind_of_ok hattributes, token_bind, hstrict, Bool.true_or, if_pos rfl, bind_of_ok hnext]
    exact hdefinition
  have hstatement : r.optStatement context s =
      (some <$> r.modifiedDefinition {} context (Mark.ofSpan s.token.span)) s := by
    unfold optStatement
    rw [mark_bind, token_bind, hkind]
    show r.keywordStatement context _ s.token s = _
    unfold keywordStatement
    rw [htext]
    show (if Words.beginsDefinition s.token = true then _ else _ : Parse (Option Ended)) s = _
    rw [if_pos hbegins]
  exact (statementRule_of_found hstatement).trans hmodified

/-- The function that is defined, where nothing stands between its name and its parameters. -/
theorem Rules.functionDefinition_named (m : Mark) {parts : FunctionParts} (hkind : s.token.kind = .identifier)
    (hword : ∀ word ∈ ["get", "set"], s.token.isContextKeyword word = false)
    (hnext : Parse.next s = .ok () t) (hopen : t.token.kind = .leftParen)
    (hparts : r.functionParts none .definition t = .ok parts u) :
    ∃ span, r.functionDefinition {} {} m s =
      (checkBody {} parts.common { span, name := s.token.text } >>= fun _ =>
        pure (.functionDef (m.«to» u.previous.span) {} { span, name := s.token.text } parts.generics parts.common,
          parts.ended)) u := by
  obtain ⟨span, hid⟩ := identifier_yes hkind hnext
  have hprevious : t.previous = s.token := by rw [(next_inv hnext).2]; rfl
  have hgenerics : r.optGenerics t = .ok none t := by
    unfold optGenerics
    rw [at?_bind, hopen]
    rfl
  refine ⟨span, ?_⟩
  unfold functionDefinition
  rw [bind_of_ok hid, previous_bind, hprevious, hword _ (by decide), hword _ (by decide), Bool.or_self]
  rw [at?_bind, Bool.false_and, if_neg Bool.false_ne_true]
  show (r.optGenerics >>= _) t = _
  rw [bind_of_ok hgenerics, bind_of_ok hparts, finish_bind]
  rfl

end Definitions

namespace WrittenSignature

/-- The text of a function with the signature, and with an expression behind it. -/
def source (signature : WrittenSignature) (body : String) : String :=
  "function f()" ++ String.ofList signature.text ++ " " ++ body

/-- The function that this is to be. -/
def function (signature : WrittenSignature) (body : Expr) (use : FunctionUse) : Statement :=
  .functionDef default {} { span := default, name := "f" } signature.found.generics
    { span := default, usesAwait := use.usesAwait, usesYield := use.usesYield, params := [], optional := [],
      rest := none, result := signature.result.map (·.type), throws := signature.found.throws,
      body := some (.expression body) }

/-- What stands in front of the signature. -/
def opening : List Char := "function f(".toList

section Parts

variable {host : Host} {path text : String} {signature : WrittenSignature} {e : Expr} {n : Nat} {s : ParserState}

theorem margin_opening {more : List Char} (h : Unbroken more) : Lines.margin (opening ++ more) = [] :=
  Unbroken.margin (.append (by decide) h) (by rintro ch ⟨⟩; decide)

/-- The parts of the function are read up to the end of the text, unless the signature ends in a brace. -/
theorem Proper.parts (h : signature.Proper host path) (hbody : BodyLine host path text e)
    (hopen : s.token.kind = .leftParen)
    (hs : s.Behind opening ([')'] ++ (signature.text ++ ([' '] ++ text.toList)))) (hsettled : s.Settled path)
    (hn : (signature.text.length + text.toList.length) + 4 ≤ n) :
    ∃ parts u, (host.level n).functionParts none .definition s = .ok parts u ∧
      if signature.braced host path then parts.common.body = none ∧ u.token.kind ≠ .endOfProgram
      else parts.common.body.isSome ∧ u.token.kind = .endOfProgram ∧ u.script.valid = true ∧
        ∃ use, Matches (signature.function e use)
          (.functionDef default {} { span := default, name := "f" } parts.generics parts.common) := by
  have hclose : Tokenizes [] [')'] (signature.text ++ ([' '] ++ text.toList)) { kind := .rightParen } :=
    tokenizes_sole (show (')', TokenKind.rightParen) ∈ soleMarks by decide) (List.forall_mem_nil _) _
  have hs : s.Behind opening ([] ++ ([')'] ++ (signature.text ++ ([' '] ++ text.toList)))) := hs
  obtain ⟨t, hnext, hbehind, htoken, -, hkeeps, -⟩ := hs.next hclose
  rw [List.append_nil] at hbehind htoken
  have hkind : t.token.kind = .rightParen := by rw [htoken]
  have hparams : (host.level n).functionParams (host.level n).rounds {} t = .ok {} t := by
    unfold rounds functionParams
    rw [at?_bind, hkind]
    rfl
  obtain ⟨hunbroken, t', result, u, clauses, v, hnext', hannotation, hclauses, hresult, hfound, hv⟩ :=
    h.reads (n := n) (by decide) hbody.bodily hbehind (hsettled.keeps hkeeps) htoken (by omega)
  have hfront : Unbroken (opening ++ [')'] ++ signature.text) := Unbroken.append (by decide) hunbroken
  have hmargin : Lines.margin (opening ++ [')'] ++ signature.text ++ [' ']) = [] := by
    rw [List.append_assoc, List.append_assoc]
    exact margin_opening (Unbroken.append (by decide) (hunbroken.append (by decide)))
  obtain ⟨hnone, hsome⟩ := hbody.inFunction hv hfront hmargin (n := n) (by omega)
  have hparts : ∀ {body ended use w}, inFunction ((host.level n).functionBody .definition) v =
      .ok ((body, ended), use) w → ∃ span, (host.level n).functionParts none .definition s = .ok
        { common := { span, usesAwait := use.usesAwait, usesYield := use.usesYield, params := [], optional := [],
                      rest := none, result, throws := clauses.throws, body }
          generics := clauses.generics
          ended } w := by
    intro body ended use w hread
    refine ⟨(Mark.ofSpan s.token.span).«to» w.previous.span, ?_⟩
    unfold functionParts
    rw [mark_bind, bind_of_ok (expect_yes hopen hnext), bind_of_ok hparams, bind_of_ok (expect_yes hkind hnext'),
      bind_of_ok hannotation, bind_of_ok hclauses, bind_of_ok hread]
    rfl
  cases hbraced : signature.braced host path with
  | true =>
    obtain ⟨span, hread⟩ := hparts (hnone hbraced)
    refine ⟨_, v, hread, rfl, fun hend => ?_⟩
    have := hbody.bodily.token hv.faces
    simp [hend] at this
  | false =>
    obtain ⟨e', ended, use, w, hinside, hmatch, hend, hok⟩ := hsome hbraced
    obtain ⟨span, hread⟩ := hparts hinside
    refine ⟨_, w, hread, rfl, hend, hok, use, ?_⟩
    unfold function
    simp_all

end Parts

section Opening

variable {source : String} {more : List Char}

/-- A letter alone is a name. -/
theorem named_letter {ch : Char} (hpart : CharClass.isIdentifierPart ch = true)
    (hstart : CharClass.isIdentifierStart ch = true) : Named false [NamePart.plain ch] := by
  refine ⟨fun part hmem => ?_, List.cons_ne_nil _ _, fun _ part hmem => ?_⟩
  · obtain rfl := List.mem_singleton.mp hmem
    exact hpart
  · cases hmem
    exact hstart

theorem tokenizes_f (rest : List Char) :
    Tokenizes [' '] ['f'] ('(' :: rest) { kind := .identifier, text := "f" } :=
  tokenizes_name (by decide) (named_letter (by decide) (by decide)) (fun _ => by decide) (by rintro ch ⟨⟩; decide)

/-- The text is read up to the parameters. -/
theorem opening_read (host : Host) (path : String) (hsource : source.toList = opening ++ more) :
    ∃ t u, (Parser.ofScript host (Script.ofSource path source)).state.token.toLexeme =
        { kind := .keyword, text := "function" } ∧
      Parse.next (Parser.ofScript host (Script.ofSource path source)).state = .ok () t ∧
      t.token.toLexeme = { kind := .identifier, text := "f" } ∧ Parse.next t = .ok () u ∧
      u.token.kind = .leftParen ∧ u.Behind opening more ∧ u.Settled path ∧
      (Parser.ofScript host (Script.ofSource path source)).state.script.content = source.toList ∧
      (Parser.ofScript host (Script.ofSource path source)).state.script.valid = true := by
  have hlist : source.toList = "function".toList ++ ([' '] ++ (['f'] ++ ([] ++ (['('] ++ more)))) := hsource
  have hfunction : Tokenizes [] "function".toList _ { kind := .keyword, text := "function" } :=
    tokenizes_keyword (List.forall_mem_nil _) (by decide) (nameEnds_blank (['f'] ++ ([] ++ (['('] ++ more))))
  have hopen : Tokenizes [] ['('] more { kind := .leftParen } :=
    tokenizes_sole (show ('(', TokenKind.leftParen) ∈ soleMarks by decide) (List.forall_mem_nil _) _
  obtain ⟨hbehind, hword, hsettled, hcontent⟩ := Parser.ofScript_behind host path hlist hfunction
  obtain ⟨t, hnext, hbehind', htoken, -, hkeeps', -⟩ := hbehind.next (tokenizes_f more)
  obtain ⟨u, hnext', hbehind'', htoken', -, hkeeps'', -⟩ := hbehind'.next hopen
  exact ⟨t, u, hword, hnext, congrArg Token.toLexeme htoken, hnext', by rw [htoken'],
    hbehind'', (hsettled.keeps hkeeps').keeps hkeeps'', hcontent, hsettled.valid⟩

end Opening

section Wholes

variable {host : Host} {path text : String} {signature : WrittenSignature} {e : Expr}

theorem source_toList (signature : WrittenSignature) (text : String) : (signature.source text).toList =
    opening ++ ([')'] ++ (signature.text ++ ([' '] ++ text.toList))) := by
  have hopening : "function f()".toList = opening ++ [')'] := by decide
  have hblank : " ".toList = [' '] := by decide
  simp only [source, String.toList_append, String.toList_ofList, hopening, hblank, List.append_assoc]

/-- The statement is read as the function, unless the signature ends in a brace. -/
theorem Proper.statement (h : signature.Proper host path) (hbody : BodyLine host path text e) {n : Nat}
    (hn : signature.text.length + text.toList.length + 4 ≤ n) :
    ∃ found u, (host.level n).statementRule {}
        (Parser.ofScript host (Script.ofSource path (signature.source text))).state = .ok found u ∧
      if signature.braced host path then u.token.kind ≠ .endOfProgram
      else u.token.kind = .endOfProgram ∧ u.script.valid = true ∧
        ∃ use, Matches (signature.function e use) found.1 := by
  obtain ⟨t, t', hword, hnext, hname, hnext', hopen, hbehind, hsettled, -, -⟩ :=
    opening_read host path (signature.source_toList text)
  have hkind : t.token.kind = .identifier := congrArg Lexeme.kind hname
  have htext : t.token.text = "f" := congrArg Lexeme.text hname
  have hplain : ∀ word ∈ ["get", "set"], t.token.isContextKeyword word = false := by
    have hwords : ∀ word ∈ ["get", "set"], "f" ≠ word := by decide
    intro word hmem
    simp [Token.isContextKeyword, htext, hwords word hmem]
  obtain ⟨parts, u, hparts, hfound⟩ := h.parts hbody hopen hbehind hsettled hn
  obtain ⟨span, hnamed⟩ := functionDefinition_named (Mark.ofSpan (Parser.ofScript host (Script.ofSource path
    (signature.source text))).state.token.span) hkind hplain hnext' hopen hparts
  rw [← statementRule_function {} hword hnext] at hnamed
  cases hbraced : signature.braced host path with
  | true =>
    rw [hbraced, if_pos rfl] at hfound
    have hchecked : checkBody {} parts.common { span, name := t.token.text } u =
        .ok () (u.collect { id := .functionMustveBody, severity := .syntaxError, span, arguments := [] }) := by
      unfold checkBody
      rw [hfound.1]
      rfl
    rw [bind_of_ok hchecked] at hnamed
    exact ⟨_, _, hnamed, hfound.2⟩
  | false =>
    rw [hbraced, if_neg Bool.false_ne_true] at hfound
    obtain ⟨hbody, hend, hok, use, hmatch⟩ := hfound
    have hchecked : checkBody {} parts.common { span, name := t.token.text } u = .ok () u := by
      unfold checkBody
      rw [← Option.not_isSome, hbody]
      rfl
    rw [bind_of_ok hchecked, htext] at hnamed
    exact ⟨_, u, hnamed, hend, hok, use, by simpa [function] using hmatch⟩

end Wholes

end WrittenSignature

section Wholes

open WrittenSignature

namespace Parser

variable {host : Host} {path text : String} {signature : WrittenSignature} {e : Expr}

/-- A function with an expression for its body is accepted as such just when its signature does not end in a
brace. -/
theorem parseStatement_expressionBody (h : signature.Proper host path) (hbody : BodyLine host path text e) :
    ∃ use statement, Matches (signature.function e use) statement ∧
      (Parser.ofScript host (Script.ofSource path (signature.source text))).parseStatement.1 =
        if signature.braced host path then none else some statement := by
  obtain ⟨t, u, -, -, -, -, -, -, -, hcontent, hvalid⟩ :=
    opening_read host path (signature.source_toList text)
  have hlength : signature.text.length + text.toList.length + 4 ≤ (signature.source text).toList.length + 3 := by
    rw [signature.source_toList text]
    simp only [List.length_append, List.length_cons, List.length_nil]
    omega
  obtain ⟨found, v, hread, hfound⟩ := h.statement hbody hlength
  have hread' : ((host.level ((signature.source text).toList.length + 3)).statementRule {} >>=
      fun found => pure found.1 : Parse Statement)
        (Parser.ofScript host (Script.ofSource path (signature.source text))).state = .ok found.1 v := by
    rw [bind_of_ok hread]
    rfl
  cases hbraced : signature.braced host path with
  | true =>
    rw [hbraced, if_pos rfl] at hfound
    refine ⟨{}, signature.function e {}, rfl, ?_⟩
    rw [if_pos rfl, Option.eq_none_iff_forall_ne_some]
    intro statement hstatement
    obtain ⟨w, hspans, -⟩ := spans_of_run hstatement
    cases hread'.symm.trans (hspans.read_level hcontent)
    exact hfound hspans.ends
  | false =>
    rw [hbraced, if_neg Bool.false_ne_true] at hfound
    obtain ⟨hend, hok, use, hmatch⟩ := hfound
    have hspans : (Parser.ofScript host (Script.ofSource path (signature.source text))).Spans
        (fun r => r.statementRule {} >>= fun found => pure found.1) found.1 v :=
      spans_of_read hcontent hvalid hread' hend
    refine ⟨use, found.1, hmatch, ?_⟩
    rw [if_neg Bool.false_ne_true, parseStatement, run_of_spans hspans]
    exact if_pos hok

/-- A text that is a type by itself. -/
theorem typeLine_of_isSome {text : String} (hunbroken : Unbroken text.toList)
    (hcomments : (Parser.ofScript host (Script.ofSource path text)).parseType.2.state.script.comments = #[])
    (hsome : (Parser.ofScript host (Script.ofSource path text)).parseType.1.isSome = true) :
    ∃ type, TypeLine host path text type := by
  obtain ⟨type, htype⟩ := Option.isSome_iff_exists.mp hsome
  refine ⟨type, htype, hunbroken, ?_⟩
  rintro ⟨comment, hmem, -⟩
  rw [hcomments] at hmem
  exact absurd hmem (by simp)

/-- A sum behind a result, behind two types that are thrown and behind a bound. -/
theorem parseStatement_expressionBody_sum : ∃ a b c d e use statement,
    Matches (WrittenSignature.function ⟨some ⟨"A", a⟩, [.throws ⟨"\x7b\x7d", b⟩ [⟨"[C]", c⟩],
      .bounds ⟨[.plain 'T'], ⟨"D?", d⟩⟩ []]⟩ e use) statement ∧
    (Parser.ofScript (Host.ofFiles []) (Script.ofSource "/m.es"
      "function f(): A throws \x7b\x7d, [C] where T is D? e + 1")).parseStatement.1 = some statement := by
  have line : ∀ text : String, Unbroken text.toList →
      (Parser.ofScript (Host.ofFiles []) (Script.ofSource "/m.es" text)).parseType.2.state.script.comments = #[] →
      (Parser.ofScript (Host.ofFiles []) (Script.ofSource "/m.es" text)).parseType.1.isSome = true →
      ∃ type, TypeLine (Host.ofFiles []) "/m.es" text type := fun _ => typeLine_of_isSome
  obtain ⟨a, ha⟩ := line "A" (by decide) (by decide +kernel) (by decide +kernel)
  obtain ⟨b, hb⟩ := line "\x7b\x7d" (by decide) (by decide +kernel) (by decide +kernel)
  obtain ⟨c, hc⟩ := line "[C]" (by decide) (by decide +kernel) (by decide +kernel)
  obtain ⟨d, hd⟩ := line "D?" (by decide) (by decide +kernel) (by decide +kernel)
  have hsum : ((Parser.ofScript (Host.ofFiles []) (Script.ofSource "/m.es" "e + 1")).parseExpressionWith true
      .assignment).1.isSome = true := by decide +kernel
  obtain ⟨e, he⟩ := Option.isSome_iff_exists.mp hsum
  have hbody : BodyLine (Host.ofFiles []) "/m.es" "e + 1" e :=
    ⟨he, by decide, by rintro ch ⟨⟩; decide, by decide +kernel⟩
  have hfree : Keyword.isReserved (String.ofList (NamePart.chars [.plain 'T'])) = false := by decide
  have hthrows : ∀ type ∈ [(⟨"\x7b\x7d", b⟩ : WrittenType), ⟨"[C]", c⟩], type.Proper (Host.ofFiles []) "/m.es" :=
    List.forall_mem_cons.mpr ⟨hb, List.forall_mem_singleton.mpr hc⟩
  have hbound : WrittenBound.Proper (Host.ofFiles []) "/m.es" ⟨[.plain 'T'], ⟨"D?", d⟩⟩ :=
    ⟨named_letter (by decide) (by decide), hfree, hd⟩
  have hproper : WrittenSignature.Proper (Host.ofFiles []) "/m.es" ⟨some ⟨"A", a⟩, [.throws ⟨"\x7b\x7d", b⟩
      [⟨"[C]", c⟩], .bounds ⟨[.plain 'T'], ⟨"D?", d⟩⟩ []]⟩ := by
    refine ⟨?_, List.forall_mem_cons.mpr ⟨hthrows, List.forall_mem_singleton.mpr
      (List.forall_mem_singleton.mpr hbound)⟩, Nat.le_refl 1⟩
    rintro type ⟨⟩
    exact ha
  have hlast : endsInBrace (Host.ofFiles []) "/m.es" "D?" = false := by decide +kernel
  obtain ⟨use, statement, hmatch, hread⟩ := parseStatement_expressionBody hproper hbody
  refine ⟨a, b, c, d, e, use, statement, hmatch, ?_⟩
  have hsource : "function f(): A throws \x7b\x7d, [C] where T is D? e + 1" = WrittenSignature.source
      ⟨some ⟨"A", a⟩, [.throws ⟨"\x7b\x7d", b⟩ [⟨"[C]", c⟩], .bounds ⟨[.plain 'T'], ⟨"D?", d⟩⟩ []]⟩ "e + 1" := by
    simp [WrittenSignature.source, WrittenSignature.text, WrittenSignature.resultText, WrittenClause.texts,
      WrittenClause.text, listed, WrittenBound.text, NamePart.texts, NamePart.text]
  rw [hsource, hread]
  simp [WrittenSignature.braced, WrittenSignature.last?, WrittenClause.last, WrittenType.braced, hlast]

/-- A record type ends in a brace, and a function with such a result is refused. -/
theorem parseStatement_expressionBody_refused : ∃ type e,
    TypeLine (Host.ofFiles []) "/m.es" "\x7b a: B \x7d" type ∧ BodyLine (Host.ofFiles []) "/m.es" "e" e ∧
    (Parser.ofScript (Host.ofFiles []) (Script.ofSource "/m.es"
      "function f(): \x7b a: B \x7d e")).parseStatement.1 = none := by
  have hrecord : (Parser.ofScript (Host.ofFiles []) (Script.ofSource "/m.es"
      "\x7b a: B \x7d")).parseType.2.state.script.comments = #[] := by decide +kernel
  obtain ⟨type, htype⟩ := typeLine_of_isSome (by decide) hrecord (by decide +kernel)
  have hname : ((Parser.ofScript (Host.ofFiles []) (Script.ofSource "/m.es" "e")).parseExpressionWith true
      .assignment).1.isSome = true := by decide +kernel
  obtain ⟨e, he⟩ := Option.isSome_iff_exists.mp hname
  have hrefused : (Parser.ofScript (Host.ofFiles []) (Script.ofSource "/m.es"
      "function f(): \x7b a: B \x7d e")).parseStatement.1.isNone = true := by decide +kernel
  exact ⟨type, e, htype, ⟨he, by decide, by rintro ch ⟨⟩; decide, by decide +kernel⟩,
    Option.isNone_iff_eq_none.mp hrefused⟩

end Parser

end Wholes

end ActionSyntax
