import ActionSyntax.Proofs.Destructuring
import ActionSyntax.Proofs.Shadows.Insets

/-!
The slots of an array. Between the brackets stand slots with commas between them; each slot is a hole, an
expression or a spread expression. A comma behind a hole belongs to it, and a comma behind the last slot
adds none.
-/

namespace ActionSyntax

set_option autoImplicit false

open Parse Rules Scan

/-- What is written in a slot. -/
inductive Slot where
  | hole (blank : List Char)
  | item (text : List Char)
  | spread (front text : List Char)

namespace Slot

def text : Slot → List Char
  | hole blank => blank
  | item text => text
  | spread front text => front ++ ['.', '.', '.'] ++ text

def isHole : Slot → Bool
  | hole _ => true
  | _ => false

/-- No comma stands behind the slot: no other one follows, it is no hole, and no comma is wanted. -/
def isLast (trailing : Bool) (slot : Slot) (rest : List Slot) : Bool :=
  rest.isEmpty && !trailing && !slot.isHole

/-- What is written for the slots up to the closing bracket, in front of which there may be blanks if there
is no slot or a comma before. -/
def written (trailing : Bool) (closing : List Char) : List Slot → List Char
  | [] => closing
  | slot :: rest =>
    if isLast trailing slot rest then slot.text
    else slot.text ++ ',' :: written trailing closing rest

/-- What the slot holds, written behind what stands before. -/
inductive Holds (host : Host) (path : String) (before : List Char) : Slot → Option Expr → Prop
  | hole {blank : List Char} : Blank host path before blank → Holds host path before (.hole blank) none
  | item {text : List Char} {e : Expr} : Item host path before text e →
      Holds host path before (.item text) (some e)
  | spread {front text : List Char} {e : Expr} : Spacing front →
      Item host path (before ++ front ++ ['.', '.', '.']) text e →
      Holds host path before (.spread front text) (some (.spread default e))

/-- What the slots hold, the first one written behind what stands before. -/
inductive HoldAll (host : Host) (path : String) (trailing : Bool) (closing : List Char) :
    List Char → List Slot → List (Option Expr) → Prop
  | nil {before : List Char} : Blank host path before closing →
      HoldAll host path trailing closing before [] []
  | last {before : List Char} {slot : Slot} {value : Option Expr} : isLast trailing slot [] = true →
      Holds host path before slot value → HoldAll host path trailing closing before [slot] [value]
  | more {before : List Char} {slot : Slot} {value : Option Expr} {rest : List Slot}
      {values : List (Option Expr)} : isLast trailing slot rest = false →
      Holds host path before slot value →
      HoldAll host path trailing closing (before ++ slot.text ++ [',']) rest values →
      HoldAll host path trailing closing before (slot :: rest) (value :: values)

end Slot

theorem Scan.tokenizes_ellipsis {gap : List Char} (hgap : Spacing gap) (rest : List Char) :
    Tokenizes gap ['.', '.', '.'] rest { kind := .ellipsis } := by
  refine ⟨hgap, ?_, fun c hrest => ⟨c.skip 3, ?_, Cursor.passes_skip hrest (by decide)⟩⟩
  · exact opens_cons (by decide) (by decide) (by decide) fun heq => absurd heq (by decide)
  · apply lexeme_of_punctuation hrest (by decide) (by decide)
    obtain ⟨_, index, line, lines, comments⟩ := c
    cases hrest
    rfl

namespace Slot

variable {host : Host} {path : String} {before closing rest : List Char} {slot : Slot} {mark : Char}
  {trailing : Bool} {w : ParserState} {n : Nat}

/-- What is no hole is read as an item. -/
theorem Holds.read {e : Expr} (h : Holds host path before slot (some e)) (hmark : mark ∈ closingMarks)
    (hw : w.Behind before (slot.text ++ mark :: rest)) (hsettled : w.Settled path)
    (hn : (before ++ slot.text).length + 3 ≤ n) :
    ∃ t e' u, Parse.next w = .ok () t ∧ t.token.kind ≠ .comma ∧ t.token.kind ≠ .rightBracket ∧
      (host.level (n + 1)).arrayItem t = .ok e' u ∧ Matches e e' ∧ u.AtMark (before ++ slot.text) mark rest ∧
      u.Settled path := by
  cases h with
  | @item text _ hitem =>
    obtain ⟨t, e', u, hnext, hread, hmatch, hplace, hsettled'⟩ := hitem.read hmark hw hsettled hn
    have hexpr : (host.level (n + 1)).assignmentExpr true t = .ok e' u := hread
    have hrefused : ∀ kind ∈ [TokenKind.ellipsis, .rightParen, .comma, .rightBracket],
        t.token.kind ≠ kind := fun kind hmem heq =>
      expr_refuses (host.level_optExpr n) (heq ▸ hmem) hexpr
    refine ⟨t, e', u, hnext, hrefused _ (by decide), hrefused _ (by decide), ?_, hmatch, hplace, hsettled'⟩
    unfold arrayItem
    rw [mark_bind, bind_of_ok (consume_no (hrefused .ellipsis (by decide)))]
    exact hexpr
  | @spread front text e hfront hitem =>
    have htoken := tokenizes_ellipsis hfront (text ++ mark :: rest)
    have hw : w.Behind before (front ++ (['.', '.', '.'] ++ (text ++ mark :: rest))) := by
      simpa [Slot.text] using hw
    obtain ⟨t, hnext, hbehind, hellipsis, -, hkeeps, -⟩ := hw.next htoken
    have hkind : t.token.kind = .ellipsis := by rw [hellipsis]
    have hlength : (before ++ front ++ ['.', '.', '.'] ++ text).length + 3 ≤ n := by
      simpa [Slot.text, Nat.add_assoc] using hn
    obtain ⟨t', e', u, hnext', hread, hmatch, hplace, hsettled'⟩ :=
      hitem.read hmark hbehind (hsettled.keeps hkeeps) hlength
    have hexpr : (host.level (n + 1)).assignmentExpr true t' = .ok e' u := hread
    refine ⟨t, .spread ((Mark.ofSpan t.token.span).«to» u.previous.span) e', u, hnext, by simp [hkind],
      by simp [hkind], ?_, by simpa using hmatch, by simpa [Slot.text] using hplace, hsettled'⟩
    unfold arrayItem
    rw [mark_bind, bind_of_ok (consume_yes hkind hnext'), if_pos rfl, bind_of_ok hexpr, finish_bind]
    rfl

/-- All slots are read up to the closing bracket, whatever they hold. -/
theorem HoldAll.read {slots : List Slot} {values : List (Option Expr)}
    (h : HoldAll host path trailing closing before slots values) : ∀ {fuel : Nat} {w : ParserState},
    w.Behind before (written trailing closing slots ++ ']' :: rest) → w.Settled path →
    (before ++ written trailing closing slots).length + 3 ≤ n → slots.length < fuel →
    ∃ t values' u, Parse.next w = .ok () t ∧ (host.level (n + 1)).arrayItems fuel t = .ok values' u ∧
      Matches values values' ∧ u.AtMark (before ++ written trailing closing slots) ']' rest ∧
      u.Settled path := by
  have hcomma : ',' ∈ closingMarks := by decide
  have hbracket : ']' ∈ closingMarks := by decide
  have hstops : ∀ mark ∈ closingMarks, mark ∈ stopMarks := by decide
  induction h with
  | nil hblank =>
    intro fuel w hw hsettled _ hfuel
    obtain ⟨fuel, rfl⟩ : ∃ more, fuel = more + 1 := ⟨fuel - 1, by omega⟩
    obtain ⟨t, hnext, hplace, hsettled'⟩ := hblank.read (hstops _ hbracket) hw hsettled
    have hkind : t.token.kind = .rightBracket := hplace.kind
    refine ⟨t, [], t, hnext, ?_, rfl, hplace, hsettled'⟩
    unfold arrayItems
    rw [bind_of_ok (consume_no (by simp [hkind])), if_neg Bool.false_ne_true, at?_bind, hkind]
    rfl
  | @last before slot value hlast hslot =>
    intro fuel w hw hsettled hn hfuel
    obtain ⟨fuel, rfl⟩ : ∃ more, fuel = more + 1 := ⟨fuel - 1, by omega⟩
    have hwritten : written trailing closing [slot] = slot.text := if_pos hlast
    rw [hwritten] at hw hn ⊢
    obtain ⟨e, rfl⟩ : ∃ e, value = some e := by
      cases hslot with
      | hole => simp [isLast, isHole] at hlast
      | item | spread => exact ⟨_, rfl⟩
    obtain ⟨t, e', u, hnext, hnoComma, hopen, hread, hmatch, hplace, hsettled'⟩ :=
      hslot.read hbracket hw hsettled hn
    have hkind : u.token.kind = .rightBracket := hplace.kind
    refine ⟨t, [some e'], u, hnext, ?_, by simpa using hmatch, hplace, hsettled'⟩
    unfold arrayItems
    rw [bind_of_ok (consume_no hnoComma), if_neg Bool.false_ne_true, at?_bind, beq_false_of_ne hopen,
      if_neg Bool.false_ne_true, bind_of_ok hread, bind_of_ok (consume_no (by simp [hkind]))]
    rfl
  | @more before slot value slots values hmore hslot hrest ih =>
    intro fuel w hw hsettled hn hfuel
    obtain ⟨fuel, rfl⟩ : ∃ more, fuel = more + 1 := ⟨fuel - 1, by omega⟩
    have hwritten : written trailing closing (slot :: slots) =
        slot.text ++ ',' :: written trailing closing slots := if_neg (by simp [hmore])
    rw [hwritten] at hw hn ⊢
    rw [List.append_assoc, List.cons_append] at hw
    have hlength : (before ++ slot.text ++ [','] ++ written trailing closing slots).length + 3 ≤ n := by
      simpa using hn
    have hshift : before ++ slot.text ++ [','] ++ written trailing closing slots =
        before ++ (slot.text ++ ',' :: written trailing closing slots) := by simp
    rw [← hshift]
    cases value with
    | none =>
      cases hslot with
      | hole hblank =>
        obtain ⟨t, hnext, hplace, hsettled'⟩ := hblank.read (hstops _ hcomma) hw hsettled
        obtain ⟨t', values', u, hnext', hread, hmatch, hplace', hsettled''⟩ :=
          ih hplace.behind hsettled' hlength (Nat.lt_of_succ_lt_succ hfuel)
        have hkind : t.token.kind = .comma := hplace.kind
        refine ⟨t, none :: values', u, hnext, ?_, by simpa using hmatch, hplace', hsettled''⟩
        unfold arrayItems
        rw [bind_of_ok (consume_yes hkind hnext'), if_pos rfl, bind_of_ok hread]
        rfl
    | some e =>
      have hfits : (before ++ slot.text).length + 3 ≤ n := by
        simp only [List.length_append, List.length_cons] at hn ⊢
        omega
      obtain ⟨t, e', s, hnext, hnoComma, hopen, hitem, hmatch, hplace, hsettled'⟩ :=
        hslot.read hcomma hw hsettled hfits
      obtain ⟨t', values', u, hnext', hread, hmatches, hplace', hsettled''⟩ :=
        ih hplace.behind hsettled' hlength (Nat.lt_of_succ_lt_succ hfuel)
      have hkind : s.token.kind = .comma := hplace.kind
      refine ⟨t, some e' :: values', u, hnext, ?_, by simp_all, hplace', hsettled''⟩
      unfold arrayItems
      rw [bind_of_ok (consume_no hnoComma), if_neg Bool.false_ne_true, at?_bind, beq_false_of_ne hopen,
        if_neg Bool.false_ne_true, bind_of_ok hitem, bind_of_ok (consume_yes hkind hnext'),
        if_pos rfl, bind_of_ok hread]
      rfl

/-- There is not much more to read than slots. -/
theorem length_le_written (trailing : Bool) (closing : List Char) : ∀ slots : List Slot,
    slots.length ≤ (written trailing closing slots).length + 1
  | [] => Nat.zero_le _
  | slot :: rest => by
    have ih := length_le_written trailing closing rest
    unfold written
    split
    · rename_i hlast
      have hnil : rest = [] := by
        simp only [isLast, Bool.and_eq_true, List.isEmpty_iff] at hlast
        exact hlast.1.1
      rw [hnil]
      exact Nat.le_add_left 1 _
    · simp only [List.length_append, List.length_cons]
      omega

end Slot

section Brackets

variable {s t u v : ParserState} {r : Rules}

theorem Rules.simplePrimary?_mark (hkind : s.token.kind ∉
    [.string, .number, .keyword, .operator, .compoundAssignment]) (m : Mark) :
    r.simplePrimary? m s = .ok none s := by
  simp only [List.mem_cons, List.not_mem_nil, or_false, not_or] at hkind
  obtain ⟨hstring, hnumber, hkeyword, hoperator, hcompound⟩ := hkind
  have hword : ∀ word, consumeKeyword word s = .ok false s := fun word =>
    consumeKeyword_no (by simp [Token.isKeyword, hkeyword])
  have hregular : beginsRegularExpression s.token = false := by
    simp [beginsRegularExpression, Token.isOperator, Token.isCompoundAssignment, hoperator, hcompound]
  unfold simplePrimary?
  simp only [bind_of_ok (hword _), bind_of_ok (consume_no hstring), bind_of_ok (consume_no hnumber),
    token_bind, hregular, Bool.false_eq_true, if_false]
  rfl

/-- An operand that begins with a bracket is an array. -/
theorem Rules.operand?_bracket (hkind : s.token.kind = .leftBracket) (hnext : Parse.next s = .ok () t)
    (mode : ExprMode) {e : Expr} (hread : r.arrayInitializer (Mark.ofSpan s.token.span) t = .ok e u) :
    r.operand? mode s = .ok (some e) u := by
  have hsimple : ∀ m, r.simplePrimary? m s = .ok none s := simplePrimary?_mark (by simp [hkind])
  have hnone : ∀ k ∈ [TokenKind.identifier, .leftParen, .leftBrace], consume k s = .ok false s :=
    fun k hmem => consume_no fun heq => by simp [← heq, hkind] at hmem
  have hprimary : r.optPrimaryRule mode.allowTyped mode.level s = .ok (some e) u := by
    unfold optPrimaryRule consumeIdentifier
    rw [mark_bind, bind_of_ok (hnone .identifier (by decide))]
    simp only [Bool.false_eq_true, if_false, bind_of_ok (hsimple _),
      bind_of_ok (hnone .leftParen (by decide)), bind_of_ok (hnone .leftBrace (by decide)),
      bind_of_ok (consume_yes hkind hnext), if_true, bind_of_ok hread]
    rfl
  unfold operand?
  rw [bind_of_ok hprimary]
  rfl

/-- An array is read with all its slots. -/
theorem Slot.HoldAll.array {host : Host} {path : String} {before closing rest : List Char} {trailing : Bool}
    {slots : List Slot} {values : List (Option Expr)} {n : Nat}
    (h : HoldAll host path trailing closing before slots values) (hkind : s.token.kind = .leftBracket)
    (hs : s.Behind before (written trailing closing slots ++ ']' :: rest)) (hsettled : s.Settled path)
    (hn : (before ++ written trailing closing slots).length + 3 ≤ n) :
    ∃ values' u, Matches values values' ∧ u.AtMark (before ++ written trailing closing slots) ']' rest ∧
      u.Settled path ∧ ∀ v, Parse.next u = .ok () v → v.token.kind ≠ .colon → ∀ mode,
        ∃ span, (host.level (n + 1)).operand? mode s = .ok (some (.array span values' none)) v := by
  have hrounds : slots.length < (host.level (n + 1)).rounds := by
    have hslots := length_le_written trailing closing slots
    show slots.length < n + 1 + 2
    rw [List.length_append] at hn
    omega
  obtain ⟨t, values', u, hnext, hread, hmatch, hplace, hsettled'⟩ := h.read hs hsettled hn hrounds
  refine ⟨values', u, hmatch, hplace, hsettled', fun v hclose hcolon mode => ?_⟩
  refine ⟨_, operand?_bracket hkind hnext mode (e := .array ((Mark.ofSpan s.token.span).«to» v.previous.span)
    values' none) ?_⟩
  have hbracket : u.token.kind = .rightBracket := hplace.kind
  have hannotation : optAnnotation (host.level (n + 1)) v = .ok none v := by
    unfold optAnnotation
    rw [bind_of_ok (consume_no hcolon)]
    rfl
  unfold arrayInitializer
  rw [bind_of_ok hread, bind_of_ok (expect_yes hbracket hclose), bind_of_ok hannotation, finish_bind]
  rfl

end Brackets

section Marks

variable {gap rest : List Char}

theorem Scan.tokenizes_leftBracket (hgap : Spacing gap) (rest : List Char) :
    Tokenizes gap ['['] rest { kind := .leftBracket } :=
  tokenizes_sole (show ('[', TokenKind.leftBracket) ∈ soleMarks by decide) hgap rest

theorem Scan.tokenizes_assign (hgap : Spacing gap) (rest : List Char) :
    Tokenizes gap ['='] (' ' :: rest) { kind := .assign } := by
  apply Tokenizes.ofMark hgap _ (by decide)
  · intro c hrest
    apply lexeme_of_punctuation hrest (by decide) (by decide)
    obtain ⟨_, index, line, lines, comments⟩ := c
    cases hrest
    rfl
  · exact opens_cons (by decide) (by decide) (by decide) fun heq => absurd heq (by decide)

end Marks

namespace Slot

/-- The text of an array. -/
def array (trailing : Bool) (closing : List Char) (slots : List Slot) : String :=
  String.ofList ('[' :: (written trailing closing slots ++ [']']))

/-- What a slot holds becomes a part of a pattern. -/
inductive Takes : Option Expr → PatternItem → Prop
  | hole : Takes none .hole
  | pattern {e : Expr} {p : Pattern} : Pattern.ofExpr e = .ok p → Takes (some e) (.pattern p)
  | spread {span : Span} {e : Expr} {p : Pattern} : Pattern.ofExpr e = .ok p →
      Takes (some (.spread span e)) (.spread span p)

theorem takes_of_ofItem {value : Option Expr} {item : PatternItem} (h : Pattern.ofItem value = .ok item) :
    Takes value item := by
  cases value with
  | none =>
    cases h
    exact .hole
  | some e =>
    obtain ⟨p, hp, rfl⟩ := map_eq_ok_iff.mp h
    cases e <;> first | exact .spread hp | exact .pattern hp

end Slot

/-- A traversal gives what its step gives, item by item. -/
theorem forall₂_of_mapM_eq_ok {α β : Type} {f : α → Except Span β} : ∀ {xs : List α} {ys : List β}, xs.mapM f = .ok ys →
    List.Forall₂ (fun x y => f x = .ok y) xs ys
  | [], ys, h => by
    cases h
    exact .nil
  | x :: xs, ys, h => by
    rw [List.mapM_cons] at h
    obtain ⟨y, hx, h⟩ := ok_of_bind h
    obtain ⟨rest, hxs, h⟩ := ok_of_bind h
    cases h
    exact .cons hx (forall₂_of_mapM_eq_ok hxs)

section Wholes

variable {host : Host} {path : String} {closing : List Char} {trailing : Bool} {slots : List Slot}
  {values : List (Option Expr)}

namespace Parser

/-- An array is read at the beginning of a text, and then the token behind it. -/
theorem array_first {source : String} {l : Lexeme} {gap text more : List Char}
    (h : Slot.HoldAll host path trailing closing ['['] slots values)
    (hsource : source.toList = '[' :: (Slot.written trailing closing slots ++ ']' :: (gap ++ (text ++ more))))
    (htoken : Tokenizes gap text more l) (hcolon : l.kind ≠ .colon) :
    (Parser.ofScript host (Script.ofSource path source)).state.script.content = source.toList ∧
    (Parser.ofScript host (Script.ofSource path source)).state.script.valid = true ∧
    ∃ values' span v, Matches values values' ∧
      (host.level (source.toList.length + 3)).operand? {}
        (Parser.ofScript host (Script.ofSource path source)).state = .ok (some (.array span values' none)) v ∧
      v.Behind ('[' :: (Slot.written trailing closing slots ++ [']']) ++ gap ++ text) more ∧ v.Settled path ∧
      v.token.toLexeme = l := by
  have hbracket : Tokenizes [] ['['] (Slot.written trailing closing slots ++ ']' :: (gap ++ (text ++ more)))
      { kind := .leftBracket } := tokenizes_leftBracket (List.forall_mem_nil _) _
  obtain ⟨hbehind, hfirst, hsettled, hcontent⟩ := ofScript_behind host path hsource hbracket
  have hlength : (['['] ++ Slot.written trailing closing slots).length + 3 ≤ source.toList.length + 2 := by
    rw [hsource]
    simp only [List.length_append, List.length_cons, List.length_nil]
    omega
  obtain ⟨values', u, hmatch, hplace, hsettled', hread⟩ :=
    h.array (congrArg Lexeme.kind hfirst) hbehind hsettled hlength
  obtain ⟨v, hnext, hbehind', htoken', -, hkeeps', -⟩ := hplace.behind.next htoken
  have hkind : v.token.toLexeme = l := by rw [htoken']
  obtain ⟨span, hoperand⟩ := hread v hnext (fun hv => hcolon (by rw [← hkind]; exact hv)) {}
  refine ⟨hcontent, hsettled.valid, values', span, v, hmatch, hoperand, ?_, hsettled'.keeps hkeeps', hkind⟩
  simpa using hbehind'

theorem run_of_continued {source : String} {base e : Expr} {v w : ParserState}
    (hcontent : (Parser.ofScript host (Script.ofSource path source)).state.script.content = source.toList)
    (hvalid : (Parser.ofScript host (Script.ofSource path source)).state.script.valid = true)
    (hoperand : (host.level (source.toList.length + 3)).operand? {}
      (Parser.ofScript host (Script.ofSource path source)).state = .ok (some base) v)
    (hcontinued : (host.level (source.toList.length + 3)).continued base true .list v = .ok e w)
    (hend : w.token.kind = .endOfProgram) (hok : w.script.valid = true) :
    (Parser.ofScript host (Script.ofSource path source)).parseExpression.1 = some e := by
  have hread : (host.level (source.toList.length + 3)).exprRule { allowIn := true, level := .list }
      (Parser.ofScript host (Script.ofSource path source)).state = .ok e w := by
    unfold exprRule optExprRule
    rw [bind_assoc, bind_of_ok hoperand]
    dsimp only
    rw [bind_assoc, bind_of_ok hcontinued]
    rfl
  have hspans : (Parser.ofScript host (Script.ofSource path source)).Spans
      (fun r => r.exprRule { allowIn := true, level := .list }) e w :=
    spans_of_read hcontent hvalid hread hend
  unfold parseExpression parseExpressionWith
  rw [run_of_spans hspans]
  exact if_pos hok

/-- An array holds what its slots hold, and as a target it takes them apart slot by slot. -/
theorem parseExpression_array (h : Slot.HoldAll host path trailing closing ['['] slots values) :
    (∃ e, (Parser.ofScript host (Script.ofSource path
        (Slot.array trailing closing slots))).parseExpression.1 = some e ∧
      Matches (.array default values none) e) ∧
    ∀ {right : List Char} {v : Expr},
      Inset host path ((Slot.array trailing closing slots).toList ++ [' ', '=', ' ']) right v →
      (∀ value ∈ values, ∃ item, Pattern.ofItem value = .ok item) →
      ∃ patterns e, List.Forall₂ Slot.Takes values patterns ∧
        (Parser.ofScript host (Script.ofSource path (Slot.array trailing closing slots ++ " = " ++
          String.ofList right))).parseExpression.1 = some e ∧
        Matches (.assignment default (.pattern (.array default patterns none)) none v) e := by
  constructor
  · have hsource : (Slot.array trailing closing slots).toList =
        '[' :: (Slot.written trailing closing slots ++ ']' :: ([] ++ ([] ++ []))) := by simp [Slot.array]
    obtain ⟨hcontent, hvalid, values', span, v, hmatch, hoperand, -, hsettled, hlexeme⟩ :=
      array_first h hsource tokenizes_end (by decide)
    have hend : v.token.kind = .endOfProgram := congrArg Lexeme.kind hlexeme
    have hover : continuation? true .list v = none :=
      continuation?_over (by rw [hend]; rfl) fun hkind => by simp [hend] at hkind
    refine ⟨.array span values' none, ?_, by simpa using hmatch⟩
    exact run_of_continued hcontent hvalid hoperand (RulesShadow.continuations_none hover) hend hsettled.valid
  · intro right value hright hconverts
    generalize hsource : Slot.array trailing closing slots ++ " = " ++ String.ofList right = source
    have hlist : source.toList =
        '[' :: (Slot.written trailing closing slots ++ ']' :: ([' '] ++ (['='] ++ (' ' :: right)))) := by
      simp [← hsource, Slot.array]
    obtain ⟨hcontent, hvalid, values', span, v, hmatch, hoperand, hbehind, hsettled, hlexeme⟩ :=
      array_first h hlist (tokenizes_assign (by decide) right) (by decide)
    have hassign : v.token.kind = .assign := congrArg Lexeme.kind hlexeme
    have hway : continuation? true .list v = some .assign := by
      unfold continuation? OperatorRule.between? OperatorRule.behind?
      simp [hassign, Token.isKeyword, Token.isContextKeyword]
      decide
    -- The items are taken apart as they are by themselves.
    obtain ⟨patterns, hpatterns⟩ := mapM_ok_iff_forall.mpr hconverts
    have htakes : List.Forall₂ Slot.Takes values patterns :=
      (forall₂_of_mapM_eq_ok hpatterns).imp fun _ _ => Slot.takes_of_ofItem
    have htaken : Pattern.ofExpr (.array default values none) = .ok (.array default patterns none) := by
      rw [Pattern.ofExpr_array, hpatterns]
      rfl
    have harray : Matches (Expr.array default values none) (.array span values' none) := by simpa using hmatch
    have htarget := harray.ofExpr
    rw [htaken] at htarget
    obtain ⟨pattern, hpattern, hmatches⟩ : ∃ pattern, Pattern.ofExpr (.array span values' none) = .ok pattern ∧
        Matches (Pattern.array default patterns none) pattern := by
      cases hpattern : Pattern.ofExpr (.array span values' none) with
      | ok pattern =>
        rw [hpattern] at htarget
        exact ⟨pattern, rfl, by simpa using htarget⟩
      | error span => simp [hpattern] at htarget
    have hfront : '[' :: (Slot.written trailing closing slots ++ [']']) ++ [' '] ++ ['='] ++ [' '] =
        (Slot.array trailing closing slots).toList ++ [' ', '=', ' '] := by simp [Slot.array]
    rw [← hfront] at hright
    have hlong : (Lines.margin ('[' :: (Slot.written trailing closing slots ++ [']']) ++ [' '] ++ ['='] ++
        [' '])).length + right.length + 3 ≤ source.toList.length + 2 := by
      have hmargin : (Lines.margin ('[' :: (Slot.written trailing closing slots ++ [']']) ++ [' '] ++ ['='] ++
        [' '])).length < _ := margin_lt ⟨'[', by simp, by decide⟩
      rw [hlist]
      simp only [List.length_append, List.length_cons, List.length_nil] at hmargin ⊢
      omega
    obtain ⟨t, e', u, hnext, hread, hmatch', hend, hok⟩ := hright.read_last
      (by decide) hbehind hsettled hlong
    have hexpr : (host.level (source.toList.length + 3)).assignmentExpr true t = .ok e' u := hread
    have hover : continuation? true .list u = none :=
      continuation?_over (by rw [hend]; rfl) fun hkind => by simp [hend] at hkind
    have htarget' : assignmentTarget (.array span values' none) t = .ok (.pattern pattern) t := by
      show (asPattern _ >>= fun pattern => Pure.pure (AssignmentTarget.pattern pattern)) t = _
      rw [bind_of_ok (asPattern_of_ok hpattern t)]
      rfl
    refine ⟨patterns, .assignment ((Mark.ofSpan span).«to» u.previous.span) (.pattern pattern) none e', htakes,
      run_of_continued hcontent hvalid hoperand ?_ hend hok, by simp_all⟩
    show (host.level (source.toList.length + 3)).continuations true .list (source.toList.length + 3 + 1 + 1)
      (.array span values' none) v = _
    rw [RulesShadow.continuations_some hway, bind_of_ok hnext]
    unfold continueWith
    simp only [bind_assoc, pure_bind]
    rw [bind_of_ok htarget', bind_of_ok hexpr, finish_bind]
    exact RulesShadow.continuations_none hover

/-- A hole, a spread expression and two plain ones. -/
theorem parseExpression_array_slots : ∃ a b c v patterns e e',
    (Parser.ofScript (Host.ofFiles []) (Script.ofSource "/m.es" "[a, ,...b, c]")).parseExpression.1 = some e ∧
    Matches (.array default [some a, none, some (.spread default b), some c] none) e ∧
    (Parser.ofScript (Host.ofFiles []) (Script.ofSource "/m.es" "[a, ,...b, c] = v")).parseExpression.1 =
      some e' ∧
    Matches (.assignment default (.pattern (.array default patterns none)) none v) e' ∧
    List.Forall₂ Slot.Takes [some a, none, some (.spread default b), some c] patterns := by
  have item : ∀ source : String, ((Parser.ofScript (Host.ofFiles [])
      (Script.ofSource "/m.es" source)).parseExpressionWith true .assignment).1.map
        (fun e => (Pattern.ofExpr e).toBool) = some true →
      ∃ e, ((Parser.ofScript (Host.ofFiles []) (Script.ofSource "/m.es" source)).parseExpressionWith
        true .assignment).1 = some e ∧ ∃ p, Pattern.ofExpr e = .ok p := by
    intro source hsome
    obtain ⟨e, he, htaken⟩ := Option.map_eq_some_iff.mp hsome
    refine ⟨e, he, ?_⟩
    cases hp : Pattern.ofExpr e with
    | ok p => exact ⟨p, rfl⟩
    | error bad => simp [hp, Except.toBool] at htaken
  have ends : ∀ {before text : List Char}, ((Parser.ofScript (Host.ofFiles []) (Script.ofSource "/m.es"
      (insetSource before text))).parseExpressionWith true .assignment).2.state.script.comments = #[] →
      ((Parser.ofScript (Host.ofFiles []) (Script.ofSource "/m.es"
        (insetSource before text))).parseExpressionWith true .assignment).2.state.functions = [] →
      Ends (Host.ofFiles []) "/m.es" before text := fun hcomments hfunctions =>
    ⟨ParserState.closed_of_comments hcomments _, hfunctions⟩
  obtain ⟨a, ha, hpa⟩ := item (insetSource ['['] ['a']) (by decide +kernel)
  obtain ⟨b, hb, hpb⟩ := item (insetSource ['[', 'a', ',', ' ', ',', '.', '.', '.'] ['b']) (by decide +kernel)
  obtain ⟨c, hc, hpc⟩ := item (insetSource ['[', 'a', ',', ' ', ',', '.', '.', '.', 'b', ',', ' '] ['c'])
    (by decide +kernel)
  obtain ⟨v, hv, -⟩ := item (insetSource ((Slot.array false [] [.item ['a'], .hole [' '],
    .spread [] ['b'], .item [' ', 'c']]).toList ++ [' ', '=', ' ']) ['v']) (by decide +kernel)
  have hholds : Slot.HoldAll (Host.ofFiles []) "/m.es" false [] ['[']
      [.item ['a'], .hole [' '], .spread [] ['b'], .item [' ', 'c']]
      [some a, none, some (.spread default b), some c] := by
    refine .more rfl (.item ⟨[], ['a'], rfl, nofun, ⟨by decide, ha⟩, ends (by decide +kernel)
      (by decide +kernel)⟩) ?_
    refine .more rfl (.hole ⟨[' '], [], rfl, by decide, by decide,
      by decide +kernel, by decide +kernel, ParserState.closed_of_comments (by decide +kernel) _⟩) ?_
    refine .more rfl (.spread nofun ⟨[], ['b'], rfl, nofun, ⟨by decide, hb⟩, ends (by decide +kernel)
      (by decide +kernel)⟩) ?_
    exact .last rfl (.item ⟨[' '], ['c'], rfl, by decide, ⟨by decide, hc⟩,
      ends (by decide +kernel) (by decide +kernel)⟩)
  obtain ⟨⟨e, he, hmatch⟩, htarget⟩ := parseExpression_array hholds
  obtain ⟨patterns, e', htakes, he', hmatch'⟩ := htarget ⟨by decide, hv⟩ (by
    intro value hmem
    have hplain : ∀ {e : Expr}, (∃ p, Pattern.ofExpr e = .ok p) → ∃ p, Pattern.ofExpr e.unspread = .ok p := by
      rintro e ⟨p, hp⟩
      exact ⟨p, by rw [(Pattern.unspread_of_toExpr ((Pattern.ofExpr_eq_ok_iff e p).mp hp)).1, hp]⟩
    refine Pattern.ofItem_ok_iff.mpr fun inner heq => ?_
    simp only [List.mem_cons, List.not_mem_nil, or_false] at hmem
    rcases hmem with rfl | rfl | rfl | rfl <;> cases heq
    · exact hplain hpa
    · exact hpb
    · exact hplain hpc)
  exact ⟨a, b, c, v, patterns, e, e', he, hmatch, he', hmatch', htakes⟩

/-- A script with a function that is given up. -/
def givenUp : Host := Host.ofFiles [("/a.es", "function f() { x y }")]

/-- A generator that includes such a script leaves that function open, and notes the `await` of the next slot
on itself. -/
theorem parseExpression_array_refused : ∃ e e',
    Inset givenUp "/m.es" ['['] "() -> \x7b yield 1; include \"a\" \x7d".toList e ∧
    Inset givenUp "/m.es" "[() -> \x7b yield 1; include \"a\" \x7d, ".toList "await z".toList e' ∧
    (Parser.ofScript givenUp (Script.ofSource "/m.es" (Slot.array false []
      [.item "() -> \x7b yield 1; include \"a\" \x7d".toList, .item " await z".toList]))).parseExpression.1 =
      none := by
  have alone : ∀ source : String, ((Parser.ofScript givenUp (Script.ofSource "/m.es"
      source)).parseExpressionWith true .assignment).1.isSome = true →
      ∃ e, ((Parser.ofScript givenUp (Script.ofSource "/m.es" source)).parseExpressionWith
        true .assignment).1 = some e := fun _ => Option.isSome_iff_exists.mp
  obtain ⟨e, he⟩ := alone (insetSource ['['] "() -> \x7b yield 1; include \"a\" \x7d".toList) (by decide +kernel)
  obtain ⟨e', he'⟩ := alone (insetSource "[() -> \x7b yield 1; include \"a\" \x7d, ".toList "await z".toList)
    (by decide +kernel)
  have hrefused : (Parser.ofScript givenUp (Script.ofSource "/m.es" (Slot.array false []
      [.item "() -> \x7b yield 1; include \"a\" \x7d".toList, .item " await z".toList]))).parseExpression.1.isNone =
      true := by decide +kernel
  exact ⟨e, e', ⟨by decide +kernel, he⟩, ⟨by decide +kernel, he'⟩, Option.isNone_iff_eq_none.mp hrefused⟩

end Parser

end Wholes

end ActionSyntax
