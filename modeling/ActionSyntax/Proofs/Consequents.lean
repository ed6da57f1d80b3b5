import ActionSyntax.Proofs.ArraySlots
import ActionSyntax.Proofs.Literals.Spellings
import ActionSyntax.Proofs.Signatures
import ActionSyntax.Proofs.Shadows.ExpressionEndings

/-!
Expressions in front of a colon, as the consequent of a conditional and as the test of a case. A name with
which such an expression begins is not typed, so it leaves the colon; further inside nothing is held back. What
takes the colon leaves none for the construct around it, which is refused then.
-/

namespace ActionSyntax

set_option autoImplicit false

open Scan Parse Rules

section Openings

mutual

/-- The name with which an expression begins has a type. -/
def Expr.opensTyped : Expr → Bool
  | .identifier id => id.type.isSome
  | .unary _ op operand => op.unaryBinding == .suffix && operand.opensTyped
  | .binary _ _ left _ => left.opensTyped
  | .typeBinary _ _ left _ => left.opensTyped
  | .member _ base _ _ => base.opensTyped
  | .index _ base _ _ => base.opensTyped
  | .call _ base _ _ => base.opensTyped
  | .instantiation _ base _ => base.opensTyped
  | .conditional _ test _ _ => test.opensTyped
  | .assignment _ left _ _ => left.opensTyped
  | .list _ expressions => Expr.firstOpensTyped expressions
  | _ => false

def AssignmentTarget.opensTyped : AssignmentTarget → Bool
  | .expression e => e.opensTyped
  | .pattern _ => false

def Expr.firstOpensTyped : List Expr → Bool
  | [] => false
  | first :: _ => first.opensTyped

end

theorem Expr.opensTyped_of_operand {e : Expr} (h : e.isOperand = true) (hname : ∀ id, e ≠ .identifier id) :
    e.opensTyped = false := by
  cases e <;> first | rfl | exact absurd rfl (hname _) | cases h

namespace Rules

variable {r : Rules} {s t : ParserState} {allowIn : Bool} {level : Precedence}

theorem Continuation.Extends.opensTyped {way : Continuation} {base e : Expr} (h : way.Extends base e)
    (hway : way.Within allowIn level) : e.opensTyped = base.opensTyped := by
  cases h with
  | behind =>
    have hop : Operator.unaryBinding _ = .suffix := hway
    simp [Expr.opensTyped, hop]
  | apart hoperand hname => exact (Expr.opensTyped_of_operand hoperand hname).symm
  | _ => rfl

theorem continuations_opensTyped {fuel : Nat} {base e : Expr}
    (h : r.continuations allowIn level fuel base s = .ok e t) : e.opensTyped = base.opensTyped :=
  continuations_keep (p := fun e => e.opensTyped = base.opensTyped) rfl
    (fun hway hextends hbase => (hextends.opensTyped hway).trans hbase) h

/-- What goes on at a tight level goes on at a loose one, up to where nothing follows. -/
theorem continuations_loosen {tight : Precedence} (hle : level ≤ tight) {fuel : Nat} {base e : Expr}
    (h : r.continuations allowIn tight fuel base s = .ok e t) (hover : continuation? allowIn level t = none) :
    r.continuations allowIn level fuel base s = .ok e t := by
  induction fuel generalizing base s with
  | zero => cases h
  | succ fuel ih =>
    cases hway : continuation? allowIn tight s with
    | none =>
      rw [RulesShadow.continuations_none hway] at h
      cases h
      exact RulesShadow.continuations_none hover
    | some way =>
      rw [RulesShadow.continuations_some hway] at h
      obtain ⟨_, u, hnext, h⟩ := bind_ok h
      obtain ⟨longer, v, hlonger, h⟩ := bind_ok h
      rw [RulesShadow.continuations_some (continuation?_mono hle hway), bind_of_ok hnext, bind_of_ok hlonger]
      exact ih h

theorem identifierPrimary_untyped {e : Expr} (h : r.identifierPrimary true s = .ok e t)
    (he : e.opensTyped = false) : r.identifierPrimary false s = .ok e t := by
  rw [identifierPrimary_eq, previous_bind, if_pos rfl] at h
  rw [identifierPrimary_eq, previous_bind, if_neg Bool.false_ne_true]
  obtain ⟨typed, u, hu, hrest⟩ := bind_ok h
  rcases consume_inv hu with ⟨rfl, -, -⟩ | ⟨rfl, -, rfl⟩
  · obtain ⟨type, v, -, hrest⟩ := bind_ok hrest
    cases hrest
    cases he
  · exact hrest

theorem optPrimaryRule_untyped {found : Option Expr} (h : r.optPrimaryRule true level s = .ok found t)
    (he : ∀ e, found = some e → e.opensTyped = false) : r.optPrimaryRule false level s = .ok found t := by
  unfold optPrimaryRule at h ⊢
  rw [mark_bind] at h ⊢
  obtain ⟨named, u, hu, hrest⟩ := bind_ok h
  rw [bind_of_ok hu]
  cases named with
  | true =>
    obtain ⟨e, v, hv, hsome⟩ := bind_ok hrest
    cases hsome
    exact bind_of_ok (identifierPrimary_untyped hv (he e rfl)) _
  | false => exact hrest

theorem operand?_untyped {e : Expr} (h : r.operand? { allowIn, level } s = .ok (some e) t)
    (he : e.opensTyped = false) : r.operand? { allowIn, level, allowTyped := false } s = .ok (some e) t := by
  unfold operand? at h ⊢
  obtain ⟨found, u, hu, hrest⟩ := bind_ok h
  have hprimary : r.optPrimaryRule false level s = .ok found u := by
    refine optPrimaryRule_untyped hu fun e' hfound => ?_
    subst hfound
    cases hrest
    exact he
  rw [bind_of_ok hprimary]
  exact hrest

/-- At the end of a text, an expression with which no typed name begins is read in the same way where no name
may be typed, and as an expression that might have a list behind it. -/
theorem exprRule_untyped {e : Expr} (h : r.exprRule { level := .assignment } s = .ok e t)
    (hend : t.token.kind = .endOfProgram) (he : e.opensTyped = false)
    (hlevel : level = .list ∨ level = .assignment) :
    r.exprRule { level, allowTyped := false } s = .ok e t := by
  obtain ⟨base, u, hoperand, hcontinued⟩ := expr_inv (r := { r with optExpr := r.optExprRule }) rfl h
  have hover : continuation? true level t = none :=
    continuation?_over (by rw [hend]; rfl) fun hkind => by simp [hend] at hkind
  have huntyped := operand?_untyped hoperand ((continuations_opensTyped hcontinued).symm.trans he)
  have hbase : r.operand? { level, allowTyped := false } s = .ok (some base) u := by
    rcases hlevel with rfl | rfl
    · exact (operand?_list s).trans huntyped
    · exact huntyped
  have hle : level ≤ .assignment := by
    rcases hlevel with rfl | rfl <;> decide
  exact expr_of_continued (r := { r with optExpr := r.optExprRule }) rfl hbase
    (continuations_loosen hle hcontinued hover)

end Rules

end Openings

section Reading

variable {host : Host} {path : String} {front gap before text rest : List Char} {e : Expr} {level : Precedence}
  {w : ParserState} {n : Nat}

/-- A text in front of a colon, as a piece of the whole. -/
abbrev Stem.inset (before text rest : List Char) (h : Begins text) : Stem where
  toFragment := .inset before text (':' :: rest) (Or.inr ⟨':', rest, rfl, List.mem_cons_self⟩)
  colon := rfl
  layered := h.layered _

/-- In front of a colon an expression is read up to it, or takes it. -/
theorem Inset.before_colon (h : Inset host path (front ++ gap) text e) (hends : Ends host path (front ++ gap) text)
    (huntyped : e.opensTyped = false) (hgap : Spacing gap) (hw : w.Behind front (gap ++ (text ++ ':' :: rest)))
    (hsettled : w.Settled path) (hn : (Lines.margin (front ++ gap)).length + text.length + 3 ≤ n)
    (hlevel : level = .list ∨ level = .assignment) :
    ∃ t, Parse.next w = .ok () t ∧
      (e.takesColon false true = false → ∃ e' u,
        (host.level n).exprRule { level, allowTyped := false } t = .ok e' u ∧ Matches e e' ∧
          u.AtMark (front ++ gap ++ text) ':' rest ∧ u.Settled path) ∧
      (e.takesColon false true = true → ':' ∉ rest →
        Loses ((host.level n).exprRule { level, allowTyped := false }) t) := by
  let x : Stem := .inset (front ++ gap) text rest h.begins
  obtain ⟨first, s, t, previous, hspans, hread, hstate, hgone, hpath, hvalid, hfunctions, hnext, hnear⟩ :=
    h.opens (Or.inr ⟨':', rest, rfl, List.mem_cons_self⟩) (Or.inr hends) hgap hw hsettled
  have halong : x.Along first { t with previous } :=
    ⟨hnear, hstate ▸ Parser.ofScript_ordered hspans.valid⟩
  have hloose : decide (level ≤ .assignment) = true := by
    rcases hlevel with rfl | rfl <;> decide
  have hsuper : t.superFound = false := by
    rw [(Parse.next_inv hnext).2]
    exact hsettled.superFound
  have happroach := level_approach x host.readFile host.includeDepth
    (show (insetSource (front ++ gap) text).toList.length + 3 ≤ n by simpa [insetSource] using hn)
  have hexpr : x.Approaches True Matches (.expr false (level ≤ .assignment)) _
      ((host.level n).exprRule { level, allowTyped := false }) := happroach.exprRule_approaches { level, allowTyped := false }
  have harrives := hexpr.goes halong fun _ => trivial
  rw [exprRule_untyped hread hspans.ends huntyped hlevel] at harrives
  generalize hplace : (host.level n).exprRule { level, allowTyped := false } { t with previous } = outcome
    at harrives
  refine ⟨t, hnext, ?_⟩
  cases harrives with
  | gone gone => exact absurd gone hgone
  | @abreast _ e' _ u value close leaves =>
    have hleaves : e.takesColon false (level ≤ .assignment) = false := leaves (close.atColon hspans.ends).1
    rw [hloose] at hleaves
    have hread' := exprRule_heedless hplace
    refine ⟨fun _ => ⟨e', u, hread', value, close.near.atMark hspans.ends, ?_⟩, fun htakes => ?_⟩
    · exact close.near.settled x.layered hpath hvalid (hfunctions hends) hread' hsuper
    · rw [hleaves] at htakes
      cases htakes
  | taken ended takes loses =>
    have htakes : e.takesColon false (level ≤ .assignment) = true := takes
    rw [hloose] at htakes
    refine ⟨fun hleaves => ?_, fun _ hrest e' u hread' => ?_⟩
    · rw [htakes] at hleaves
      cases hleaves
    · have hback : (host.level n).exprRule { level, allowTyped := false }
          { ({ t with previous } : ParserState) with previous := t.previous } = .ok e' u := hread'
      exact loses hrest e' u (hplace.symm.trans (exprRule_heedless hback))

end Reading

section Fronts

variable {gap rest : List Char} {path name : String} {host : Host} {a : List Char}

/-- A text that is a name as a whole is read as one wherever no name goes on behind it. -/
theorem Scan.tokenizes_whole (h : whole? a = some { kind := .identifier, text := name }) (hgap : Spacing gap)
    (hends : NameEnds rest) : Tokenizes gap a rest { kind := .identifier, text := name } ∧ Unbroken a := by
  obtain ⟨d, hlexeme, hempty⟩ := whole?_lexeme h
  rcases nameBetween_or (Cursor.ofContent a) with ⟨hash, parts, stop, hname⟩ | hnone
  · obtain ⟨rfl, rfl, -⟩ := hname.lexeme_ok hlexeme
    have htext : a = nameText hash parts := by
      have hrest := hname.passes.rest
      rwa [hempty, List.append_nil] at hrest
    have hfree : hash = false → Keyword.isReserved (String.ofList (NamePart.chars parts)) = false := by
      rintro rfl
      rw [hname.lexeme_eq, nameVerdict] at hlexeme
      rw [Bool.eq_false_iff]
      intro hreserved
      rw [hreserved] at hlexeme
      split at hlexeme
      · split at hlexeme <;> cases hlexeme
      · rename_i hnot
        exact hnot rfl
    rw [htext]
    exact ⟨tokenizes_name hgap hname.toNamed hfree hends, .name hname.toNamed⟩
  · exact absurd rfl (hnone.kind _ d hlexeme).1

theorem Scan.tokenizes_questionMark (hgap : Spacing gap) (rest : List Char) :
    Tokenizes gap ['?'] (' ' :: rest) { kind := .questionMark } := by
  apply Tokenizes.ofMark hgap _ (by decide)
  · intro c hrest
    apply lexeme_of_punctuation hrest (by decide) (by decide)
    obtain ⟨_, index, line, lines, comments⟩ := c
    cases hrest
    rfl
  · exact opens_cons (by decide) (by decide) (by decide) fun heq => absurd heq (by decide)

end Fronts

namespace Rules

section Conditionals

variable {r : Rules} {s t u v : ParserState} {x y : Expr} {allowIn : Bool}

theorem continuation?_conditional {level : Precedence} (hkind : s.token.kind = .questionMark)
    (hlevel : level ≤ .assignment) : continuation? allowIn level s = some .conditional := by
  unfold continuation?
  simp [OperatorRule.between?, OperatorRule.behind?, Token.isKeyword, Token.isContextKeyword, hkind, hlevel]

theorem operand?_named (hkind : s.token.kind = .identifier) (hnext : Parse.next s = .ok () t)
    (hbehind : t.token.kind ∉ [.string, .arrow, .colon]) (mode : ExprMode) :
    r.operand? mode s =
      .ok (some (.identifier { span := s.token.span.«to» s.token.span, name := s.token.text })) t := by
  simp only [List.mem_cons, List.not_mem_nil, or_false, not_or] at hbehind
  obtain ⟨hstring, harrow, hcolon⟩ := hbehind
  have hprevious : t.previous = s.token := by
    rw [(Parse.next_inv hnext).2]
    rfl
  exact operand?_primary
    (optPrimaryRule_named hkind hnext hprevious ⟨hstring, harrow⟩ (fun hk => absurd hk hcolon) mode.level)

theorem conditionalContinuation_ok (m : Mark) (base : Expr)
    (hx : r.expr { allowIn, level := .assignment, allowTyped := false } s = .ok x t)
    (hcolon : expect .colon t = .ok () u) (hy : r.assignmentExpr allowIn u = .ok y v) :
    r.conditionalContinuation allowIn m base s = .ok (.conditional (m.«to» v.previous.span) base x y) v := by
  unfold conditionalContinuation
  rw [bind_of_ok hx, bind_of_ok hcolon, bind_of_ok hy, finish_bind]
  rfl

/-- What leaves no colon is no consequent. -/
theorem conditionalContinuation_refused {m : Mark} {base e : Expr}
    (hx : Loses (r.expr { allowIn, level := .assignment, allowTyped := false }) s) :
    r.conditionalContinuation allowIn m base s ≠ .ok e t := by
  intro hread
  obtain ⟨x, u, hxu, hrest⟩ := bind_ok hread
  obtain ⟨_, v, hcolon, -⟩ := bind_ok hrest
  exact (hx x u hxu).token (expect_inv hcolon).1

end Conditionals

section Switches

variable {r : Rules} {s t u v : ParserState} {test : Expr} {context : Context} {fuel : Nat}

/-- The cases from behind the test of the first one. -/
def casesFrom (r : Rules) (context : Context) (fuel : Nat) (m : Mark) (test : Option Expr) :
    Parse (List SwitchCase) := do
  expect .colon
  let (consequent, ended) ← r.caseStatements context r.rounds
  let first : SwitchCase := { span := ← finish m, test, consequent }
  if ended then return first :: (← r.switchCases context fuel) else return [first]

theorem switchCases_case (hcase : s.token.toLexeme = { kind := .keyword, text := "case" })
    (hnext : Parse.next s = .ok () t) : r.switchCases context (fuel + 1) s =
      (r.expr { allowTyped := false } >>= fun e => r.casesFrom context fuel (Mark.ofSpan s.token.span) (some e))
        t := by
  have hkind : s.token.kind = .keyword := congrArg Lexeme.kind hcase
  have htext : s.token.text = "case" := congrArg Lexeme.text hcase
  have hword : consumeKeyword "case" s = .ok true t :=
    consumeIf_yes (by simp [Token.isKeyword, hkind, htext]) hnext
  rw [switchCases, at?_bind, if_neg (by simp [hkind]), mark_bind]
  unfold caseTest
  rw [bind_assoc, bind_of_ok hword, if_pos rfl, map_eq_pure_bind, bind_assoc]
  rfl

/-- A single case without statements. -/
theorem casesFrom_empty (hcolon : s.token.kind = .colon) (hnext : Parse.next s = .ok () t)
    (hclose : t.token.kind = .rightBrace) (m : Mark) (test : Option Expr) :
    r.casesFrom context (fuel + 1) m test s =
      .ok [{ span := m.«to» t.previous.span, test, consequent := [] }] t := by
  have hempty : r.caseStatements context r.rounds t = .ok ([], true) t := by
    show r.caseStatements context (r.depth + 1 + 1) t = _
    rw [caseStatements, token_bind, if_pos (by simp [hclose])]
    rfl
  have hlast : r.switchCases context (fuel + 1) t = .ok [] t := by
    rw [switchCases, at?_bind, if_pos (by simp [hclose])]
    rfl
  unfold casesFrom
  rw [bind_of_ok (expect_yes hcolon hnext), bind_of_ok hempty]
  dsimp only
  rw [finish_bind, if_pos rfl, bind_of_ok hlast]
  rfl

/-- A `switch` behind the brace that opens its cases. -/
def switchFrom (r : Rules) (context : Context) (m : Mark) (discriminant : Expr) : Parse Ended := do
  let cases ← r.switchCases context.switchBody r.rounds
  expect .rightBrace
  return (.switchValue (← finish m) discriminant cases, true)

theorem statementRule_switch (hword : s.token.toLexeme = { kind := .keyword, text := "switch" })
    (hnext : Parse.next s = .ok () t) (hopen : t.token.kind = .leftParen)
    (hhead : r.headExpr t = .ok test u) (hbrace : expect .leftBrace u = .ok () v) :
    r.statementRule context s = r.switchFrom context (Mark.ofSpan s.token.span) test v := by
  have hkind : s.token.kind = .keyword := congrArg Lexeme.kind hword
  have htext : s.token.text = "switch" := congrArg Lexeme.text hword
  have hswitch : r.switchStatement context s = r.switchFrom context (Mark.ofSpan s.token.span) test v := by
    have htype : consumeContextKeyword "type" t = .ok false t :=
      consumeIf_no (by simp [Token.isContextKeyword, hopen])
    unfold switchStatement
    rw [mark_bind, bind_of_ok hnext, bind_of_ok htype, if_neg Bool.false_ne_true, bind_of_ok hhead,
      bind_of_ok hbrace]
    rfl
  have hstatement : r.optStatement context s = (some <$> r.switchStatement context) s := by
    unfold optStatement
    rw [mark_bind, token_bind, hkind]
    show r.keywordStatement context _ s.token s = _
    unfold keywordStatement
    rw [htext]
    rfl
  exact (statementRule_of_found hstatement).trans hswitch

/-- A `switch` with a single case without statements. -/
theorem switchFrom_ok {e : Expr} (hcase : s.token.toLexeme = { kind := .keyword, text := "case" })
    (hnext : Parse.next s = .ok () t) (he : r.expr { allowTyped := false } t = .ok e u)
    (hcolon : u.token.kind = .colon) (hnext' : Parse.next u = .ok () v) (hclose : v.token.kind = .rightBrace)
    {w : ParserState} (hnext'' : Parse.next v = .ok () w) (m : Mark) :
    ∃ span, r.switchFrom context m test s =
      .ok (.switchValue (m.«to» w.previous.span) test [{ span, test := some e, consequent := [] }], true) w := by
  have hcases : r.switchCases context.switchBody r.rounds s =
      .ok [{ span := (Mark.ofSpan s.token.span).«to» v.previous.span, test := some e, consequent := [] }] v := by
    show r.switchCases context.switchBody (r.depth + 1 + 1) s = _
    rw [switchCases_case hcase hnext, bind_of_ok he]
    exact casesFrom_empty hcolon hnext' hclose _ _
  refine ⟨(Mark.ofSpan s.token.span).«to» v.previous.span, ?_⟩
  unfold switchFrom
  rw [bind_of_ok hcases, bind_of_ok (expect_yes hclose hnext''), finish_bind]
  rfl

/-- What leaves no colon is no test of a case. -/
theorem switchFrom_refused {found : Ended} (hcase : s.token.toLexeme = { kind := .keyword, text := "case" })
    (hnext : Parse.next s = .ok () t) (he : Loses (r.expr { allowTyped := false }) t) (m : Mark) :
    r.switchFrom context m test s ≠ .ok found u := by
  intro hread
  obtain ⟨cases, v, hcases, -⟩ := bind_ok hread
  have hcases : r.switchCases context.switchBody (r.depth + 1 + 1) s = .ok cases v := hcases
  rw [switchCases_case hcase hnext] at hcases
  obtain ⟨e, w, hew, hrest⟩ := bind_ok hcases
  obtain ⟨_, z, hcolon, -⟩ := bind_ok hrest
  exact (he e w hew).token (expect_inv hcolon).1

end Switches

end Rules

section Wholes

variable {host : Host} {path name : String} {a c : String} {before text : List Char} {x : Expr} {source : String}

/-- Where the line is not indented, a text stands as it does by itself. -/
theorem insetSource_of_margin (hmargin : Lines.margin before = []) (text : List Char) :
    insetSource before text = insetSource [] text := by
  rw [insetSource, hmargin]
  rfl

theorem Inset.of_margin (h : Inset host path [] text x) (hmargin : Lines.margin before = []) :
    Inset host path before text x :=
  ⟨h.begins, insetSource_of_margin hmargin text ▸ h.accepted⟩

theorem Ends.of_margin (h : Ends host path [] text) (hmargin : Lines.margin before = []) :
    Ends host path before text :=
  have hsource := insetSource_of_margin hmargin text
  ⟨hsource ▸ h.closed, hsource ▸ h.settled⟩

namespace Parser

/-- The text of a conditional. What is blank in front of its colon ends the consequent. -/
def conditional (a c e : String) : String := a ++ " ? " ++ c ++ ": " ++ e

/-- The text of a `switch` with a single case, in which there is nothing. -/
def switchOn (a c : String) : String := "switch (" ++ a ++ ") \x7b case " ++ c ++ ": \x7d"

/-- A conditional is read up to behind its question mark. -/
theorem conditional_front (host : Host) (path : String) {rest : List Char}
    (hname : Scan.whole? a.toList = some { kind := .identifier, text := name })
    (hsource : source.toList = a.toList ++ ([' '] ++ (['?'] ++ (' ' :: rest)))) :
    (Parser.ofScript host (Script.ofSource path source)).state.script.content = source.toList ∧
    (Parser.ofScript host (Script.ofSource path source)).state.script.valid = true ∧ ∃ span t,
      (∀ n mode, (host.level n).operand? mode (Parser.ofScript host (Script.ofSource path source)).state =
        .ok (some (.identifier { span, name })) t) ∧
      t.token.kind = .questionMark ∧ t.Behind (a.toList ++ [' '] ++ ['?']) (' ' :: rest) ∧ t.Settled path := by
  have hfirst : Tokenizes [] a.toList ([' '] ++ (['?'] ++ (' ' :: rest)))
      { kind := .identifier, text := name } :=
    (tokenizes_whole hname (List.forall_mem_nil _) (nameEnds_blank _)).1
  obtain ⟨hbehind, htoken, hsettled, hcontent⟩ := ofScript_behind host path hsource hfirst
  obtain ⟨t, hnext, hbehind', hmark, -, hkeeps, -⟩ := hbehind.next (tokenizes_questionMark (by decide) rest)
  have hkind : t.token.kind = .questionMark := by rw [hmark]
  let first := (Parser.ofScript host (Script.ofSource path source)).state
  refine ⟨hcontent, hsettled.valid, first.token.span.«to» first.token.span, t, fun n mode => ?_, hkind, hbehind',
    hsettled.keeps hkeeps⟩
  have hread := operand?_named (r := host.level n) (congrArg Lexeme.kind htoken) hnext (by simp [hkind]) mode
  rwa [show (Parser.ofScript host (Script.ofSource path source)).state.token.text = name from
    congrArg Lexeme.text htoken] at hread

/-- A `switch` is read up to its first case. -/
theorem switch_front (host : Host) (path : String) {rest : List Char}
    (hname : Scan.whole? a.toList = some { kind := .identifier, text := name })
    (hsource : source.toList = "switch".toList ++ ([' '] ++ (['('] ++ (a.toList ++ ([')'] ++ ([' '] ++ (['{'] ++
      ([' '] ++ ("case".toList ++ (' ' :: rest)))))))))) :
    (Parser.ofScript host (Script.ofSource path source)).state.script.content = source.toList ∧
    (Parser.ofScript host (Script.ofSource path source)).state.script.valid = true ∧ ∃ span t,
      (∀ n, (host.level (n + 1)).statementRule {} (Parser.ofScript host (Script.ofSource path source)).state =
        (host.level (n + 1)).switchFrom {} (Mark.ofSpan
          (Parser.ofScript host (Script.ofSource path source)).state.token.span) (.identifier { span, name }) t) ∧
      t.token.toLexeme = { kind := .keyword, text := "case" } ∧
      t.Behind ("switch (".toList ++ a.toList ++ ") \x7b case".toList) (' ' :: rest) ∧ t.Settled path := by
  have hkeyword : Tokenizes [] "switch".toList ([' '] ++ (['('] ++ (a.toList ++ ([')'] ++ ([' '] ++ (['{'] ++
      ([' '] ++ ("case".toList ++ (' ' :: rest))))))))) { kind := .keyword, text := "switch" } :=
    tokenizes_keyword (List.forall_mem_nil _) (by decide) (nameEnds_blank _)
  obtain ⟨hbehind, htoken, hsettled, hcontent⟩ := ofScript_behind host path hsource hkeyword
  obtain ⟨t₁, hnext₁, hbehind₁, hopen, -, hkeeps₁, -⟩ := hbehind.next
    (tokenizes_sole (show ('(', TokenKind.leftParen) ∈ soleMarks by decide) (by decide) _)
  have hbehind₁ : t₁.Behind _ ([] ++ (a.toList ++ ([')'] ++ ([' '] ++ (['{'] ++
        ([' '] ++ ("case".toList ++ (' ' :: rest)))))))) := hbehind₁
  obtain ⟨t₂, hnext₂, hbehind₂, hnamed, -, hkeeps₂, -⟩ := hbehind₁.next
    (tokenizes_whole hname (List.forall_mem_nil _) (by rintro ch ⟨⟩; decide)).1
  have hbehind₂ : t₂.Behind _ ([] ++ ([')'] ++ ([' '] ++ (['{'] ++
        ([' '] ++ ("case".toList ++ (' ' :: rest))))))) := hbehind₂
  obtain ⟨t₃, hnext₃, hbehind₃, hclose, -, hkeeps₃, -⟩ := hbehind₂.next
    (tokenizes_sole (show (')', TokenKind.rightParen) ∈ soleMarks by decide) (List.forall_mem_nil _) _)
  obtain ⟨t₄, hnext₄, hbehind₄, hbrace, -, hkeeps₄, -⟩ := hbehind₃.next
    (tokenizes_sole (show ('{', TokenKind.leftBrace) ∈ soleMarks by decide) (by decide) _)
  have hword : Tokenizes [' '] "case".toList (' ' :: rest) { kind := .keyword, text := "case" } :=
    tokenizes_keyword (by decide) (by decide) (nameEnds_blank rest)
  obtain ⟨t₅, hnext₅, hbehind₅, hcase, -, hkeeps₅, -⟩ := hbehind₄.next hword
  have hkind₁ : t₁.token.kind = .leftParen := by rw [hopen]
  have hkind₃ : t₃.token.kind = .rightParen := by rw [hclose]
  have hkind₄ : t₄.token.kind = .leftBrace := by rw [hbrace]
  refine ⟨hcontent, hsettled.valid, t₂.token.span.«to» t₂.token.span, t₅, fun n => ?_, by rw [hcase],
    by simpa using hbehind₅, ((((hsettled.keeps hkeeps₁).keeps hkeeps₂).keeps hkeeps₃).keeps hkeeps₄).keeps hkeeps₅⟩
  have hoperand := operand?_named (r := host.level n) (by rw [hnamed]) hnext₃ (by simp [hkind₃]) {}
  have hover : continuation? true .list t₃ = none :=
    continuation?_over (by rw [hkind₃]; rfl) fun hkind => by simp [hkind₃] at hkind
  have htest := expr_of_continued (congrFun (host.level_optExpr n) _) hoperand
    (RulesShadow.continuations_none hover)
  have hhead : (host.level (n + 1)).headExpr t₁ =
      .ok (.identifier { span := t₂.token.span.«to» t₂.token.span, name }) t₄ := by
    unfold headExpr
    rw [bind_of_ok (expect_yes hkind₁ hnext₂), bind_of_ok htest, bind_of_ok (expect_yes hkind₃ hnext₄), hnamed]
    rfl
  exact statementRule_switch htoken hnext₁ hkind₁ hhead (expect_yes hkind₄ hnext₅)

section Settled

variable (hname : Scan.whole? a.toList = some { kind := .identifier, text := name })
  (hc : Inset host path [] c.toList x) (hends : Ends host path [] c.toList) (huntyped : x.opensTyped = false)
include hname hc hends huntyped

/-- The consequent is read up to the colon, or takes it. -/
theorem conditional_consequent {rest : List Char}
    (hsource : source.toList = a.toList ++ ([' '] ++ (['?'] ++ (' ' :: (c.toList ++ ':' :: rest))))) :
    (Parser.ofScript host (Script.ofSource path source)).state.script.content = source.toList ∧
    (Parser.ofScript host (Script.ofSource path source)).state.script.valid = true ∧ ∃ span t u,
      (∀ n mode, (host.level n).operand? mode (Parser.ofScript host (Script.ofSource path source)).state =
        .ok (some (.identifier { span, name })) t) ∧
      continuation? true .list t = some .conditional ∧ Parse.next t = .ok () u ∧
      (x.takesColon false true = false → ∃ x' v,
        (host.level (source.toList.length + 3)).expr { level := .assignment, allowTyped := false } u = .ok x' v ∧
          Matches x x' ∧ v.AtMark (a.toList ++ [' '] ++ ['?'] ++ [' '] ++ c.toList) ':' rest ∧ v.Settled path) ∧
      (x.takesColon false true = true → ':' ∉ rest →
        Loses ((host.level (source.toList.length + 3)).expr { level := .assignment, allowTyped := false }) u) := by
  obtain ⟨hcontent, hvalid, span, t, hoperand, hkind, hbehind, hsettled⟩ :=
    conditional_front host path hname hsource
  obtain ⟨first, more, hfirst, hblank, -⟩ := Scan.whole?_begins hname nofun
  have hmargin : Lines.margin (a.toList ++ [' '] ++ ['?'] ++ [' ']) = [] := by
    have hunbroken := (tokenizes_whole hname (List.forall_mem_nil _) (nameEnds_blank [])).2
    refine Unbroken.margin (((hunbroken.append (by decide)).append (by decide)).append (by decide)) ?_
    rw [hfirst]
    rintro ch ⟨⟩
    exact hblank
  have hlength : (Lines.margin (a.toList ++ [' '] ++ ['?'] ++ [' '])).length + c.toList.length + 3 ≤
      source.toList.length + 2 := by
    rw [hmargin, hsource]
    simp only [List.length_append, List.length_cons, List.length_nil]
    omega
  obtain ⟨u, hnext, hleaves, htakes⟩ := (hc.of_margin hmargin).before_colon (hends.of_margin hmargin) huntyped
    (by decide) hbehind hsettled hlength (Or.inr rfl)
  exact ⟨hcontent, hvalid, span, t, u, hoperand, continuation?_conditional hkind (by decide), hnext, hleaves,
    htakes⟩

theorem parseExpression_conditional (hleaves : x.takesColon false true = false) {e : String} {y : Expr}
    (hy : Inset host path (a ++ " ? " ++ c ++ ": ").toList e.toList y) : ∃ tree,
      (Parser.ofScript host (Script.ofSource path (conditional a c e))).parseExpression.1 = some tree ∧
        Matches (.conditional default (.identifier { span := default, name }) x y) tree := by
  generalize hsource : conditional a c e = source
  have hlist : source.toList =
      a.toList ++ ([' '] ++ (['?'] ++ (' ' :: (c.toList ++ ':' :: ([' '] ++ e.toList))))) := by
    simp [← hsource, conditional]
  obtain ⟨hcontent, hvalid, span, t, u, hoperand, hway, hnext, hconsequent, -⟩ :=
    conditional_consequent hname hc hends huntyped hlist
  obtain ⟨x', v, hread, hmatch, hmark, hsettled⟩ := hconsequent hleaves
  have hfront : (a ++ " ? " ++ c ++ ": ").toList =
      a.toList ++ [' '] ++ ['?'] ++ [' '] ++ c.toList ++ [':'] ++ [' '] := by simp
  rw [hfront] at hy
  have hlength : (Lines.margin (a.toList ++ [' '] ++ ['?'] ++ [' '] ++ c.toList ++ [':'] ++ [' '])).length +
      e.toList.length + 3 ≤ source.toList.length + 2 := by
    have hless : (Lines.margin (a.toList ++ [' '] ++ ['?'] ++ [' '] ++ c.toList ++ [':'] ++ [' '])).length < _ :=
      margin_lt ⟨'?', by simp, by decide⟩
    rw [hlist]
    simp only [List.length_append, List.length_cons, List.length_nil] at hless ⊢
    omega
  obtain ⟨w, y', z, hnext', hread', hmatch', hend, hok⟩ :=
    hy.read_last (by decide) hmark.behind hsettled hlength
  have hover : continuation? true .list z = none :=
    continuation?_over (by rw [hend]; rfl) fun hkind => by simp [hend] at hkind
  let base : Expr := .identifier { span, name }
  have hcontinued : (host.level (source.toList.length + 3)).continueWith true (Mark.ofSpan base.span) base
      t.token.operator .conditional u =
        .ok (.conditional ((Mark.ofSpan base.span).«to» z.previous.span) base x' y') z :=
    conditionalContinuation_ok _ base hread (expect_yes hmark.kind hnext') hread'
  refine ⟨.conditional ((Mark.ofSpan base.span).«to» z.previous.span) base x' y',
    run_of_continued hcontent hvalid (hoperand _ {}) ?_ hend hok, by simp_all [base]⟩
  show (host.level (source.toList.length + 3)).continuations true .list (source.toList.length + 3 + 1 + 1) base
    t = _
  rw [RulesShadow.continuations_some hway, bind_of_ok hnext, bind_of_ok hcontinued]
  exact RulesShadow.continuations_none hover

theorem parseExpression_conditional_refused (htakes : x.takesColon false true = true) {e : String}
    (hcolon : ':' ∉ e.toList) :
    (Parser.ofScript host (Script.ofSource path (conditional a c e))).parseExpression.1 = none := by
  generalize hsource : conditional a c e = source
  have hlist : source.toList =
      a.toList ++ ([' '] ++ (['?'] ++ (' ' :: (c.toList ++ ':' :: (' ' :: e.toList))))) := by
    simp [← hsource, conditional]
  obtain ⟨hcontent, -, span, t, u, hoperand, hway, hnext, -, hconsequent⟩ :=
    conditional_consequent hname hc hends huntyped hlist
  have hloses := hconsequent htakes (by simpa using hcolon)
  rw [Option.eq_none_iff_forall_ne_some]
  intro tree hparse
  obtain ⟨v, hspans, -⟩ := spans_of_run hparse
  obtain ⟨base, w, hbase, hcontinued⟩ :=
    expr_inv (r := { host.level (source.toList.length + 3) with
      optExpr := (host.level (source.toList.length + 3)).optExprRule }) rfl (hspans.read_level hcontent)
  cases (hoperand _ _).symm.trans hbase
  have hcontinued : (host.level (source.toList.length + 3)).continuations true .list
    (source.toList.length + 3 + 1 + 1) _ t = .ok tree v := hcontinued
  rw [RulesShadow.continuations_some hway, bind_of_ok hnext] at hcontinued
  obtain ⟨longer, z, hlonger, -⟩ := bind_ok hcontinued
  exact conditionalContinuation_refused hloses hlonger

/-- The test of the case is read up to the colon, or takes it. -/
theorem switch_test (hsource : switchOn a c = source) :
    (Parser.ofScript host (Script.ofSource path source)).state.script.content = source.toList ∧
    (Parser.ofScript host (Script.ofSource path source)).state.script.valid = true ∧ ∃ span t u,
      (host.level (source.toList.length + 3)).statementRule {}
          (Parser.ofScript host (Script.ofSource path source)).state =
        (host.level (source.toList.length + 3)).switchFrom {} (Mark.ofSpan
          (Parser.ofScript host (Script.ofSource path source)).state.token.span) (.identifier { span, name }) t ∧
      t.token.toLexeme = { kind := .keyword, text := "case" } ∧ Parse.next t = .ok () u ∧
      (x.takesColon false true = false → ∃ x' v,
        (host.level (source.toList.length + 3)).expr { allowTyped := false } u = .ok x' v ∧ Matches x x' ∧
          v.AtMark ("switch (".toList ++ a.toList ++ ") \x7b case".toList ++ [' '] ++ c.toList) ':' [' ', '}'] ∧
          v.Settled path) ∧
      (x.takesColon false true = true →
        Loses ((host.level (source.toList.length + 3)).expr { allowTyped := false }) u) := by
  have hlist : source.toList = "switch".toList ++ ([' '] ++ (['('] ++ (a.toList ++ ([')'] ++ ([' '] ++ (['{'] ++
      ([' '] ++ ("case".toList ++ (' ' :: (c.toList ++ ':' :: [' ', '}'])))))))))) := by
    simp [← hsource, switchOn]
  obtain ⟨hcontent, hvalid, span, t, hstatement, hcase, hbehind, hsettled⟩ :=
    switch_front host path hname hlist
  have hmargin : Lines.margin ("switch (".toList ++ a.toList ++ ") \x7b case".toList ++ [' ']) = [] := by
    have hunbroken := (tokenizes_whole hname (List.forall_mem_nil _) (nameEnds_blank [])).2
    refine Unbroken.margin ((Unbroken.append (.append (by decide) hunbroken) (by decide)).append (by decide)) ?_
    rintro ch ⟨⟩
    decide
  have hlength : (Lines.margin ("switch (".toList ++ a.toList ++ ") \x7b case".toList ++ [' '])).length +
      c.toList.length + 3 ≤ source.toList.length + 2 := by
    rw [hmargin, hlist]
    simp only [List.length_append, List.length_cons, List.length_nil]
    omega
  obtain ⟨u, hnext, hleaves, htakes⟩ := (hc.of_margin hmargin).before_colon (hends.of_margin hmargin) huntyped
    (by decide) hbehind hsettled hlength (Or.inl rfl)
  exact ⟨hcontent, hvalid, span, t, u, hstatement _, hcase, hnext, hleaves, fun h => htakes h (by decide)⟩

theorem parseStatement_switch (hleaves : x.takesColon false true = false) : ∃ tree,
    (Parser.ofScript host (Script.ofSource path (switchOn a c))).parseStatement.1 = some tree ∧
      Matches (.switchValue default (.identifier { span := default, name })
        [{ span := default, test := some x, consequent := [] }]) tree := by
  generalize hsource : switchOn a c = source
  obtain ⟨hcontent, hvalid, span, t, u, hstatement, hcase, hnext, htest, -⟩ :=
    switch_test hname hc hends huntyped hsource
  obtain ⟨x', v, hread, hmatch, hmark, hsettled⟩ := htest hleaves
  have hbehind : v.Behind _ ([' '] ++ (['}'] ++ ([] ++ ([] ++ [])))) := hmark.behind
  obtain ⟨w, hnext₁, hbehind₁, hbrace, -, hkeeps₁, -⟩ := hbehind.next
    (tokenizes_sole (show ('}', TokenKind.rightBrace) ∈ soleMarks by decide) (by decide) _)
  obtain ⟨z, hnext₂, -, hend, -, hkeeps₂, -⟩ := hbehind₁.next tokenizes_end
  let m := Mark.ofSpan (Parser.ofScript host (Script.ofSource path source)).state.token.span
  obtain ⟨tree, hswitch, htree⟩ : ∃ tree, (host.level (source.toList.length + 3)).switchFrom {} m
      (.identifier { span, name }) t = .ok (tree, true) z ∧ Matches (.switchValue default
        (.identifier { span := default, name }) [{ span := default, test := some x, consequent := [] }]) tree := by
    obtain ⟨place, hswitch⟩ := switchFrom_ok hcase hnext hread hmark.kind hnext₁ (by rw [hbrace]) hnext₂ m
    exact ⟨_, hswitch, by simp_all⟩
  have hread' : ((host.level (source.toList.length + 3)).statementRule {} >>=
      fun found => pure found.1 : Parse Statement)
        (Parser.ofScript host (Script.ofSource path source)).state = .ok tree z := by
    rw [bind_of_ok (hstatement.trans hswitch)]
    rfl
  have hspans : (Parser.ofScript host (Script.ofSource path source)).Spans
      (fun r => r.statementRule {} >>= fun found => pure found.1) tree z :=
    spans_of_read hcontent hvalid hread' (by rw [hend])
  refine ⟨tree, ?_, htree⟩
  rw [parseStatement, run_of_spans hspans]
  exact if_pos ((hsettled.keeps hkeeps₁).keeps hkeeps₂).valid

theorem parseStatement_switch_refused (htakes : x.takesColon false true = true) :
    (Parser.ofScript host (Script.ofSource path (switchOn a c))).parseStatement.1 = none := by
  generalize hsource : switchOn a c = source
  obtain ⟨hcontent, -, span, t, u, hstatement, hcase, hnext, -, htest⟩ :=
    switch_test hname hc hends huntyped hsource
  rw [Option.eq_none_iff_forall_ne_some]
  intro tree hparse
  obtain ⟨v, hspans, -⟩ := spans_of_run hparse
  obtain ⟨found, w, hfound, -⟩ := bind_ok (hspans.read_level hcontent)
  exact switchFrom_refused hcase hnext (htest htakes) _ (hstatement.symm.trans hfound)

/-- An expression in front of a colon, as the consequent of a conditional or as the test of a case, is read as
it is by itself, unless it takes the colon, as its tree tells. Then there is none for the construct, which is
refused. -/
theorem expression_before_colon :
    (x.takesColon false true = false →
      (∀ {e : String} {y : Expr}, Inset host path (a ++ " ? " ++ c ++ ": ").toList e.toList y → ∃ tree,
        (Parser.ofScript host (Script.ofSource path (conditional a c e))).parseExpression.1 = some tree ∧
          Matches (.conditional default (.identifier { span := default, name }) x y) tree) ∧
      ∃ tree, (Parser.ofScript host (Script.ofSource path (switchOn a c))).parseStatement.1 = some tree ∧
        Matches (.switchValue default (.identifier { span := default, name })
          [{ span := default, test := some x, consequent := [] }]) tree) ∧
    (x.takesColon false true = true →
      (∀ {e : String}, ':' ∉ e.toList →
        (Parser.ofScript host (Script.ofSource path (conditional a c e))).parseExpression.1 = none) ∧
      (Parser.ofScript host (Script.ofSource path (switchOn a c))).parseStatement.1 = none) := by
  refine ⟨fun hleaves => ⟨fun hy => ?_, ?_⟩, fun htakes => ⟨fun hcolon => ?_, ?_⟩⟩
  · exact parseExpression_conditional hname hc hends huntyped hleaves hy
  · exact parseStatement_switch hname hc hends huntyped hleaves
  · exact parseExpression_conditional_refused hname hc hends huntyped htakes hcolon
  · exact parseStatement_switch_refused hname hc hends huntyped htakes

end Settled

/-- A call leaves the colon, whatever its arguments do by themselves. -/
theorem expression_before_colon_call : ∃ x y tree statement,
    Inset (Host.ofFiles []) "/a.es" [] "f(-b)".toList x ∧
    Inset (Host.ofFiles []) "/a.es" ("a" ++ " ? " ++ "f(-b)" ++ ": ").toList "[d]".toList y ∧
    (Parser.ofScript (Host.ofFiles []) (Script.ofSource "/a.es" (conditional "a" "f(-b)" "[d]"))).parseExpression.1 =
      some tree ∧
    Matches (.conditional default (.identifier { span := default, name := "a" }) x y) tree ∧
    (Parser.ofScript (Host.ofFiles []) (Script.ofSource "/a.es" (switchOn "a" "f(-b)"))).parseStatement.1 =
      some statement ∧
    Matches (.switchValue default (.identifier { span := default, name := "a" })
      [{ span := default, test := some x, consequent := [] }]) statement := by
  have htells : ((Parser.ofScript (Host.ofFiles []) (Script.ofSource "/a.es"
      (insetSource [] "f(-b)".toList))).parseExpressionWith true .assignment).1.map
        (fun x => (x.opensTyped, x.takesColon false true)) = some (false, false) := by decide +kernel
  have hsome : ((Parser.ofScript (Host.ofFiles []) (Script.ofSource "/a.es"
      (insetSource ("a" ++ " ? " ++ "f(-b)" ++ ": ").toList "[d]".toList))).parseExpressionWith
        true .assignment).1.isSome = true := by decide +kernel
  have hcomments : ((Parser.ofScript (Host.ofFiles []) (Script.ofSource "/a.es"
      (insetSource [] "f(-b)".toList))).parseExpressionWith true .assignment).2.state.script.comments = #[] := by
    decide +kernel
  have hfunctions : ((Parser.ofScript (Host.ofFiles []) (Script.ofSource "/a.es"
      (insetSource [] "f(-b)".toList))).parseExpressionWith true .assignment).2.state.functions = [] := by
    decide +kernel
  obtain ⟨x, hx, htold⟩ := Option.map_eq_some_iff.mp htells
  obtain ⟨huntyped, hleaves⟩ := Prod.mk.inj htold
  obtain ⟨y, hy⟩ := Option.isSome_iff_exists.mp hsome
  have hc : Inset (Host.ofFiles []) "/a.es" [] "f(-b)".toList x := ⟨by decide, hx⟩
  have hd : Inset (Host.ofFiles []) "/a.es" ("a" ++ " ? " ++ "f(-b)" ++ ": ").toList "[d]".toList y :=
    ⟨by decide, hy⟩
  have hname : Scan.whole? "a".toList = some { kind := .identifier, text := "a" } := by decide +kernel
  obtain ⟨hread, -⟩ := expression_before_colon hname hc
    ⟨ParserState.closed_of_comments hcomments _, hfunctions⟩ huntyped
  obtain ⟨hconditional, statement, hstatement, hmatch'⟩ := hread hleaves
  obtain ⟨tree, htree, hmatch⟩ := hconditional hd
  exact ⟨x, y, tree, statement, hc, hd, htree, hmatch, hstatement, hmatch'⟩

/-- Both expressions are accepted alone. -/
theorem negated_consequent_refused :
    ((Parser.ofScript (Host.ofFiles []) (Script.ofSource "/a.es" "-x")).parseExpressionWith true
      .assignment).1.isSome = true ∧
    ((Parser.ofScript (Host.ofFiles []) (Script.ofSource "/a.es" "e")).parseExpressionWith true
      .assignment).1.isSome = true ∧
    ((Parser.ofScript (Host.ofFiles []) (Script.ofSource "/a.es" "a ? -x : e")).parseExpression).1.isSome =
      false := by
  decide +kernel

end Parser

end Wholes

end ActionSyntax
