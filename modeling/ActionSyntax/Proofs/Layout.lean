import ActionSyntax.Proofs.Chains.Reading
import ActionSyntax.Proofs.Pieces.Tokens
import ActionSyntax.Proofs.Places.Walk

/-!
Opening brackets behind an operand. Whether a bracket goes on with the expression and whether the
statement ends in front of it are decided by the lines of the token before it and by indentation. The
two rules look at different ends of that token, so a bracket behind a token that spans lines may be
refused by both.
-/

namespace ActionSyntax

set_option autoImplicit false

namespace ParserState

variable {script : Script} {s : ParserState}

/-- A state that a parser of the script can be in, as long as nothing stops it. -/
def ReachedIn (script : Script) (s : ParserState) : Prop :=
  (Scanner.ofScript script).next.1 = .ok () ∧ ∃ tokens, Consumes (ofScript script).scanned tokens s

/-- The current token stands on the line where the previous one ends, but not on the line where that
begins, and is not indented further. -/
def straddled (s : ParserState) : Bool :=
  s.onSameLine && !s.indentedFurther && s.previous.span.firstLine != s.previous.span.lastLine

/-- Lines never decrease on the way to the current token. -/
theorem ReachedIn.lines (h : s.ReachedIn script) :
    s.previous.span.firstLine ≤ s.previous.span.lastLine ∧
      s.previous.span.lastLine ≤ s.token.span.firstLine := by
  obtain ⟨ok, tokens, hconsumes⟩ := h
  have hpaced := hconsumes.paced ((Ordered.initial script).scanned ok)
  refine ⟨?_, hpaced.ordered.previous.line⟩
  by_cases hnil : tokens = []
  · rw [(hpaced.stays hnil).1]
    exact Nat.le_refl _
  · rw [← hpaced.last _ (List.getLast?_eq_some_getLast hnil)]
    exact (hpaced.wide _ (List.getLast_mem hnil)).2

/-- What stands on the line where the previous token ends or is indented further continues it, unless
it straddles. -/
theorem ReachedIn.continues_eq (h : s.ReachedIn script) :
    s.continues = ((s.onSameLine || s.indentedFurther) && !s.straddled) := by
  obtain ⟨hprevious, hnext⟩ := h.lines
  rw [Bool.eq_iff_iff]
  unfold continues straddled onSameLine
  cases s.indentedFurther with
  | true => simp
  | false =>
    simp only [Bool.or_false, Bool.not_false, Bool.and_true, Bool.and_eq_true, Bool.not_eq_true',
      Bool.and_eq_false_iff, beq_iff_eq, beq_eq_false_iff_ne, bne_eq_false_iff_eq]
    omega

/-- Behind anything but a brace, the statement ends in front of just what does not continue it, unless
that straddles. -/
theorem ReachedIn.endsStatement_eq (h : s.ReachedIn script) (hbrace : s.previous.kind ≠ .rightBrace) :
    s.endsStatement = (!s.continues && !s.straddled) := by
  rw [h.continues_eq]
  unfold endsStatement straddled
  rw [beq_eq_false_iff_ne.mpr hbrace]
  cases s.onSameLine <;> cases s.indentedFurther <;>
    cases s.previous.span.firstLine != s.previous.span.lastLine <;> rfl

end ParserState

namespace Parse

theorem endStatement_eq {s : ParserState} (h : s.token.kind ≠ .semicolon) :
    endStatement s = .ok s.endsStatement s := by
  unfold endStatement
  rw [bind_of_ok (consume_no h)]
  rfl

theorem consume_bind {α : Type} {s : ParserState} {k : TokenKind} {f : Bool → Parse α}
    (h : s.token.kind = k) : (consume k >>= f) s = (next >>= fun _ => f true) s := by
  have hconsume : consume k s = (next >>= fun _ => pure true) s := by
    unfold consume consumeIf
    rw [token_bind, if_pos (by simp [h])]
  show EStateM.bind (consume k) f s = (next >>= fun _ => pure true >>= f) s
  rw [← bind_assoc]
  show _ = EStateM.bind (next >>= fun _ => pure true) f s
  unfold EStateM.bind
  rw [hconsume]

end Parse

namespace Rules

open Parse

variable {s : ParserState}

/-- What is read behind an opening bracket that goes on with an expression. -/
def bracketContinuation (r : Rules) (kind : TokenKind) (base : Expr) : Parse Expr :=
  if kind = .leftParen then r.callContinuation (Mark.ofSpan base.span) base false
  else r.indexContinuation (Mark.ofSpan base.span) base false

/-- A bracket goes on with an expression at any level, by its layout alone. -/
theorem continuations_bracket (opening : s.token.kind = .leftParen ∨ s.token.kind = .leftBracket)
    (r : Rules) (allowIn : Bool) (level : Precedence) (fuel : Nat) (base : Expr) :
    r.continuations allowIn level (fuel + 1) base s =
      if s.continues then
        (do next; let longer ← r.bracketContinuation s.token.kind base
            r.continuations allowIn level fuel longer) s
      else .ok base s := by
  have hway : continuation? allowIn level s =
      if s.continues then some (if s.token.kind = .leftParen then .call else .index) else none := by
    unfold continuation?
    rcases opening with h | h <;>
      simp [OperatorRule.between?, OperatorRule.behind?, Token.isKeyword, Token.isContextKeyword, h]
  rw [continuations, get_bind, hway]
  cases s.continues with
  | false => rfl
  | true =>
    rcases opening with h | h
    · simp only [h, bracketContinuation, if_true]
      rfl
    · simp only [h, bracketContinuation, if_true, reduceCtorEq, if_false]
      rfl

/-- A bracket goes on with the name of a class, by its layout; a parenthesis never does. -/
theorem newBase_bracket (opening : s.token.kind = .leftParen ∨ s.token.kind = .leftBracket)
    (r : Rules) (fuel : Nat) (base : Expr) :
    r.newBase (fuel + 1) base s =
      if s.token.kind = .leftBracket ∧ s.continues = true then
        (do next; let longer ← r.bracketContinuation .leftBracket base; r.newBase fuel longer) s
      else .ok base s := by
  have hdot : s.token.kind ≠ .dot := by
    rcases opening with h | h <;> simp [h]
  rw [newBase, bind_of_ok (consume_no hdot)]
  simp only [Bool.false_eq_true, if_false, get_bind, Bool.and_eq_true, beq_iff_eq]
  split <;> rfl

/-- Arguments in parentheses belong to a new object wherever they stand. -/
theorem newExpr_paren {r : Rules} {base : Expr} {t : ParserState}
    (hbase : (r.primary false >>= r.newBase r.rounds) t = .ok base s)
    (opening : s.token.kind = .leftParen) (m : Mark) :
    r.newExpr m t =
      (do next; let arguments ← r.arguments; return Expr.new (← finish m) base arguments) s := by
  have hsplit : r.newExpr m = (r.primary false >>= r.newBase r.rounds) >>= fun base => do
      let arguments ← if ← consume .leftParen then r.arguments else pure []
      return .new (← finish m) base arguments := by
    rw [bind_assoc]
    rfl
  rw [hsplit, bind_of_ok hbase]
  exact consume_bind opening

/-- Behind an operand, a bracket goes on with the expression by one condition on the layout at every
place but one: the arguments of a new object. The condition is that the bracket stands on the line where
the previous token ends or is indented further, and does not straddle. Behind anything but a brace, the
statement ends in front of exactly the other brackets that do not straddle. -/
theorem bracket_continues {script : Script} (h : s.ReachedIn script)
    (opening : s.token.kind = .leftParen ∨ s.token.kind = .leftBracket) :
    (∀ (r : Rules) (allowIn : Bool) (level : Precedence) (fuel : Nat) (base : Expr),
      r.continuations allowIn level (fuel + 1) base s =
        if s.continues then
          (do next; let longer ← r.bracketContinuation s.token.kind base
              r.continuations allowIn level fuel longer) s
        else .ok base s) ∧
    (∀ (r : Rules) (fuel : Nat) (base : Expr), r.newBase (fuel + 1) base s =
      if s.token.kind = .leftBracket ∧ s.continues = true then
        (do next; let longer ← r.bracketContinuation .leftBracket base; r.newBase fuel longer) s
      else .ok base s) ∧
    (∀ (r : Rules) (m : Mark) (base : Expr) (t : ParserState), s.token.kind = .leftParen →
      (r.primary false >>= r.newBase r.rounds) t = .ok base s →
      r.newExpr m t =
        (do next; let arguments ← r.arguments; return Expr.new (← finish m) base arguments) s) ∧
    s.continues = ((s.onSameLine || s.indentedFurther) && !s.straddled) ∧
    (s.previous.kind ≠ .rightBrace →
      endStatement s = .ok (!s.continues && !s.straddled) s) := by
  refine ⟨fun r => continuations_bracket opening r, fun r => newBase_bracket opening r,
    fun r m base t hparen hbase => newExpr_paren hbase hparen m, h.continues_eq, fun hbrace => ?_⟩
  have hsemicolon : s.token.kind ≠ .semicolon := by
    rcases opening with h | h <;> simp [h]
  rw [endStatement_eq hsemicolon, h.endsStatement_eq hbrace]

section Straddling

/-- A string that spans lines, and a parenthesis behind it. -/
def textBeforeParen : Script := Script.ofSource "/a.es" "\"\"\"\na\n\"\"\"(x)"

/-- The parenthesis is current. -/
def behindText : ParserState := (ParserState.ofScript textBeforeParen).scanned.advance

theorem behindText_reached : behindText.ReachedIn textBeforeParen := by
  refine ⟨?_, [_], .next (.refl _) ?_ ?_⟩ <;> decide +kernel

/-- The parenthesis straddles. -/
theorem bracket_continues_straddled :
    behindText.ReachedIn textBeforeParen ∧ behindText.token.kind = .leftParen ∧
      behindText.straddled = true ∧ endStatement behindText = .ok false behindText := by
  have hparen : behindText.token.kind = .leftParen := by decide +kernel
  have hstraddled : behindText.straddled = true := by decide +kernel
  have hbrace : behindText.previous.kind ≠ .rightBrace := by decide +kernel
  obtain ⟨-, -, -, -, hends⟩ := bracket_continues behindText_reached (Or.inl hparen)
  refine ⟨behindText_reached, hparen, hstraddled, ?_⟩
  rw [hends hbrace, hstraddled, Bool.not_true, Bool.and_false]

/-- A parenthesis on the line where the previous token ends may be refused by both rules, and one on
a line that is not indented further may be taken for the arguments of a new object. -/
theorem bracket_refused_twice :
    (behindText.ReachedIn textBeforeParen ∧ behindText.token.kind = .leftParen ∧
      behindText.onSameLine = true ∧ behindText.previous.kind ≠ .rightBrace ∧
      (∀ (r : Rules) (allowIn : Bool) (level : Precedence) (fuel : Nat) (base : Expr),
        r.continuations allowIn level (fuel + 1) base behindText = .ok base behindText) ∧
      endStatement behindText = .ok false behindText ∧
      ((Parser.ofScript (Host.ofFiles []) textBeforeParen).parseProgram).1.isSome = false) ∧
    ((Parser.ofScript (Host.ofFiles []) (Script.ofSource "/a.es" "new A\n(b)")).parseExpression).1.isSome =
      true := by
  have hparen : behindText.token.kind = .leftParen := by decide +kernel
  have hsemicolon : behindText.token.kind ≠ .semicolon := by decide +kernel
  have hcontinues : behindText.continues = false := by decide +kernel
  have hends : behindText.endsStatement = false := by decide +kernel
  refine ⟨⟨behindText_reached, hparen, ?_, ?_, ?_, ?_, ?_⟩, ?_⟩
  case refine_3 =>
    intro r allowIn level fuel base
    rw [continuations_bracket (Or.inl hparen), hcontinues]
    rfl
  case refine_4 => rw [endStatement_eq hsemicolon, hends]
  all_goals decide +kernel

end Straddling

end Rules

end ActionSyntax
