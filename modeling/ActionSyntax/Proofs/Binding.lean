import ActionSyntax.Proofs.Answers

/-!
How tightly expressions bind. Where operators of a least level are asked for, the outermost construct
of what is read has that level at least, with two exceptions: a name may take an arrow at any level,
and `??`, which belongs below `||`, is found among the operators of that level.
-/

namespace ActionSyntax

set_option autoImplicit false

open Parse Setting

namespace Operator

/-- The level of an operator with a single operand. -/
def unaryBinding : Operator → Precedence
  | .yield => .assignment
  | .nonNull | .postIncrement | .postDecrement => .suffix
  | _ => .unary

/-- The level of an operator between two operands. -/
def binaryBinding : Operator → Precedence
  | .nullCoalescing => .nullCoalescing
  | .logicalOr => .logicalOr
  | .logicalXor => .logicalXor
  | .logicalAnd => .logicalAnd
  | .bitwiseOr => .bitwiseOr
  | .bitwiseXor => .bitwiseXor
  | .bitwiseAnd => .bitwiseAnd
  | .equal | .notEqual | .strictEqual | .strictNotEqual => .equality
  | .less | .greater | .lessOrEqual | .greaterOrEqual | .within => .relational
  | .shiftLeft | .shiftRight | .shiftRightUnsigned => .shift
  | .add | .subtract => .additive
  | .multiply | .divide | .remainder => .multiplicative
  | .power => .exponentiation
  | _ => .suffix

end Operator

/-- The level of the outermost construct. Operands, and what stands behind an operand, bind most
tightly. -/
def Expr.binding : Expr → Precedence
  | .list .. => .list
  | .assignment .. | .conditional .. | .function .. => .assignment
  | .unary _ op _ => op.unaryBinding
  | .binary _ op _ _ => op.binaryBinding
  | _ => .suffix

/-- What an expression can begin with, apart from functions and operators. -/
def Expr.isOperand : Expr → Bool
  | .list .. | .assignment .. | .conditional .. | .function .. | .unary .. | .binary ..
  | .typeBinary .. | .member .. | .index .. | .call .. | .instantiation .. => false
  | _ => true

/-- A function whose only parameter is the name at which it begins. -/
structure Expr.IsNameArrow (name : Token) (e : Expr) : Prop where
  named : name.kind = .identifier
  arrow : ∃ span common, e = .function span none common ∧ common.body.isSome = true ∧
    common.params = [{ span := name.span, pattern := .name name.span name.text none, init := none }] ∧
    common.optional = [] ∧ common.rest = none ∧ common.result = none

def Expr.isCoalescing : Expr → Bool
  | .binary _ .nullCoalescing _ _ => true
  | _ => false

/-- What may be read of an expression that begins at a token, where a least level is asked for. -/
def Expr.Fits (first : Token) (level : Precedence) (e : Expr) : Prop :=
  level ≤ e.binding ∨ e.IsNameArrow first ∨ (level = .logicalOr ∧ e.isCoalescing = true)

theorem Precedence.le_suffix (p : Precedence) : p ≤ .suffix := by
  cases p <;> decide

theorem Precedence.le_of_not_lt {p q : Precedence} (h : ¬ p < q) : q ≤ p := Nat.le_of_not_lt h

/-- Right below the level of `||` is that of `??`. -/
theorem Precedence.le_logicalOr {p : Precedence} (h : p ≤ .logicalOr) :
    p ≤ .nullCoalescing ∨ p = .logicalOr := by
  rcases Nat.lt_or_eq_of_le h with hlt | heq
  · exact Or.inl (Nat.le_of_lt_succ hlt)
  · exact Or.inr (Precedence.value_injective heq)

theorem Expr.Fits.of_suffix {first : Token} {level : Precedence} {e : Expr}
    (h : e.binding = .suffix) : e.Fits first level := Or.inl (h ▸ level.le_suffix)

theorem Expr.binding_of_operand {e : Expr} (h : e.isOperand = true) : e.binding = .suffix := by
  cases e <;> first | rfl | cases h

section Operators

/-- The table has every operator at its level, apart from `??`. -/
theorem OperatorRule.between?_level {t : Token} {rule : OperatorRule}
    (h : OperatorRule.between? t = some rule) :
    rule.level = rule.operator.binaryBinding ∨
      (rule.operator = .nullCoalescing ∧ rule.level = .logicalOr) := by
  unfold between? at h
  split at h
  · rename_i op _ _
    obtain ⟨levels, hlevels, rfl⟩ := Option.map_eq_some_iff.mp h
    cases op <;> cases hlevels <;> first | exact Or.inl rfl | exact Or.inr ⟨rfl, rfl⟩
  · cases h

theorem OperatorRule.front?_level {t : Token} {rule : OperatorRule}
    (h : OperatorRule.front? t = some rule) : rule.level = rule.operator.unaryBinding := by
  unfold front? at h
  repeat' split at h
  all_goals cases h
  all_goals rfl

theorem OperatorRule.behind?_level {t : Token} {op : Operator}
    (h : OperatorRule.behind? t = some op) : op.unaryBinding = .suffix := by
  unfold behind? at h
  split at h <;> cases h <;> rfl

end Operators

namespace Rules

/-- The least level at which an expression goes on in a way. -/
def Continuation.Within (allowIn : Bool) (level : Precedence) : Continuation → Prop
  | .binary rule => level ≤ rule.operator.binaryBinding ∨
      (level = .logicalOr ∧ rule.operator = .nullCoalescing)
  | .within => allowIn = true ∧ level ≤ .relational
  | .behind op => op.unaryBinding = .suffix
  | .assign | .compoundAssign | .conditional => level ≤ .assignment
  | .list => level ≤ .list
  | .cast | .typeTest _ | .dot | .index | .call | .optionalChain => True

variable {r : Rules} {s t u : ParserState} {allowIn : Bool} {level : Precedence}

theorem continuation?_within {way : Continuation}
    (h : continuation? allowIn level s = some way) : way.Within allowIn level := by
  unfold continuation? at h
  dsimp only at h
  split at h
  · rename_i rule hrule
    cases h
    obtain ⟨hbetween, hlevel⟩ := Option.filter_eq_some_iff.mp hrule
    have hle : level ≤ rule.level := of_decide_eq_true hlevel
    rcases OperatorRule.between?_level hbetween with hsame | ⟨hop, hor⟩
    · exact Or.inl (hsame ▸ hle)
    · rw [hor] at hle
      rcases Precedence.le_logicalOr hle with hbelow | hsame
      · exact Or.inl (hop ▸ hbelow)
      · exact Or.inr ⟨hsame, hop⟩
  split at h
  · rename_i hin
    cases h
    simp only [Bool.and_eq_true, decide_eq_true_eq] at hin
    exact ⟨hin.1.1, hin.2⟩
  split at h
  · rename_i op hop
    cases h
    exact OperatorRule.behind?_level (Option.filter_eq_some_iff.mp hop).1
  repeat' split at h
  all_goals cases h
  all_goals trivial

/-- What an expression has become when it has gone on in a way. An initializer that is assigned to has
become a pattern. -/
inductive Continuation.Extends (base : Expr) : Continuation → Expr → Prop
  | binary {rule : OperatorRule} {span : Span} {right : Expr} :
      Extends base (.binary rule) (.binary span rule.operator base right)
  | within {span : Span} {right : Expr} : Extends base .within (.binary span .within base right)
  | behind {op : Operator} {span : Span} : Extends base (.behind op) (.unary span op base)
  | typed {way : Continuation} {span : Span} {op : Operator} {type : TypeExpr} :
      Extends base way (.typeBinary span op base type)
  | assign {span : Span} {right : Expr} :
      Extends base .assign (.assignment span (.expression base) none right)
  | apart {span : Span} {pattern : Pattern} {right : Expr} (operand : base.isOperand = true)
      (unnamed : ∀ id, base ≠ .identifier id) :
      Extends base .assign (.assignment span (.pattern pattern) none right)
  | compoundAssign {span : Span} {compound : Option Operator} {right : Expr} :
      Extends base .compoundAssign (.assignment span (.expression base) compound right)
  | conditional {span : Span} {consequent alternative : Expr} :
      Extends base .conditional (.conditional span base consequent alternative)
  | list {span : Span} {rest : List Expr} : Extends base .list (.list span (base :: rest))
  | instantiation {way : Continuation} {span : Span} {arguments : List TypeExpr} :
      Extends base way (.instantiation span base arguments)
  | member {way : Continuation} {span : Span} {id : Identifier} {optional : Bool} :
      Extends base way (.member span base id optional)
  | index {way : Continuation} {span : Span} {key : Expr} {optional : Bool} :
      Extends base way (.index span base key optional)
  | call {way : Continuation} {span : Span} {arguments : List Expr} {optional : Bool} :
      Extends base way (.call span base arguments optional)

theorem dotContinuation_extends {way : Continuation} {m : Mark} {base e : Expr}
    (h : r.dotContinuation m base s = .ok e t) : way.Extends base e := by
  rcases bind_if True (proper_operator _) h with ⟨u, -, -, h⟩ | h
  · obtain ⟨arguments, v, -, h⟩ := bind_ok h
    cases h
    exact .instantiation
  · obtain ⟨id, u, -, h⟩ := bind_ok h
    cases h
    exact .member

theorem indexContinuation_extends {way : Continuation} {m : Mark} {base e : Expr} {optional : Bool}
    (h : r.indexContinuation m base optional s = .ok e t) : way.Extends base e := by
  obtain ⟨key, u, -, h⟩ := bind_ok h
  obtain ⟨v, -, -, h⟩ := bind_expect True (proper_kind (by decide)) h
  cases h
  exact .index

theorem callContinuation_extends {way : Continuation} {m : Mark} {base e : Expr} {optional : Bool}
    (h : r.callContinuation m base optional s = .ok e t) : way.Extends base e := by
  obtain ⟨arguments, u, -, h⟩ := bind_ok h
  cases h
  exact .call

theorem continueWith_extends {way : Continuation} {m : Mark} {base e : Expr}
    {compound : Option Operator} (h : r.continueWith allowIn m base compound way s = .ok e t) :
    way.Extends base e := by
  cases way with
  | binary rule =>
    obtain ⟨right, u, -, h⟩ := bind_ok h
    cases h
    exact .binary
  | within =>
    obtain ⟨right, u, -, h⟩ := bind_ok h
    cases h
    exact .within
  | behind op =>
    cases h
    exact .behind
  | cast =>
    obtain ⟨strict, u, -, h⟩ := bind_ok h
    obtain ⟨v, -, h⟩ := bind_perhaps (c := fun t => t.kind == .questionMark) True
      (proper_kind (by decide)) h
    obtain ⟨right, w, -, h⟩ := bind_ok h
    cases h
    exact .typed
  | typeTest op =>
    obtain ⟨right, u, -, h⟩ := bind_ok h
    cases h
    exact .typed
  | assign =>
    obtain ⟨left, u, hleft, h⟩ := bind_ok h
    obtain ⟨right, v, -, h⟩ := bind_ok h
    cases h
    unfold assignmentTarget at hleft
    split at hleft
    · obtain ⟨pattern, w, -, hleft⟩ := bind_ok hleft
      cases hleft
      exact .apart rfl (by rintro _ ⟨⟩)
    · obtain ⟨pattern, w, -, hleft⟩ := bind_ok hleft
      cases hleft
      exact .apart rfl (by rintro _ ⟨⟩)
    · cases hleft
      exact .assign
  | compoundAssign =>
    obtain ⟨right, u, -, h⟩ := bind_ok h
    cases h
    exact .compoundAssign
  | conditional =>
    obtain ⟨consequent, u, -, h⟩ := bind_ok h
    obtain ⟨v, -, -, h⟩ := bind_expect True (proper_kind (by decide)) h
    obtain ⟨alternative, w, -, h⟩ := bind_ok h
    cases h
    exact .conditional
  | list =>
    obtain ⟨rest, u, -, h⟩ := bind_ok h
    cases h
    exact .list
  | dot => exact dotContinuation_extends h
  | index => exact indexContinuation_extends h
  | call => exact callContinuation_extends h
  | optionalChain =>
    rcases bind_if True (proper_kind (by decide)) h with ⟨u, -, -, h⟩ | h
    · exact callContinuation_extends h
    rcases bind_if True (proper_kind (by decide)) h with ⟨u, -, -, h⟩ | h
    · exact indexContinuation_extends h
    obtain ⟨id, u, -, h⟩ := bind_ok h
    cases h
    exact .member

/-- Whatever has been read before, what it goes on with is at least as tight as asked for. -/
theorem Continuation.Extends.fits {way : Continuation} {base e : Expr} (h : way.Extends base e)
    (hway : way.Within allowIn level) (first : Token) : e.Fits first level := by
  cases h with
  | @binary rule =>
    rcases hway with hle | ⟨hsame, hop⟩
    · exact Or.inl hle
    · exact Or.inr (Or.inr ⟨hsame, by rw [hop]; rfl⟩)
  | within => exact Or.inl hway.2
  | behind => exact .of_suffix hway
  | assign | apart | compoundAssign | conditional | list => exact Or.inl hway
  | typed | instantiation | member | index | call => exact .of_suffix rfl

/-- What stays so whenever an expression goes on stays so however far it does. The induction is on the
rounds. -/
theorem continuations_keep {p : Expr → Prop} {fuel : Nat} {base e : Expr} (hbase : p base)
    (hextends : ∀ {way : Continuation} {base e : Expr}, way.Within allowIn level → way.Extends base e →
      p base → p e)
    (h : r.continuations allowIn level fuel base s = .ok e t) : p e := by
  induction fuel generalizing base s with
  | zero => cases h
  | succ fuel ih =>
    unfold continuations at h
    rw [get_bind] at h
    cases hway : continuation? allowIn level s with
    | none =>
      rw [hway] at h
      cases h
      exact hbase
    | some way =>
      rw [hway] at h
      obtain ⟨_, u, -, h⟩ := bind_ok h
      obtain ⟨longer, v, hlonger, h⟩ := bind_ok h
      exact ih (hextends (continuation?_within hway) (continueWith_extends hlonger) hbase) h

theorem continuations_fits {first : Token} {fuel : Nat} {base e : Expr} (hbase : base.Fits first level)
    (h : r.continuations allowIn level fuel base s = .ok e t) : e.Fits first level :=
  continuations_keep (p := fun e => e.Fits first level) hbase
    (fun hway hextends _ => hextends.fits hway first) h

section Operands

/-- A function written with an arrow, out of what stands before it. -/
theorem arrowFunction_ok {m : Mark} {params : Params} {result : Option TypeExpr} {e : Expr}
    (h : r.arrowFunction m params result s = .ok e t) :
    ∃ span common, e = .function span none common ∧ common.body.isSome = true ∧
      common.params = params.required ∧ common.optional = params.optional ∧
      common.rest = params.rest ∧ common.result = result := by
  obtain ⟨⟨body, use⟩, u, -, h⟩ := bind_ok h
  cases h
  exact ⟨_, _, rfl, rfl, rfl, rfl, rfl, rfl⟩

theorem arrowFunction_binding {m : Mark} {params : Params} {result : Option TypeExpr} {e : Expr}
    (h : r.arrowFunction m params result s = .ok e t) : e.binding = .assignment := by
  obtain ⟨span, common, rfl, -⟩ := arrowFunction_ok h
  rfl

/-- What begins with a name is an operand, unless an arrow stands behind it. -/
theorem identifierPrimary_ok {allowTyped : Bool} {e : Expr} (hname : s.previous.kind = .identifier)
    (h : r.identifierPrimary allowTyped s = .ok e t) :
    e.isOperand = true ∨ e.IsNameArrow s.previous := by
  unfold identifierPrimary at h
  rw [previous_bind] at h
  rcases bind_allowed True (proper_kind (by decide)) h with ⟨u, -, -, h⟩ | h
  · obtain ⟨type, v, -, h⟩ := bind_ok h
    cases h
    exact Or.inl rfl
  rw [at?_bind] at h
  split at h
  · obtain ⟨_, u, -, h⟩ := bind_ok h
    rw [previous_bind] at h
    obtain ⟨type, v, -, h⟩ := bind_ok h
    cases h
    exact Or.inl rfl
  rw [finish_bind] at h
  rcases bind_if True (proper_kind (by decide)) h with ⟨u, -, -, h⟩ | h
  · obtain ⟨params, v, hparams, h⟩ := bind_ok h
    cases hparams
    obtain ⟨span, common, rfl, hbody, hrequired, hoptional, hrest, hresult⟩ := arrowFunction_ok h
    exact Or.inr ⟨hname, span, common, rfl, hbody, hrequired, hoptional, hrest, hresult⟩
  · cases h
    exact Or.inl rfl

theorem simplePrimary?_operand {m : Mark} {e : Expr}
    (h : r.simplePrimary? m s = .ok (some e) t) : e.isOperand = true := by
  unfold simplePrimary? at h
  rcases bind_if True (proper_keyword _) h with ⟨u, -, -, h⟩ | h
  · obtain ⟨v, -, -, h⟩ := bind_expect True (proper_kind (by decide)) h
    obtain ⟨type, w, -, h⟩ := bind_ok h
    obtain ⟨x, -, -, h⟩ := bind_expect True (proper_kind (by decide)) h
    cases h
    rfl
  rcases bind_if True (proper_keyword _) h with ⟨u, -, -, h⟩ | h
  · cases h
    rfl
  rcases bind_if True (proper_keyword _) h with ⟨u, -, -, h⟩ | h
  · obtain ⟨v, -, -, h⟩ := bind_expect True (proper_kind (by decide)) h
    obtain ⟨w, -, -, h⟩ := bind_expect True (proper_contextKeyword _) h
    cases h
    rfl
  rcases bind_if True (proper_keyword _) h with ⟨u, -, -, h⟩ | h
  · cases h
    rfl
  rcases bind_if True (proper_kind (by decide)) h with ⟨u, -, -, h⟩ | h
  · cases h
    rfl
  rcases bind_if True (proper_kind (by decide)) h with ⟨u, -, -, h⟩ | h
  · cases h
    rfl
  rcases bind_if True (proper_keyword _) h with ⟨u, -, -, h⟩ | h
  · cases h
    rfl
  rcases bind_if True (proper_keyword _) h with ⟨u, -, -, h⟩ | h
  · cases h
    rfl
  rw [token_bind] at h
  split at h
  · obtain ⟨e, u, hregular, h⟩ := bind_ok h
    cases h
    obtain ⟨_, v, -, hregular⟩ := bind_ok hregular
    obtain ⟨_, w, -, hregular⟩ := bind_ok hregular
    cases hregular
    rfl
  rcases bind_if True (proper_keyword _) h with ⟨u, -, -, h⟩ | h
  · cases h
    rfl
  · cases h

/-- A literal that is not there leaves everything as it is. -/
theorem simplePrimary?_none {m : Mark} (h : r.simplePrimary? m s = .ok none t) : t = s := by
  unfold simplePrimary? at h
  rcases bind_if True (proper_keyword _) h with ⟨u, -, -, h⟩ | h
  · obtain ⟨v, -, -, h⟩ := bind_expect True (proper_kind (by decide)) h
    obtain ⟨type, w, -, h⟩ := bind_ok h
    obtain ⟨x, -, -, h⟩ := bind_expect True (proper_kind (by decide)) h
    cases h
  rcases bind_if True (proper_keyword _) h with ⟨u, -, -, h⟩ | h
  · cases h
  rcases bind_if True (proper_keyword _) h with ⟨u, -, -, h⟩ | h
  · obtain ⟨v, -, -, h⟩ := bind_expect True (proper_kind (by decide)) h
    obtain ⟨w, -, -, h⟩ := bind_expect True (proper_contextKeyword _) h
    cases h
  rcases bind_if True (proper_keyword _) h with ⟨u, -, -, h⟩ | h
  · cases h
  rcases bind_if True (proper_kind (by decide)) h with ⟨u, -, -, h⟩ | h
  · cases h
  rcases bind_if True (proper_kind (by decide)) h with ⟨u, -, -, h⟩ | h
  · cases h
  rcases bind_if True (proper_keyword _) h with ⟨u, -, -, h⟩ | h
  · cases h
  rcases bind_if True (proper_keyword _) h with ⟨u, -, -, h⟩ | h
  · cases h
  rw [token_bind] at h
  split at h
  · obtain ⟨e, u, hregular, h⟩ := bind_ok h
    cases h
  rcases bind_if True (proper_keyword _) h with ⟨u, -, -, h⟩ | h
  · cases h
  · cases h
    rfl

/-- Above the level of functions, parentheses begin none. -/
theorem parensPrimary_ok {m : Mark} {e : Expr} (h : r.parensPrimary m level s = .ok e t) :
    e.isOperand = true ∨ (level ≤ .assignment ∧ e.binding = .assignment) := by
  unfold parensPrimary at h
  split at h
  · obtain ⟨inner, u, -, h⟩ := bind_ok h
    obtain ⟨v, -, -, h⟩ := bind_expect True (proper_kind (by decide)) h
    cases h
    exact Or.inl rfl
  rename_i hlevel
  have hle : level ≤ .assignment := Precedence.le_of_not_lt hlevel
  rcases bind_if True (proper_kind (by decide)) h with ⟨u, -, -, h⟩ | h
  · obtain ⟨v, -, -, h⟩ := bind_expect True (proper_kind (by decide)) h
    exact Or.inr ⟨hle, arrowFunction_binding h⟩
  obtain ⟨⟨items, atRest⟩, u, -, h⟩ := bind_ok h
  cases atRest with
  | true =>
    obtain ⟨params, v, -, h⟩ := bind_ok h
    obtain ⟨rest, w, -, h⟩ := bind_ok h
    obtain ⟨x, -, -, h⟩ := bind_expect True (proper_kind (by decide)) h
    obtain ⟨result, y, -, h⟩ := bind_ok h
    obtain ⟨z, -, -, h⟩ := bind_expect True (proper_kind (by decide)) h
    exact Or.inr ⟨hle, arrowFunction_binding h⟩
  | false =>
    obtain ⟨v, -, -, h⟩ := bind_expect True (proper_kind (by decide)) h
    rcases bind_if True (proper_kind (by decide)) h with ⟨w, -, -, h⟩ | h
    · obtain ⟨params, x, -, h⟩ := bind_ok h
      obtain ⟨result, y, -, h⟩ := bind_ok h
      obtain ⟨z, -, -, h⟩ := bind_expect True (proper_kind (by decide)) h
      exact Or.inr ⟨hle, arrowFunction_binding h⟩
    rcases bind_if True (proper_kind (by decide)) h with ⟨w, -, -, h⟩ | h
    · obtain ⟨params, x, -, h⟩ := bind_ok h
      exact Or.inr ⟨hle, arrowFunction_binding h⟩
    obtain ⟨content, w, -, h⟩ := bind_ok h
    cases h
    exact Or.inl rfl

theorem nodeRule_operand {outermost : Bool} {e : Expr} (h : r.nodeRule outermost s = .ok e t) :
    e.isOperand = true := by
  unfold nodeRule at h
  rw [mark_bind] at h
  obtain ⟨u, -, -, h⟩ := bind_expect True (proper_operator _) h
  rcases bind_allowed True (proper_operator _) h with ⟨v, -, -, h⟩ | h
  · obtain ⟨children, w, -, h⟩ := bind_ok h
    obtain ⟨x, -, -, h⟩ := bind_expect True (proper_operator _) h
    cases h
    rfl
  · obtain ⟨first, v, -, h⟩ := bind_ok h
    obtain ⟨id, w, -, h⟩ := bind_ok h
    obtain ⟨attributes, x, -, h⟩ := bind_ok h
    obtain ⟨children, y, -, h⟩ := bind_ok h
    cases h
    rfl

theorem objectInitializer_operand {m : Mark} {e : Expr} (h : r.objectInitializer m s = .ok e t) :
    e.isOperand = true := by
  obtain ⟨fields, u, -, h⟩ := bind_ok h
  obtain ⟨v, -, -, h⟩ := bind_expect True (proper_kind (by decide)) h
  obtain ⟨type, w, -, h⟩ := bind_ok h
  cases h
  rfl

theorem arrayInitializer_operand {m : Mark} {e : Expr} (h : r.arrayInitializer m s = .ok e t) :
    e.isOperand = true := by
  obtain ⟨items, u, -, h⟩ := bind_ok h
  obtain ⟨v, -, -, h⟩ := bind_expect True (proper_kind (by decide)) h
  obtain ⟨type, w, -, h⟩ := bind_ok h
  cases h
  rfl

theorem newExpr_operand {m : Mark} {e : Expr} (h : r.newExpr m s = .ok e t) :
    e.isOperand = true := by
  obtain ⟨first, u, -, h⟩ := bind_ok h
  obtain ⟨base, v, -, h⟩ := bind_ok h
  obtain ⟨found, w, -, h⟩ := bind_ok h
  obtain ⟨arguments, x, -, h⟩ := bind_either h
  cases h
  rfl

theorem unaryExpr_ok {rule : OperatorRule} {e : Expr} (h : r.unaryExpr rule allowIn s = .ok e t) :
    ∃ span operand, e = .unary span rule.operator operand := by
  unfold unaryExpr at h
  rw [mark_bind] at h
  obtain ⟨_, u, -, h⟩ := bind_ok h
  obtain ⟨operand, v, -, h⟩ := bind_ok h
  rw [finish_bind] at h
  obtain ⟨_, w, -, h⟩ := bind_ok h
  cases h
  exact ⟨_, operand, rfl⟩

theorem functionExpr_ok {e : Expr} (h : r.functionExpr s = .ok e t) :
    ∃ span id common, e = .function span id common := by
  unfold functionExpr at h
  rw [mark_bind] at h
  obtain ⟨u, -, -, h⟩ := bind_expect True (proper_keyword _) h
  obtain ⟨named, v, -, h⟩ := bind_ok h
  obtain ⟨id, w, -, h⟩ := bind_either h
  obtain ⟨parts, x, -, h⟩ := bind_ok h
  rw [finish_bind] at h
  obtain ⟨y, -, h⟩ := bind_report True rfl h (by decide)
  cases h
  exact ⟨_, id, parts.common, rfl⟩

/-- What is no operator is an operand, a function of one name or a function behind parentheses. -/
theorem optPrimaryRule_ok {allowTyped : Bool} {e : Expr}
    (h : r.optPrimaryRule allowTyped level s = .ok (some e) t) :
    e.isOperand = true ∨ e.IsNameArrow s.token ∨
      (s.token.kind = .leftParen ∧ level ≤ .assignment ∧ e.binding = .assignment) := by
  unfold optPrimaryRule at h
  rw [mark_bind] at h
  rcases bind_if True (proper_kind (by decide)) h with ⟨u, hu, hname, h⟩ | h
  · obtain ⟨e, v, hv, h⟩ := bind_ok h
    cases h
    rw [← hu.previous] at hname ⊢
    exact (identifierPrimary_ok (eq_of_beq hname) hv).imp_right Or.inl
  obtain ⟨simple, u, hu, h⟩ := bind_ok h
  cases simple with
  | some e =>
    cases h
    exact Or.inl (simplePrimary?_operand hu)
  | none =>
    obtain rfl := simplePrimary?_none hu
    rcases bind_if True (proper_kind (by decide)) h with ⟨v, -, hparen, h⟩ | h
    · obtain ⟨e, w, hw, h⟩ := bind_ok h
      cases h
      exact (parensPrimary_ok hw).imp_right fun hfunction => Or.inr ⟨eq_of_beq hparen, hfunction⟩
    rcases bind_if True (proper_kind (by decide)) h with ⟨v, -, -, h⟩ | h
    · obtain ⟨e, w, hw, h⟩ := bind_ok h
      cases h
      exact Or.inl (objectInitializer_operand hw)
    rcases bind_if True (proper_kind (by decide)) h with ⟨v, -, -, h⟩ | h
    · obtain ⟨e, w, hw, h⟩ := bind_ok h
      cases h
      exact Or.inl (arrayInitializer_operand hw)
    rcases bind_if True (proper_keyword _) h with ⟨v, -, -, h⟩ | h
    · obtain ⟨e, w, hw, h⟩ := bind_ok h
      cases h
      exact Or.inl (newExpr_operand hw)
    rw [atOperator?_bind] at h
    split at h
    · obtain ⟨e, v, hv, h⟩ := bind_ok h
      cases h
      exact Or.inl (nodeRule_operand hv)
    · cases h

theorem optPrimaryRule_fits {allowTyped : Bool} {e : Expr}
    (h : r.optPrimaryRule allowTyped level s = .ok (some e) t) : e.Fits s.token level := by
  rcases optPrimaryRule_ok h with hoperand | harrow | ⟨-, hle, hbinding⟩
  · exact .of_suffix (Expr.binding_of_operand hoperand)
  · exact Or.inr (Or.inl harrow)
  · exact Or.inl (hbinding ▸ hle)

/-- Where no operand begins, everything is left as it is. -/
theorem optPrimaryRule_none {allowTyped : Bool}
    (h : r.optPrimaryRule allowTyped level s = .ok none t) : t = s := by
  unfold optPrimaryRule at h
  rw [mark_bind] at h
  rcases bind_if True (proper_kind (by decide)) h with ⟨u, -, -, h⟩ | h
  · obtain ⟨e, v, -, h⟩ := bind_ok h
    cases h
  obtain ⟨simple, u, hu, h⟩ := bind_ok h
  cases simple with
  | some e => cases h
  | none =>
    obtain rfl := simplePrimary?_none hu
    rcases bind_if True (proper_kind (by decide)) h with ⟨v, -, -, h⟩ | h
    · obtain ⟨e, w, -, h⟩ := bind_ok h
      cases h
    rcases bind_if True (proper_kind (by decide)) h with ⟨v, -, -, h⟩ | h
    · obtain ⟨e, w, -, h⟩ := bind_ok h
      cases h
    rcases bind_if True (proper_kind (by decide)) h with ⟨v, -, -, h⟩ | h
    · obtain ⟨e, w, -, h⟩ := bind_ok h
      cases h
    rcases bind_if True (proper_keyword _) h with ⟨v, -, -, h⟩ | h
    · obtain ⟨e, w, -, h⟩ := bind_ok h
      cases h
    rw [atOperator?_bind] at h
    split at h
    · obtain ⟨e, v, -, h⟩ := bind_ok h
      cases h
    · cases h
      rfl

theorem operand?_fits {mode : ExprMode} {e : Expr} (h : r.operand? mode s = .ok (some e) t) :
    e.Fits s.token mode.level := by
  obtain ⟨found, u, hu, h⟩ := bind_ok h
  cases found with
  | some e =>
    cases h
    exact optPrimaryRule_fits hu
  | none =>
    dsimp only at h
    rw [token_bind] at h
    cases hrule : (OperatorRule.front? u.token).filter (mode.level ≤ ·.level) with
    | some rule =>
      rw [hrule] at h
      obtain ⟨e, v, hv, h⟩ := bind_ok h
      cases h
      obtain ⟨hfront, hlevel⟩ := Option.filter_eq_some_iff.mp hrule
      have hle : mode.level ≤ rule.level := of_decide_eq_true hlevel
      rw [OperatorRule.front?_level hfront] at hle
      obtain ⟨span, operand, rfl⟩ := unaryExpr_ok hv
      exact Or.inl hle
    | none =>
      rw [hrule] at h
      dsimp only at h
      split at h
      · rename_i hword
        obtain ⟨e, v, hv, h⟩ := bind_ok h
        cases h
        simp only [Bool.and_eq_true, decide_eq_true_eq] at hword
        obtain ⟨span, id, common, rfl⟩ := functionExpr_ok hv
        exact Or.inl hword.1
      · cases h

theorem exprRule_fits {mode : ExprMode} {e : Expr} (h : r.exprRule mode s = .ok e t) :
    e.Fits s.token mode.level := by
  obtain ⟨found, u, hu, h⟩ := bind_ok h
  cases found with
  | none => cases h
  | some e =>
    cases h
    obtain ⟨first, v, hv, hu⟩ := bind_ok hu
    cases first with
    | none => cases hu
    | some base =>
      obtain ⟨e, w, hw, hu⟩ := bind_ok hu
      cases hu
      exact continuations_fits (operand?_fits hv) hw

end Operands

end Rules

namespace Parser

variable {p : Parser} {allowIn : Bool} {level : Precedence} {e : Expr}

/-- The outermost construct of an expression binds at least as tightly as asked for, unless it is a
function of one name, or `??` where the operators of the level of `||` are asked for. -/
theorem parseExpressionWith_binding (h : (p.parseExpressionWith allowIn level).1 = some e) :
    level ≤ e.binding ∨ e.IsNameArrow p.state.token ∨
      (level = .logicalOr ∧ e.isCoalescing = true) := by
  obtain ⟨t, -, hread, -⟩ := run_eq_some_iff.mp h
  exact Rules.exprRule_fits hread

/-- A sum of products, where sums are asked for. -/
theorem parseExpressionWith_binding_sum : ∃ e,
    ((Parser.ofScript (Host.ofFiles []) (Script.ofSource "/a.es" "a * b + c")).parseExpressionWith true
      .additive).1 = some e ∧ e.binding = .additive ∧
    (Precedence.additive ≤ e.binding ∨
      e.IsNameArrow (Parser.ofScript (Host.ofFiles []) (Script.ofSource "/a.es" "a * b + c")).state.token ∨
      (Precedence.additive = .logicalOr ∧ e.isCoalescing = true)) := by
  have hlevel : ((Parser.ofScript (Host.ofFiles [])
      (Script.ofSource "/a.es" "a * b + c")).parseExpressionWith true .additive).1.map Expr.binding =
        some .additive := by decide +kernel
  obtain ⟨e, he, hbinding⟩ := Option.map_eq_some_iff.mp hlevel
  exact ⟨e, he, hbinding, parseExpressionWith_binding he⟩

/-- Both exceptions happen: functions and `??` are found where tighter constructs are asked for. -/
theorem parseExpressionWith_binding_loose :
    ((Parser.ofScript (Host.ofFiles []) (Script.ofSource "/a.es" "x -> y")).parseExpressionWith true
      .suffix).1.map Expr.binding = some .assignment ∧
    ((Parser.ofScript (Host.ofFiles []) (Script.ofSource "/a.es" "a ?? b")).parseExpressionWith true
      .logicalOr).1.map Expr.binding = some .nullCoalescing := by
  decide +kernel

end Parser

end ActionSyntax
