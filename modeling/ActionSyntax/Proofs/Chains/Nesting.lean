import ActionSyntax.Proofs.Chains.Words

/-!
How the operators of a chain nest. The levels are those of the grammar, from the loosest to the
tightest; every chain has a nesting by them.
-/

namespace ActionSyntax

set_option autoImplicit false

mutual

/-- A name, a number or a chain in parentheses, and any operators in front of it. -/
inductive IsOperand : List ChainWord → Prop where
  | name (n : String) : IsOperand [.name n]
  | number (v : Double) : IsOperand [.number v]
  | parens {ws : List ChainWord} (h : IsChain ws) : IsOperand (.opening :: (ws ++ [.closing]))
  | front {op : Operator} {ws : List ChainWord} (hop : op ∈ Operator.fronts) (h : IsOperand ws) :
      IsOperand (.front op :: ws)

/-- Operands with operators between them. -/
inductive IsChain : List ChainWord → Prop where
  | operand {ws : List ChainWord} (h : IsOperand ws) : IsChain ws
  | longer {op : Operator} {ws rest : List ChainWord} (h : IsOperand ws)
      (hop : op ∈ Operator.betweens) (hrest : IsChain rest) :
      IsChain (ws ++ .between op :: rest)

end

namespace Operator

/-- The levels of the operators between two operands. -/
def tier : Operator → Nat
  | .nullCoalescing => 1
  | .logicalOr => 2
  | .logicalXor => 3
  | .logicalAnd => 4
  | .bitwiseOr => 5
  | .bitwiseXor => 6
  | .bitwiseAnd => 7
  | .equal | .notEqual | .strictEqual | .strictNotEqual => 8
  | .less | .greater | .lessOrEqual | .greaterOrEqual | .within => 9
  | .shiftLeft | .shiftRight | .shiftRightUnsigned => 10
  | .add | .subtract => 11
  | .multiply | .divide | .remainder => 12
  | .power => 13
  | _ => 0

/-- Chains of the operator group to the right, chains of all others to the left. -/
def GroupsRight (op : Operator) : Prop := op = .nullCoalescing ∨ op = .power

instance (op : Operator) : Decidable op.GroupsRight := inferInstanceAs (Decidable (_ ∨ _))

/-- The inner operator may be that of the left operand. -/
def HoldsLeft (op inner : Operator) : Prop :=
  op.tier < inner.tier ∨ op.tier = inner.tier ∧ ¬ op.GroupsRight

/-- The inner operator may be that of the right operand. -/
def HoldsRight (op inner : Operator) : Prop :=
  op.tier < inner.tier ∨ op.tier = inner.tier ∧ op.GroupsRight

instance (op inner : Operator) : Decidable (op.HoldsRight inner) :=
  inferInstanceAs (Decidable (_ ∨ _))

theorem groupsRight_congr {op inner : Operator} (hop : op ∈ betweens) (hinner : inner ∈ betweens)
    (h : op.tier = inner.tier) : op.GroupsRight ↔ inner.GroupsRight := by
  have hall : ∀ op ∈ betweens, ∀ inner ∈ betweens, op.tier = inner.tier →
      (op.GroupsRight ↔ inner.GroupsRight) := by decide
  exact hall op hop inner hinner h

/-- One of two neighbours holds the other. -/
theorem holdsLeft_of_not_holdsRight {op inner : Operator} (hop : op ∈ betweens)
    (hinner : inner ∈ betweens) (h : ¬ op.HoldsRight inner) : inner.HoldsLeft op := by
  unfold HoldsRight at h
  rcases Nat.lt_trichotomy op.tier inner.tier with hlt | heq | hgt
  · exact absurd (Or.inl hlt) h
  · refine Or.inr ⟨heq.symm, fun hright => h (Or.inr ⟨heq, ?_⟩)⟩
    exact (groupsRight_congr hop hinner heq).mpr hright
  · exact Or.inl hgt

end Operator

/-- The operators of a chain as a tree, without places. -/
inductive Nesting where
  | name (n : String)
  | number (v : Double)
  | parens (inner : Nesting)
  | front (op : Operator) (operand : Nesting)
  | between (op : Operator) (left right : Nesting)

namespace Nesting

/-- The tree read from left to right. -/
def words : Nesting → List ChainWord
  | .name n => [.name n]
  | .number v => [.number v]
  | .parens inner => .opening :: (inner.words ++ [.closing])
  | .front op operand => .front op :: operand.words
  | .between op left right => left.words ++ .between op :: right.words

/-- The operator between two operands that holds the tree together. -/
def root? : Nesting → Option Operator
  | .between op _ _ => some op
  | _ => none

/-- Operators nest by their levels, and those in front of an operand hold nothing but that. -/
def Leveled : Nesting → Prop
  | .name _ | .number _ => True
  | .parens inner => inner.Leveled
  | .front op operand => op ∈ Operator.fronts ∧ operand.root? = none ∧ operand.Leveled
  | .between op left right =>
    op ∈ Operator.betweens ∧ (∀ inner ∈ left.root?, op.HoldsLeft inner) ∧
      (∀ inner ∈ right.root?, op.HoldsRight inner) ∧ left.Leveled ∧ right.Leveled

/-- The expression is the tree, wherever its parts stand. -/
def Shows : Nesting → Expr → Prop
  | .name n, e => ∃ span, e = .identifier { span, name := n }
  | .number v, e => ∃ span, e = .number span v
  | .parens inner, e => ∃ span e', e = .parens span e' ∧ inner.Shows e'
  | .front op operand, e => ∃ span e', e = .unary span op e' ∧ operand.Shows e'
  | .between op left right, e =>
    ∃ span l r, e = .binary span op l r ∧ left.Shows l ∧ right.Shows r

theorem Shows.unique : ∀ {t u : Nesting} {e : Expr}, t.Shows e → u.Shows e → t = u := by
  intro t
  induction t with
  | name n =>
    rintro u e ⟨span, rfl⟩ hu
    cases u with
    | name m =>
      obtain ⟨_, h⟩ := hu
      cases h
      rfl
    | number _ | parens _ | front _ _ | between _ _ _ => simp [Shows] at hu
  | number v =>
    rintro u e ⟨span, rfl⟩ hu
    cases u with
    | number w =>
      obtain ⟨_, h⟩ := hu
      cases h
      rfl
    | name _ | parens _ | front _ _ | between _ _ _ => simp [Shows] at hu
  | parens inner ih =>
    rintro u e ⟨span, e', rfl, ht⟩ hu
    cases u with
    | parens inner' =>
      obtain ⟨_, _, h, hu⟩ := hu
      cases h
      rw [ih ht hu]
    | name _ | number _ | front _ _ | between _ _ _ => simp [Shows] at hu
  | front op operand ih =>
    rintro u e ⟨span, e', rfl, ht⟩ hu
    cases u with
    | front op' operand' =>
      obtain ⟨_, _, h, hu⟩ := hu
      cases h
      rw [ih ht hu]
    | name _ | number _ | parens _ | between _ _ _ => simp [Shows] at hu
  | between op left right ihl ihr =>
    rintro u e ⟨span, l, r, rfl, hl, hr⟩ hu
    cases u with
    | between op' left' right' =>
      obtain ⟨_, _, _, h, hul, hur⟩ := hu
      cases h
      rw [ihl hl hul, ihr hr hur]
    | name _ | number _ | parens _ | front _ _ => simp [Shows] at hu

/-- The tree with an operand and an operator in front of it. -/
def grow (operand : Nesting) (op : Operator) : Nesting → Nesting
  | .between inner left right =>
    if op.HoldsRight inner then .between op operand (.between inner left right)
    else .between inner (grow operand op left) right
  | t => .between op operand t

theorem words_grow (operand : Nesting) (op : Operator) (t : Nesting) :
    (grow operand op t).words = operand.words ++ .between op :: t.words := by
  induction t with
  | between inner left right ihl ihr =>
    unfold grow
    split
    · rfl
    · simp only [words, ihl, List.append_assoc, List.cons_append]
  | name _ | number _ | parens _ _ | front _ _ _ => rfl

theorem root?_grow (operand : Nesting) (op : Operator) (t : Nesting) :
    (grow operand op t).root? = some op ∨ (grow operand op t).root? = t.root? := by
  cases t with
  | between inner left right =>
    unfold grow
    split
    · exact Or.inl rfl
    · exact Or.inr rfl
  | name _ | number _ | parens _ | front _ _ => exact Or.inl rfl

theorem leveled_grow {operand : Nesting} {op : Operator} (hoperand : operand.Leveled)
    (hroot : operand.root? = none) (hop : op ∈ Operator.betweens) :
    ∀ {t : Nesting}, t.Leveled → (grow operand op t).Leveled := by
  intro t
  induction t with
  | between inner left right ihl ihr =>
    intro ht
    have hwhole := ht
    obtain ⟨hinner, hleft, hright, hl, hr⟩ := ht
    unfold grow
    split
    · rename_i hholds
      refine ⟨hop, by simp [hroot], ?_, hoperand, hwhole⟩
      intro other hother
      cases hother
      exact hholds
    · rename_i hholds
      refine ⟨hinner, ?_, hright, ihl hl, hr⟩
      intro other hother
      obtain hgrown | hgrown := root?_grow operand op left
      · rw [hgrown] at hother
        cases hother
        exact Operator.holdsLeft_of_not_holdsRight hop hinner hholds
      · rw [hgrown] at hother
        exact hleft other hother
  | name _ | number _ | parens _ _ | front _ _ _ =>
    intro ht
    exact ⟨hop, by simp [hroot], by simp [root?], hoperand, ht⟩

end Nesting

mutual

theorem IsOperand.nesting {ws : List ChainWord} :
    IsOperand ws → ∃ t : Nesting, t.Leveled ∧ t.root? = none ∧ t.words = ws
  | .name n => ⟨.name n, trivial, rfl, rfl⟩
  | .number v => ⟨.number v, trivial, rfl, rfl⟩
  | .parens h => by
    obtain ⟨t, ht, rfl⟩ := IsChain.nesting h
    exact ⟨.parens t, ht, rfl, rfl⟩
  | @IsOperand.front o _ hop h => by
    obtain ⟨t, ht, hroot, rfl⟩ := IsOperand.nesting h
    exact ⟨.front o t, ⟨hop, hroot, ht⟩, rfl, rfl⟩

/-- Every chain nests by levels. -/
theorem IsChain.nesting {ws : List ChainWord} :
    IsChain ws → ∃ t : Nesting, t.Leveled ∧ t.words = ws
  | .operand h => by
    obtain ⟨t, ht, _, rfl⟩ := IsOperand.nesting h
    exact ⟨t, ht, rfl⟩
  | @IsChain.longer o _ _ h hop hrest => by
    obtain ⟨x, hx, hroot, rfl⟩ := IsOperand.nesting h
    obtain ⟨t, ht, rfl⟩ := IsChain.nesting hrest
    exact ⟨.grow x o t, Nesting.leveled_grow hx hroot hop ht, Nesting.words_grow x o t⟩

end

end ActionSyntax
