import ActionSyntax.Operator

/-!
Levels of binding, from the comma list up to what stands behind an operand.
-/

namespace ActionSyntax

set_option autoImplicit false

inductive Precedence where
  | list
  /-- Assignments, conditionals, `yield` and functions. -/
  | assignment
  | nullCoalescing
  | logicalOr
  | logicalXor
  | logicalAnd
  | bitwiseOr
  | bitwiseXor
  | bitwiseAnd
  | equality
  | relational
  | shift
  | additive
  | multiplicative
  | exponentiation
  | unary
  | suffix
deriving DecidableEq, Repr

namespace Precedence

def all : List Precedence :=
  [.list, .assignment, .nullCoalescing, .logicalOr, .logicalXor, .logicalAnd, .bitwiseOr,
   .bitwiseXor, .bitwiseAnd, .equality, .relational, .shift, .additive, .multiplicative,
   .exponentiation, .unary, .suffix]

def value : Precedence → Nat
  | .list => 1
  | .assignment => 2
  | .nullCoalescing => 3
  | .logicalOr => 4
  | .logicalXor => 5
  | .logicalAnd => 6
  | .bitwiseOr => 7
  | .bitwiseXor => 8
  | .bitwiseAnd => 9
  | .equality => 10
  | .relational => 11
  | .shift => 12
  | .additive => 13
  | .multiplicative => 14
  | .exponentiation => 15
  | .unary => 16
  | .suffix => 17

instance : LE Precedence := ⟨fun a b => a.value ≤ b.value⟩

instance : LT Precedence := ⟨fun a b => a.value < b.value⟩

instance (a b : Precedence) : Decidable (a ≤ b) := inferInstanceAs (Decidable (a.value ≤ b.value))

instance (a b : Precedence) : Decidable (a < b) := inferInstanceAs (Decidable (a.value < b.value))

def ofValue? (n : Nat) : Option Precedence := all.find? fun p => p.value == n

/-- The next tighter level; nothing binds tighter than what stands behind an operand. -/
def next (p : Precedence) : Precedence := (ofValue? (p.value + 1)).getD .suffix

@[simp] theorem ofValue?_value (p : Precedence) : ofValue? p.value = some p := by
  cases p <;> rfl

theorem value_injective {a b : Precedence} (h : a.value = b.value) : a = b := by
  have := congrArg ofValue? h
  simpa using this

end Precedence

end ActionSyntax
