/-!
Words in front of a definition: modifiers, which may be combined, and one access modifier.
-/

namespace ActionSyntax

set_option autoImplicit false

inductive Modifier where
  | final | native | override | proxy | static
deriving DecidableEq, Repr, Inhabited

namespace Modifier

/-- In the order of their bits. -/
def all : List Modifier := [.final, .native, .override, .proxy, .static]

def word : Modifier → String
  | .final => "final"
  | .native => "native"
  | .override => "override"
  | .proxy => "proxy"
  | .static => "static"

def ofWord? (word : String) : Option Modifier := all.find? fun m => m.word == word

def bit : Modifier → Nat
  | .final => 1
  | .native => 2
  | .override => 4
  | .proxy => 8
  | .static => 16

end Modifier

/-- A set of modifiers. -/
structure Modifiers where
  final : Bool := false
  native : Bool := false
  override : Bool := false
  proxy : Bool := false
  static : Bool := false
deriving DecidableEq, Repr, Inhabited

namespace Modifiers

def empty : Modifiers := {}

def contains (s : Modifiers) : Modifier → Bool
  | .final => s.final
  | .native => s.native
  | .override => s.override
  | .proxy => s.proxy
  | .static => s.static

def insert (s : Modifiers) : Modifier → Modifiers
  | .final => { s with final := true }
  | .native => { s with native := true }
  | .override => { s with override := true }
  | .proxy => { s with proxy := true }
  | .static => { s with static := true }

def toList (s : Modifiers) : List Modifier := Modifier.all.filter s.contains

def ofList (ms : List Modifier) : Modifiers := ms.foldl insert empty

def isEmpty (s : Modifiers) : Bool := s.toList.isEmpty

def bits (s : Modifiers) : Nat := (s.toList.map Modifier.bit).foldr (· + ·) 0

/-- The modifiers of the known bits of a number. -/
def ofBits (n : Nat) : Modifiers := ofList (Modifier.all.filter fun m => n / m.bit % 2 == 1)

/-- The word of a set of one, otherwise nothing. -/
def word (s : Modifiers) : String :=
  match s.toList with
  | [m] => m.word
  | _ => ""

@[simp] theorem mem_toList {s : Modifiers} {m : Modifier} :
    m ∈ s.toList ↔ s.contains m = true := by
  cases m <;> simp [toList, Modifier.all]

end Modifiers

inductive Access where
  | pub | priv | prot | intern
deriving DecidableEq, Repr, Inhabited

namespace Access

def all : List Access := [.pub, .priv, .prot, .intern]

def word : Access → String
  | .pub => "public"
  | .priv => "private"
  | .prot => "protected"
  | .intern => "internal"

def ofWord? (word : String) : Option Access := all.find? fun a => a.word == word

end Access

end ActionSyntax
