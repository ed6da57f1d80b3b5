/-!
Source ranges: first and last line, counted from one, and byte offsets, the end exclusive.
-/

namespace ActionSyntax

set_option autoImplicit false

structure Span where
  firstLine : Nat
  lastLine : Nat
  start : Nat
  stop : Nat
deriving DecidableEq, Repr, Inhabited

namespace Span

def onLine (line start stop : Nat) : Span := ⟨line, line, start, stop⟩

/-- The empty range at an offset. -/
def point (line index : Nat) : Span := onLine line index index

/-- From the beginning of one range to the end of another. -/
def «to» (a b : Span) : Span := ⟨a.firstLine, b.lastLine, a.start, b.stop⟩

/-- Source order looks at the start alone. -/
def order (a b : Span) : Ordering := compare a.start b.start

def length (s : Span) : Nat := s.stop - s.start

/-- The first line and the offsets. -/
def brief (s : Span) : String :=
  toString s.firstLine ++ ":" ++ toString s.start ++ ".." ++ toString s.stop

@[simp] theorem to_firstLine (a b : Span) : (a.«to» b).firstLine = a.firstLine := rfl

@[simp] theorem to_lastLine (a b : Span) : (a.«to» b).lastLine = b.lastLine := rfl

@[simp] theorem to_start (a b : Span) : (a.«to» b).start = a.start := rfl

@[simp] theorem to_stop (a b : Span) : (a.«to» b).stop = b.stop := rfl

end Span

end ActionSyntax
