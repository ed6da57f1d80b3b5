/-!
Offsets into text, counted in bytes of its UTF-8 form. An offset is usable only where a character
begins or the text ends; `dropBytes?` and `slice?` refuse all others.
-/

namespace ActionSyntax.Utf8

set_option autoImplicit false

def byteLength (text : List Char) : Nat := (text.map Char.utf8Size).foldr (· + ·) 0

@[simp] theorem byteLength_nil : byteLength [] = 0 := rfl

@[simp] theorem byteLength_cons (ch : Char) (text : List Char) :
    byteLength (ch :: text) = ch.utf8Size + byteLength text := rfl

@[simp] theorem byteLength_append (a b : List Char) :
    byteLength (a ++ b) = byteLength a + byteLength b := by
  induction a with
  | nil => simp
  | cons ch a ih => simp [ih, Nat.add_assoc]

/-- The text from an offset on. -/
def dropBytes? : List Char → Nat → Option (List Char)
  | text, 0 => some text
  | [], _ + 1 => none
  | ch :: text, n + 1 =>
    if ch.utf8Size ≤ n + 1 then dropBytes? text (n + 1 - ch.utf8Size) else none

/-- The characters that fit into `n` bytes from the beginning. -/
def takeBytes : List Char → Nat → List Char
  | [], _ => []
  | ch :: text, n =>
    if ch.utf8Size ≤ n then ch :: takeBytes text (n - ch.utf8Size) else []

/-- The text between two offsets. -/
def slice? (text : List Char) (start stop : Nat) : Option (List Char) := do
  if stop < start then none
  else
    let rest ← dropBytes? text start
    let _ ← dropBytes? rest (stop - start)
    some (takeBytes rest (stop - start))

@[simp] theorem dropBytes?_zero (text : List Char) : dropBytes? text 0 = some text := by
  cases text <;> rfl

theorem dropBytes?_append (a b : List Char) : dropBytes? (a ++ b) (byteLength a) = some b := by
  induction a with
  | nil => simp
  | cons ch a ih =>
    obtain ⟨n, hn⟩ : ∃ n, ch.utf8Size + byteLength a = n + 1 :=
      ⟨ch.utf8Size + byteLength a - 1, by have := ch.utf8Size_pos; omega⟩
    simp only [List.cons_append, byteLength_cons, hn, dropBytes?]
    rw [if_pos (by omega), show n + 1 - ch.utf8Size = byteLength a by omega, ih]

theorem takeBytes_append (a b : List Char) : takeBytes (a ++ b) (byteLength a) = a := by
  induction a with
  | nil => cases b with
    | nil => rfl
    | cons ch b =>
      have : ¬ ch.utf8Size ≤ 0 := by have := ch.utf8Size_pos; omega
      simp [takeBytes, this]
  | cons ch a ih =>
    simp only [List.cons_append, byteLength_cons, takeBytes]
    rw [if_pos (by omega), Nat.add_sub_cancel_left, ih]

end ActionSyntax.Utf8
