import ActionSyntax.Text.Quoted

/-!
Nested data as indented text: named records with named fields, named wrappers, and lists. Over
several lines everything nested is indented by four blanks and has a comma behind it.
-/

namespace ActionSyntax

set_option autoImplicit false

mutual

inductive Outline where
  | leaf (text : String)
  | wrapped (name : String) (content : Outline)
  | record (name : String) (fields : List OutlineField)
  | list (items : List Outline)

structure OutlineField where
  name : String
  value : Outline

end

namespace Outline

instance : Inhabited Outline := ⟨.leaf ""⟩

def text (value : String) : Outline := .leaf (Quoted.printable value)

def bool (value : Bool) : Outline := .leaf (if value then "true" else "false")

def nat (value : Nat) : Outline := .leaf (toString value)

/-- A list, by the outline of each item, which may use that it is one of them. -/
def ofList {α : Type} (items : List α) (outline : (item : α) → item ∈ items → Outline) :
    Outline :=
  .list (items.attach.map fun item => outline item.1 item.2)

/-- A value that may be absent. -/
def ofOption {α : Type} (value : Option α) (outline : (x : α) → value = some x → Outline) :
    Outline :=
  match value, outline with
  | none, _ => .leaf "None"
  | some x, outline => .wrapped "Some" (outline x rfl)

/-- A list that is absent when it is empty. -/
def ofNonempty {α : Type} (items : List α) (outline : (item : α) → item ∈ items → Outline) :
    Outline :=
  if items.isEmpty then .leaf "None" else .wrapped "Some" (ofList items outline)

/-- Lines between two others, one step further in. -/
def enclosed (opening : String) (inner : List String) (closing : String) : List String :=
  opening :: inner.map ("    " ++ ·) ++ [closing]

/-- The lines with a comma behind the last one. -/
def withComma : List String → List String
  | [] => []
  | [line] => [line ++ ","]
  | line :: rest => line :: withComma rest

/-- The lines with a name in front of the first one. -/
def named (name : String) : List String → List String
  | [] => []
  | line :: rest => (name ++ ": " ++ line) :: rest

mutual

def lines : Outline → List String
  | .leaf text => [text]
  | .wrapped name content => enclosed (name ++ "(") (withComma (lines content)) ")"
  | .record name fields => enclosed (name ++ " \x7b") (fieldLines fields) "\x7d"
  | .list [] => ["[]"]
  | .list (item :: rest) => enclosed "[" (withComma (lines item) ++ itemLines rest) "]"

def fieldLines : List OutlineField → List String
  | [] => []
  | ⟨name, value⟩ :: rest => withComma (named name (lines value)) ++ fieldLines rest

def itemLines : List Outline → List String
  | [] => []
  | item :: rest => withComma (lines item) ++ itemLines rest

end

/-- Over as many lines as there are parts. -/
def render (o : Outline) : String := String.intercalate "\n" o.lines

mutual

/-- On one line. -/
def flat : Outline → String
  | .leaf text => text
  | .wrapped name content => name ++ "(" ++ flat content ++ ")"
  | .record name fields =>
    name ++ " \x7b " ++ String.intercalate ", " (flatFields fields) ++ " \x7d"
  | .list items => "[" ++ String.intercalate ", " (flatItems items) ++ "]"

def flatFields : List OutlineField → List String
  | [] => []
  | ⟨name, value⟩ :: rest => (name ++ ": " ++ flat value) :: flatFields rest

def flatItems : List Outline → List String
  | [] => []
  | item :: rest => flat item :: flatItems rest

end

end Outline

end ActionSyntax
