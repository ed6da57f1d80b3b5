import ActionSyntax.Grammar.Levels

/-!
The files of a directory, and what a path means among them. A path is followed name by name: every
name before the last one has to be a directory, and a path that leaves the directory finds nothing.
-/

namespace ActionSyntax

set_option autoImplicit false

/-- Files by the names on the way to them. -/
structure FileSet where
  files : List (List (List Char) × ByteArray)

namespace FileSet

/-- A segment that stays where it is. -/
def isHere (segment : List Char) : Bool := segment == [] || segment == ['.']

def isParent (segment : List Char) : Bool := segment == ['.', '.']

def ofList (files : List (String × ByteArray)) : FileSet where
  files := files.map fun (path, bytes) =>
    ((Path.segments path.toList).filter (!isHere ·), bytes)

def isDirectory (fs : FileSet) (names : List (List Char)) : Bool :=
  fs.files.any fun (file, _) => names.isPrefixOf file && names.length < file.length

/-- The names of a file, from the directory reached so far, whose names come newest first. -/
def follow (fs : FileSet) : List (List Char) → List (List Char) → Option (List (List Char))
  | _, [] => none
  | reached, [name] =>
    if isHere name || isParent name then none else some (name :: reached).reverse
  | reached, name :: rest =>
    if isHere name then follow fs reached rest
    else if isParent name then
      match reached with
      | [] => none
      | _ :: outer => follow fs outer rest
    else if fs.isDirectory (name :: reached).reverse then follow fs (name :: reached) rest
    else none

def bytes? (fs : FileSet) (path : String) : Option ByteArray :=
  let segments := Path.segments path.toList
  if segments.head? == some [] then none
  else (fs.follow [] segments).bind fun names => fs.files.lookup names

/-- The text of a file, if the file is there and holds text. -/
def text? (fs : FileSet) (path : String) : Option String := (fs.bytes? path).bind String.fromUTF8?

/-- The files as something to include from. As many of them can include each other without a
cycle. -/
def host (fs : FileSet) : Host where
  readFile := fs.text?
  includeDepth := fs.files.length + 1

end FileSet

end ActionSyntax
