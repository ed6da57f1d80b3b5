/-!
Paths as text. Both slashes separate; the results use `/` alone. A path may start with a root: one
slash, two slashes, or a drive letter with a colon and a slash.
-/

namespace ActionSyntax.Path

set_option autoImplicit false

/-- The extension of an included file that names none. -/
def sourceExtension : String := ".es"

def slashed (path : List Char) : List Char := path.map fun ch => if ch == '\\' then '/' else ch

def isDriveLetter (ch : Char) : Bool := ('a' ≤ ch && ch ≤ 'z') || ('A' ≤ ch && ch ≤ 'Z')

/-- The length of the root of a path whose separators are slashes. -/
def rootLength : List Char → Nat
  | '/' :: '/' :: _ => 2
  | '/' :: _ => 1
  | letter :: ':' :: '/' :: _ => if isDriveLetter letter then 3 else 0
  | _ => 0

/-- The pieces between slashes. -/
def segments : List Char → List (List Char)
  | [] => [[]]
  | '/' :: rest => [] :: segments rest
  | ch :: rest =>
    match segments rest with
    | [] => [[ch]]
    | first :: others => (ch :: first) :: others

/-- Adds a segment to those kept so far, the newest of them first. -/
def resolveSegment (rooted : Bool) (kept : List (List Char)) (segment : List Char) :
    List (List Char) :=
  if segment == [] || segment == ['.'] then kept
  else if segment == ['.', '.'] then
    match kept with
    | last :: older =>
      if last != ['.', '.'] then older else if rooted then kept else segment :: kept
    | [] => if rooted then kept else [segment]
  else segment :: kept

def joinSegments : List (List Char) → List Char
  | [] => []
  | [segment] => segment
  | segment :: rest => segment ++ '/' :: joinSegments rest

def normalizeChars (path : List Char) : List Char :=
  let path := slashed path
  let root := path.take (rootLength path)
  let kept := (segments (path.drop (rootLength path))).foldl (resolveSegment !root.isEmpty) []
  let result := root ++ joinSegments kept.reverse
  if result.isEmpty then ['.'] else result

/-- Every backslash as a slash. -/
def normalizeSlashes (path : String) : String := String.ofList (slashed path.toList)

/-- The path without empty, `.` and removable `..` segments. A relative path may keep leading `..`
segments, and an empty one becomes `.`. -/
def normalize (path : String) : String := String.ofList (normalizeChars path.toList)

def isRooted (path : String) : Bool := 0 < rootLength (slashed path.toList)

def endsWithSeparator (path : String) : Bool :=
  match path.toList.getLast? with
  | some ch => ch == '/' || ch == '\\'
  | none => false

def withTrailingSeparator (path : String) : String :=
  if endsWithSeparator path then path else path ++ "/"

/-- A path as seen from a base. A rooted path stands on its own. -/
def combine (base path : String) : String :=
  if isRooted path || base.isEmpty then path else withTrailingSeparator base ++ path

/-- Everything up to the last separator, and the separator. -/
def directory (path : String) : String :=
  String.ofList (((slashed path.toList).reverse.dropWhile (· != '/')).reverse)

/-- The file that an included source means, seen from the including file. -/
def resolveInclude (includingFile source : String) : String :=
  let resolved := normalize (combine (directory includingFile) source)
  if sourceExtension.toList.isSuffixOf resolved.toList then resolved
  else resolved ++ sourceExtension

/-- Spaces are escaped and backslashes turned. -/
def fileUrl (path : String) : String :=
  "file://" ++ String.ofList (path.toList.flatMap fun ch =>
    if ch == ' ' then ['%', '2', '0'] else if ch == '\\' then ['/'] else [ch])

end ActionSyntax.Path
