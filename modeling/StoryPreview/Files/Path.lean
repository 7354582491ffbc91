/-!
Paths of the file system: text in which slashes part components. Only the text is looked at.

A component is a name, `..`, or a `.` at the very start of a relative path; empty components and any
other `.` count for nothing.
-/
namespace StoryPreview.Path

inductive Component
  | root
  | current
  | parent
  | name (s : List Char)
  deriving DecidableEq

/-- The pieces between slashes. -/
def pieces (cs : List Char) : List (List Char) :=
  cs.foldr
    (fun c ps =>
      if c = '/' then [] :: ps
      else match ps with
        | [] => [[c]]
        | p :: ps => (c :: p) :: ps)
    [[]]

def isAbsolute : List Char → Bool
  | '/' :: _ => true
  | _ => false

/-- The component a piece is when it does not start a path. -/
def component? (piece : List Char) : Option Component :=
  if piece = [] || piece = ['.'] then none
  else if piece = ['.', '.'] then some .parent
  else some (.name piece)

def components (path : List Char) : List Component :=
  let ps := pieces path
  let first : List Component :=
    if isAbsolute path then [.root] else if ps.head? = some ['.'] then [.current] else []
  first ++ ps.filterMap component?

/-- A piece that counts for nothing at the end of a path. -/
def isIdle (piece : List Char) : Bool := piece = [] || piece = ['.']

/-- The pieces joined by slashes. -/
def join : List (List Char) → List Char
  | [] => []
  | [p] => p
  | p :: ps => p ++ '/' :: join ps

/-- The path without the idle pieces it ends with; none if nothing but those is there. -/
def significant (path : List Char) : Option (List (List Char)) :=
  match (pieces path).reverse.dropWhile isIdle with
  | [] => none
  | ps => some ps.reverse

/-- The last component, if it is a name. -/
def fileName (path : List Char) : Option (List Char) :=
  match (significant path).bind List.getLast? with
  | some p => if p = ['.', '.'] then none else some p
  | none => none

/-- A file name cut at its last point, unless that is its first character. -/
def splitName (name : List Char) : List Char × Option (List Char) :=
  let behind := name.reverse.takeWhile (· ≠ '.')
  match name.reverse.dropWhile (· ≠ '.') with
  | '.' :: c :: before => ((c :: before).reverse, some behind.reverse)
  | _ => (name, none)

/-- What the file name has behind its last point. -/
def extension (path : List Char) : Option (List Char) :=
  (fileName path).bind fun n => (splitName n).2

/-- The path with the extension of its file name replaced, or added if it has none. A path without
a file name stays as it is. -/
def withExtension (path ext : List Char) : List Char :=
  match fileName path, significant path with
  | some name, some ps => join (ps.dropLast ++ [(splitName name).1 ++ '.' :: ext])
  | _, _ => path

/-- The path `name` seen from the directory `root`; an absolute `name` stands for itself. -/
def push (root name : List Char) : List Char :=
  if isAbsolute name || root = [] then name
  else if root.getLast? = some '/' then root ++ name
  else root ++ '/' :: name

/-- The path without its last component; none for a root and the empty path. What is idle before
that component goes too, but for the root or the `.` that starts the path. -/
def parent (path : List Char) : Option (List Char) :=
  match significant path with
  | none => if path.head? = some '.' then some [] else none
  | some ps =>
    match ps.dropLast.reverse.dropWhile isIdle with
    | [] =>
      some (if isAbsolute path then ['/']
        else if path.head? = some '.' && ps.head? = some ['.'] then ['.']
        else [])
    | qs => some (join qs.reverse)

/-- The file an include name stands for: the name below the root, with `.md` added if it has no
extension. -/
def ofInclude (root name : String) : String :=
  let path := push root.toList name.toList
  String.ofList <|
    if (extension name.toList).isSome then path else withExtension path ['m', 'd']

/-- The directory that include names of a script are looked up in. -/
def includeRoot (script : String) : String :=
  match parent script.toList with
  | some p => String.ofList p
  | none => "."

end StoryPreview.Path
