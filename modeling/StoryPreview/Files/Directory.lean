import StoryPreview.Files.Path
/-!
A directory of files, and what reading a path in it gives.
-/
namespace StoryPreview

/-- Why a file could not be read as text. -/
inductive FileError
  | notFound
  | notADirectory
  | isADirectory
  | nameTooLong
  | nulInName
  | notUtf8
  /-- Any other reason, in the words of the system. -/
  | other (reason : String)
  deriving DecidableEq

def FileError.message : FileError → String
  | .notFound => "No such file or directory (os error 2)"
  | .notADirectory => "Not a directory (os error 20)"
  | .isADirectory => "Is a directory (os error 21)"
  | .nameTooLong => "File name too long (os error 36)"
  | .nulInName => "file name contained an unexpected NUL byte"
  | .notUtf8 => "stream did not contain valid UTF-8"
  | .other reason => reason

/-- The files below the current directory: the names that lead to each, and its text, which is none
when its bytes are not UTF-8. A directory is there as far as a file is below it. -/
structure Directory where
  files : List (List String × Option String)

namespace Directory

def empty : Directory := ⟨[]⟩

/-- The names that a relative path goes through. -/
def namesOf (path : String) : List String :=
  ((Path.pieces path.toList).filterMap Path.component?).map fun
    | .name s => String.ofList s
    | _ => ".."

def write (d : Directory) (path : String) (text : Option String) : Directory :=
  let names := namesOf path
  ⟨(names, text) :: d.files.filter (fun f => f.1 ≠ names)⟩

def remove (d : Directory) (path : String) : Directory :=
  ⟨d.files.filter (fun f => f.1 ≠ namesOf path)⟩

def ofFiles (files : List (String × Option String)) : Directory :=
  files.foldl (fun d f => d.write f.1 f.2) empty

/-- What stands at a sequence of names. -/
inductive Entry
  | file (text : Option String)
  | directory

def entry? (d : Directory) (names : List String) : Option Entry :=
  match d.files.lookup names with
  | some text => some (.file text)
  | none => if d.files.any (fun f => names.isPrefixOf f.1) then some .directory else none

/-- What stands outside the current directory, seen from the root: the directories that every
system has, and the empty file `/dev/null`. Nothing else is known there. -/
def systemEntry? : List String → Option Entry
  | [] => some .directory
  | [name] =>
    if ["bin", "boot", "dev", "etc", "home", "lib", "media", "mnt", "opt", "proc", "root", "run",
        "sbin", "srv", "sys", "tmp", "usr", "var"].contains name then some .directory
    else none
  | ["dev", "null"] => some (.file (some ""))
  | _ => none

/-- Where the way to a place starts. -/
inductive Origin
  | root
  /-- That many levels above the current directory. -/
  | above (levels : Nat)

/-- A place in the file system: the names that lead down to it from its origin. -/
structure Place where
  origin : Origin
  names : List String

/-- One level up; the root is its own parent. -/
def Place.parent : Place → Place
  | ⟨.root, []⟩ => ⟨.root, []⟩
  | ⟨.above levels, []⟩ => ⟨.above (levels + 1), []⟩
  | ⟨origin, names⟩ => ⟨origin, names.dropLast⟩

/-- What stands at a place. Above the current directory nothing but the directories themselves is
known. -/
def entryAt? (d : Directory) : Place → Option Entry
  | ⟨.root, names⟩ => systemEntry? names
  | ⟨.above 0, names⟩ => d.entry? names
  | ⟨.above _, _⟩ => none

/-- The most bytes that a name can have. -/
def maxNameSize : Nat := 255

/-- The most bytes that a path can have. -/
def maxPathSize : Nat := 4095

/-- Follows the pieces of a path from a directory on. -/
def follow (d : Directory) (place : Place) : List (List Char) → Except FileError String
  | [] => .error .isADirectory
  | piece :: rest =>
    match Path.component? piece with
    | some (.name s) =>
      let name := String.ofList s
      let next : Place := ⟨place.origin, place.names ++ [name]⟩
      if maxNameSize < name.utf8ByteSize then .error .nameTooLong
      else match d.entryAt? next with
        | some .directory => follow d next rest
        | some (.file text) =>
          if rest ≠ [] then .error .notADirectory
          else match text with
            | some text => .ok text
            | none => .error .notUtf8
        | none => .error .notFound
    | some .parent => follow d place.parent rest
    | _ => follow d place rest

/-- Reads the file at a path as text. The size of the path is looked at before the way it goes. -/
def read (d : Directory) (path : String) : Except FileError String :=
  let cs := path.toList
  if cs = [] then .error .notFound
  else if cs.any (fun c => c.toNat = 0) then .error .nulInName
  else if maxPathSize < path.utf8ByteSize then .error .nameTooLong
  else follow d ⟨if Path.isAbsolute cs then .root else .above 0, []⟩ (Path.pieces cs)

end Directory

end StoryPreview
