import ChipEight.FileSystem

/-!
A file system of which the whole content is known, as seen from a working directory. A path is
walked component by component: one that goes on below a file fails there, one that names nothing
fails there, and one that ends at a folder has no content. Paths and their components have a limited
length. Above the working directory there are folders, and nothing else is known of them.
-/

namespace ChipEight

/-- Why there is nothing to be read under a path. -/
inductive PathError where
  | missing
  | isFolder
  | notFolder
  | nameTooLong
  deriving DecidableEq, Repr

/-- The error of the system for a path. -/
def PathError.toFileError (path : String) : PathError → FileError
  | missing => .numbered 2 "No such file or directory" path
  | notFolder => .numbered 20 "Not a directory" path
  | isFolder => .numbered 21 "Is a directory" path
  | nameTooLong => .numbered 36 "File name too long" path

/-- A place as the components that lead to it. Components `..` stand only in front, and a place that
starts with `/` is counted from the outermost folder. -/
abbrev Place := List String

namespace Place

/-- The working directory. -/
def here : Place := []

/-- The outermost folder. -/
def outermost : Place := ["/"]

/-- One component further. -/
def enter (place : Place) (component : String) : Place :=
  if component = "" ∨ component = "." then place
  else if component = ".." then
    if place = outermost then place
    else if place.all (· == "..") then place ++ [".."]
    else place.dropLast
  else place ++ [component]

/-- The place holds the working directory, or is the outermost folder. -/
def isAbove (place : Place) : Bool := place.all (· == "..") || place == outermost

end Place

/-- The files and the folders that can be reached from a working directory, each under its place. -/
structure Directory where
  contents : List (Place × List Byte)
  folders : List Place
  deriving DecidableEq, Repr

namespace Directory

/-- The components of a path. -/
def components (path : String) : List String := (path.toList.splitOn '/').map String.ofList

/-- Where a path starts. -/
def origin (path : String) : Place :=
  if path.toList.head? = some '/' then Place.outermost else Place.here

/-- The place under a path, if all the folders on the way are there. -/
def place (path : String) : Place := (components path).foldl Place.enter (origin path)

/-- The places on the way from a place along components, both ends included. -/
def passed (place : Place) : List String → List Place
  | [] => [place]
  | c :: cs => place :: passed (place.enter c) cs

/-- A directory from the paths of its files and of folders; all folders on the way to them are there
too. A later file takes the place of an earlier one. -/
def ofPaths (files : List (String × List Byte)) (folders : List String) : Directory where
  contents := (files.map fun (path, content) => (place path, content)).reverse
  folders := (files.flatMap fun (path, _) => passed (origin path) (components path).dropLast) ++
    folders.flatMap fun path => passed (origin path) (components path)

/-- How many bytes a component may have. -/
def componentLimit : Nat := 255

/-- How many bytes a path may have. -/
def pathLimit : Nat := 4095

/-- A folder stands at a place. -/
def hasFolder (d : Directory) (place : Place) : Bool := place.isAbove || d.folders.contains place

/-- What is found on a path: a folder, or a file with its content. -/
inductive Entry where
  | folder (place : Place)
  | file (content : List Byte)
  deriving DecidableEq, Repr

/-- What stands at a place. -/
def entry (d : Directory) (place : Place) : Except PathError Entry :=
  match d.contents.lookup place with
  | some content => .ok (.file content)
  | none => if d.hasFolder place then .ok (.folder place) else .error .missing

/-- One component further. -/
def enter (d : Directory) (e : Entry) (component : String) : Except PathError Entry :=
  match e with
  | .file _ => .error .notFolder
  | .folder place =>
      if component.utf8ByteSize > componentLimit then .error .nameTooLong
      else d.entry (place.enter component)

/-- The content of the file under a path. -/
def read (d : Directory) (path : String) : Except PathError (List Byte) :=
  if path = "" then .error .missing
  else if path.utf8ByteSize > pathLimit then .error .nameTooLong
  else
    match (components path).foldlM d.enter (.folder (origin path)) with
    | .error e => .error e
    | .ok (.file content) => .ok content
    | .ok _ => .error .isFolder

/-- The files of a directory. -/
def files (d : Directory) : FileSystem := fun path =>
  (d.read path).mapError (PathError.toFileError path)

end Directory

end ChipEight
