/-
Directories and files in memory.

A tree is entered at its root; a path is walked from a directory of it, part by part,
and each part but the last must lead to a directory.  Reading, writing and making a
directory refuse what a file system refuses.
-/
import PlanHistory.FileFault

namespace PlanHistory

/-- A directory or a file. -/
inductive FileTree where
  | file (bytes : ByteArray)
  | directory (entries : List (String × FileTree))

namespace FileTree

/-- A directory with nothing in it. -/
def empty : FileTree := .directory []

/-- What is under names, one inside the other. -/
def get? : List String → FileTree → Option FileTree
  | [], tree => some tree
  | name :: names, .directory entries => (entries.lookup name).bind (get? names)
  | _ :: _, .file _ => none

/-- Put something under names, one inside the other; directories are made on the way. -/
def put : FileTree → List String → FileTree → FileTree
  | _, [], content => content
  | .directory entries, name :: names, content =>
    let inner := ((entries.lookup name).getD empty).put names content
    .directory ((name, inner) :: entries.filter fun entry => entry.1 != name)
  | .file bytes, _ :: _, _ => .file bytes

/-- Where parts of a path lead from a place, both as names from the innermost. -/
def walk (tree : FileTree) (place : List String) :
    List String → Except FileFault (List String)
  | [] => .ok place
  | part :: parts =>
    match tree.get? place.reverse with
    | none => .error .missing
    | some (.file _) => .error .notDirectory
    | some (.directory entries) =>
      if part == "." then walk tree place parts
      else if part == ".." then walk tree place.tail parts
      else if Path.nameBound < part.utf8ByteSize then .error .tooLong
      else if (entries.lookup part).isSome then walk tree (part :: place) parts
      else .error .missing

/-- Where a path starts, seen from a place. -/
def start (place : List String) (path : String) : List String :=
  if Path.isAbsolute path then [] else place

/-- The bytes of the file at a path. -/
def read (place : List String) (path : String) (tree : FileTree) :
    Except FileFault ByteArray :=
  if path.isEmpty then .error .missing
  else
    match FileFault.ofPath? path with
    | some fault => .error fault
    | none => do
      let place ← tree.walk (start place path) (Path.parts path)
      match tree.get? place.reverse with
      | some (.file bytes) =>
        if Path.endsInSlash path then .error .notDirectory else .ok bytes
      | some (.directory _) => .error .isDirectory
      | none => .error .missing

/-- The directory that holds what a path leads to, and the name under which it does. -/
def parent (place : List String) (path : String) (tree : FileTree) :
    Except FileFault (List String × List (String × FileTree) × String) :=
  match FileFault.ofPath? path, (Path.parts path).reverse with
  | some fault, _ => .error fault
  | none, [] => .error (if path.isEmpty then .missing else .exists)
  | none, name :: parts => do
    let place ← tree.walk (start place path) parts.reverse
    match tree.get? place.reverse with
    | some (.directory entries) =>
      if name == "." || name == ".." then .error .exists else .ok (place, entries, name)
    | some (.file _) => .error .notDirectory
    | none => .error .missing

/-- Write a file, new or over the old one. -/
def write (place : List String) (path : String) (bytes : ByteArray) (tree : FileTree) :
    Except FileFault FileTree :=
  match tree.parent place path with
  | .error .exists => .error .isDirectory
  | .error fault => .error fault
  | .ok (place, entries, name) =>
    if Path.endsInSlash path then .error .isDirectory
    else if Path.nameBound < name.utf8ByteSize then .error .tooLong
    else
      match entries.lookup name with
      | some (.directory _) => .error .isDirectory
      | _ => .ok (tree.put (name :: place).reverse (.file bytes))

/-- Make a directory where there is nothing yet. -/
def makeDirectory (place : List String) (path : String) (tree : FileTree) :
    Except FileFault FileTree :=
  match tree.parent place path with
  | .error fault => .error fault
  | .ok (place, entries, name) =>
    if Path.nameBound < name.utf8ByteSize then .error .tooLong
    else if (entries.lookup name).isSome then .error .exists
    else .ok (tree.put (name :: place).reverse empty)

end FileTree

end PlanHistory
