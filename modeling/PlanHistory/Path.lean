/-
Paths of files, as text with slashes.

A path is kept as it is written.  Its parts are what the slashes separate, and parts
that lead nowhere — empty ones, and a single dot but at the very start — do not count
when two paths are compared.  `Path.normal` also follows two dots, on the text alone.
-/
namespace PlanHistory

namespace Path

/-- What the slashes of a text separate, empty parts included. -/
def split : List Char → List (List Char)
  | [] => [[]]
  | c :: rest =>
    match split rest with
    | [] => [[c]]
    | part :: parts => if c == '/' then [] :: part :: parts else (c :: part) :: parts

/-- Whether a path starts at the root. -/
def isAbsolute (path : String) : Bool :=
  path.toList.head? == some '/'

/-- Whether a path ends in a slash. -/
def endsInSlash (path : String) : Bool :=
  path.toList.getLast? == some '/'

/-- The parts of a path that are not empty. -/
def parts (path : String) : List String :=
  ((split path.toList).filter fun part => !part.isEmpty).map String.ofList

/-- The parts of a path that lead somewhere, and a dot that starts it. -/
def steps (path : String) : List String :=
  match parts path with
  | [] => []
  | first :: rest =>
    let rest := rest.filter (· != ".")
    if first == "." && isAbsolute path then rest else first :: rest

/-- Whether two paths differ at most in parts that lead nowhere. -/
def same (p q : String) : Bool :=
  isAbsolute p == isAbsolute q && steps p == steps q

/-- The path of steps, from the root or from the working directory. -/
def ofSteps (absolute : Bool) (steps : List String) : String :=
  (if absolute then "/" else "") ++ "/".intercalate steps

/-- A path seen from a directory.  A path from the root stays as it is. -/
def join (directory path : String) : String :=
  if isAbsolute path || directory.isEmpty then path
  else if endsInSlash directory then directory ++ path
  else directory ++ "/" ++ path

/-- The names that lead to where a part leads from a place, innermost first.  Two dots
leave the innermost name, and from the root they lead nowhere. -/
def follow (absolute : Bool) (place : List String) (part : String) : List String :=
  match part, place with
  | ".", _ => place
  | "..", [] => if absolute then [] else [".."]
  | "..", ".." :: _ => ".." :: place
  | "..", _ :: outer => outer
  | name, _ => name :: place

/-- The places that parts pass from a place, in turn. -/
def passed (absolute : Bool) (place : List String) : List String → List (List String)
  | [] => []
  | part :: parts =>
    let next := follow absolute place part
    next :: passed absolute next parts

/-- The paths of the places that a path passes, dots followed on the text. -/
def stops (path : String) : List String :=
  let absolute := isAbsolute path
  (passed absolute [] (parts path)).map fun place => ofSteps absolute place.reverse

/-- The path without parts that lead nowhere or back. -/
def normal (path : String) : String :=
  let absolute := isAbsolute path
  ofSteps absolute ((parts path).foldl (follow absolute) []).reverse

/-- How many bytes a name of a file may have. -/
def nameBound : Nat := 255

/-- How many bytes a path may have. -/
def pathBound : Nat := 4095

end Path

end PlanHistory
