/-
The machine that the program runs on.
-/
import PlanHistory.FileFault
import PlanHistory.Repository.Store

namespace PlanHistory

/-- What the program needs of the machine it runs on. -/
structure Host (m : Type → Type) where
  read : String → m (Except FileFault ByteArray)
  write : String → ByteArray → m (Except FileFault Unit)
  makeDirectory : String → m (Except FileFault Unit)
  /-- The path of the working directory, from the root. -/
  directory : m String
  /-- What is given to the program to read. -/
  input : m ByteArray
  /-- Who is using the machine, if it says so. -/
  user? : m (Option String)
  /-- The time, and ids that were never given out. -/
  stamp : m Stamp

namespace Host

variable {m : Type → Type} [Monad m]

/-- Whether there is something at a path. -/
def isThere (host : Host m) (path : String) : m Bool := do
  match ← host.read path with
  | .error fault => return !fault.isAbsence
  | .ok _ => return true

/-- Whether there is a directory at a path. -/
def isDirectory (host : Host m) (path : String) : m Bool := do
  match ← host.read path with
  | .error .isDirectory => return true
  | _ => return false

/-- Make a directory if there is none. -/
def ensureDirectory (host : Host m) (path : String) : m (Except FileFault Unit) := do
  match ← host.makeDirectory path with
  | .ok () => return .ok ()
  | .error fault => if ← host.isDirectory path then return .ok () else return .error fault

/-- Make the directories that steps lead to, the last step first. -/
def ensureSteps (host : Host m) (absolute : Bool) :
    List String → m (Except FileFault Unit)
  | [] => return .ok ()
  | step :: outer => do
    let path := Path.ofSteps absolute (step :: outer).reverse
    match ← host.ensureDirectory path with
    | .error .missing =>
      match ← host.ensureSteps absolute outer with
      | .error fault => return .error fault
      | .ok () => host.ensureDirectory path
    | result => return result

/-- Make a directory and those that it is in, as far as there are none. -/
def ensureDirectories (host : Host m) (path : String) : m (Except FileFault Unit) := do
  match ← host.ensureDirectory path with
  | .error .missing =>
    match ← host.ensureSteps (Path.isAbsolute path) (Path.steps path).reverse.tail with
    | .error fault => return .error fault
    | .ok () => host.ensureDirectory path
  | result => return result

end Host

end PlanHistory
