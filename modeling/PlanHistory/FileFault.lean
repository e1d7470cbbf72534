/-
Why a file cannot be read or written.
-/
import PlanHistory.Path

namespace PlanHistory

/-- Why a file cannot be read or written. -/
inductive FileFault where
  /-- There is nothing under a part of the path. -/
  | missing
  | denied
  | exists
  /-- A part of the path that must be a directory is a file. -/
  | notDirectory
  | isDirectory
  /-- The path, or a name in it, has too many bytes. -/
  | tooLong
  /-- The path holds a zero byte. -/
  | zeroByte
  /-- The bytes of a file are not text. -/
  | notText
  | other (reason : String)
deriving DecidableEq, Repr

namespace FileFault

/-- The fault as text. -/
def message : FileFault → String
  | .missing => "No such file or directory (os error 2)"
  | .denied => "Permission denied (os error 13)"
  | .exists => "File exists (os error 17)"
  | .notDirectory => "Not a directory (os error 20)"
  | .isDirectory => "Is a directory (os error 21)"
  | .tooLong => "File name too long (os error 36)"
  | .zeroByte => "file name contained an unexpected NUL byte"
  | .notText => "stream did not contain valid UTF-8"
  | .other reason => reason

/-- Whether a file that cannot be read for this reason is not there. -/
def isAbsence : FileFault → Bool
  | .missing => true
  | .notDirectory => true
  | .tooLong => true
  | .zeroByte => true
  | _ => false

/-- Why nothing can be at a path, whatever there is. -/
def ofPath? (path : String) : Option FileFault :=
  if path.toList.contains (Char.ofNat 0) then some .zeroByte
  else if Path.pathBound < path.utf8ByteSize then some .tooLong
  else none

end FileFault

end PlanHistory
