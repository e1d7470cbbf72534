/-
The program, on the machine it is started on.
-/
import PlanHistory.Console.Run
import PlanHistory.Instant
import PlanHistory.Uuid
import Std.Time.DateTime.Timestamp

namespace PlanHistory

/-- Why a file of the machine cannot be read or written.  Some actions give the number
of a fault negated. -/
def FileFault.ofError : IO.Error → FileFault
  | .noFileOrDirectory .. => .missing
  | .permissionDenied .. => .denied
  | .alreadyExists .. => .exists
  | .inappropriateType _ code _ =>
    if code == 20 || code == 0 - 20 then .notDirectory else .isDirectory
  | .invalidArgument _ code reason =>
    if code == 36 || code == 0 - 36 then .tooLong else .other reason
  | error => .other (toString error)

/-- What an action on the file at a path comes to. -/
def attemptAt {α : Type} (path : String) (action : IO α) : IO (Except FileFault α) := do
  match FileFault.ofPath? path with
  | some fault => return .error fault
  | none =>
    match ← action.toBaseIO with
    | .ok value => return .ok value
    | .error error => return .error (FileFault.ofError error)

/-- All that a stream holds. -/
def readToEnd (stream : IO.FS.Stream) : IO ByteArray := do
  let mut read := ByteArray.empty
  repeat
    let bytes ← stream.read 65536
    if bytes.isEmpty then break
    read := read ++ bytes
  return read

/-- The time by the clock of the machine. -/
def now : IO Timestamp := do
  let time ← Std.Time.Timestamp.now
  let seconds := time.toSecondsSinceUnixEpoch.val
  return (Instant.ofNanos (seconds * 1000000000 + time.val.nano.val)).recorded

/-- The machine that the program is started on. -/
def machine : Host IO where
  read path := attemptAt path (IO.FS.readBinFile path)
  write path bytes := attemptAt path (IO.FS.writeBinFile path bytes)
  makeDirectory path := attemptAt path (IO.FS.createDir path)
  directory := do return (← IO.currentDir).toString
  input := do readToEnd (← IO.getStdin)
  user? := IO.getEnv "USER"
  stamp := do
    let seed ← IO.getRandomBytes 32
    return ⟨← now, Uuid.ofSeed seed 0, fun n => Uuid.ofSeed seed (n + 1)⟩

end PlanHistory

/-- Carry out a command line. -/
def main (words : List String) : IO UInt32 := do
  let outcome ← PlanHistory.Outcome.ofWords PlanHistory.machine words
  (← IO.getStdout).putStr outcome.printed
  match outcome.complaint? with
  | some complaint => (← IO.getStderr).putStrLn complaint
  | none => pure ()
  return outcome.code.toUInt32
