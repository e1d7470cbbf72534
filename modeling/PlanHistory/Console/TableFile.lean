/-
The file that the tables are kept in.

A path of a table file is cleared of dots on the text before it is followed, but no part
of it may lead through a file.  The file is found by its whole path from the root, which
must leave room for the names of the files that stand beside it while it is open: a
journal, a log and an index of the log.  Where one of them would be, there must be no
directory.
-/
import PlanHistory.Console.Host
import PlanHistory.Console.Trouble
import PlanHistory.Store.Image

namespace PlanHistory

/-- The file that the tables are kept in. -/
inductive TableFile where
  | file (path : String) (writable : Bool)
  /-- The tables are kept in no file. -/
  | nowhere
deriving DecidableEq, Repr

namespace TableFile

/-- The greatest length of the whole path of a table file. -/
def wholeBound : Nat := 504

/-- The greatest length of the whole path of a place on the way to a table file. -/
def stopBound : Nat := 511

/-- What the name of the journal ends in, the longest name beside a table file. -/
def journalEnding : String := "-journal"

/-- What the name of the log ends in. -/
def logEnding : String := "-wal"

/-- What the name of the index of the log ends in. -/
def indexEnding : String := "-shm"

/-- Whether two sets of tables differ. -/
def differ (a b : Tables) : Bool :=
  a.image.toList != b.image.toList

/-- Whether a change of the tables is refused because they may only be read. -/
def refuses (before after : Tables) : TableFile → Bool
  | .file _ false => differ before after
  | _ => false

/-- Why a directory cannot be made where a file stands beside an open table file. -/
def obstacle? (directory : String) : TableFile → Option FileFault
  | .nowhere => none
  | .file path _ =>
    let beside := [path ++ logEnding, path ++ indexEnding]
    let stops := Path.stops directory
    if stops.dropLast.any beside.contains then some .notDirectory
    else if stops.any beside.contains then some .exists
    else none

variable {m : Type → Type} [Monad m]

/-- Whether the way to a table file may pass places, `above` being how far the root is
from where their paths start. -/
def arePassable (host : Host m) (above : Nat) : List String → m Bool
  | [] => return true
  | stop :: stops => do
    if stopBound < above + stop.utf8ByteSize then return false
    match ← host.read stop with
    | .ok _ => arePassable host above stops
    | .error .missing => arePassable host above stops
    | .error .isDirectory => arePassable host above stops
    | .error _ => return false

/-- The file that a path leads to, dots followed on the text; `none` if no table file can
be there. -/
def locate? (host : Host m) (path : String) : m (Option String) := do
  let directory ← host.directory
  let above := if Path.isAbsolute path then 0 else directory.utf8ByteSize + 1
  let file := Path.normal path
  if wholeBound < above + file.utf8ByteSize then return none
  if ← arePassable host above (Path.stops path) then return some file
  return none

/-- Why tables cannot be made in a file that holds nothing yet. -/
def startTrouble? (host : Host m) (place : String) (address : TableAddress) :
    m (Option StoreTrouble) := do
  let name := (Path.parts place).getLast?.getD ""
  if address.immutable then return some .unmade
  if address.access = .read then return some .readOnly
  if Path.nameBound < name.utf8ByteSize + journalEnding.utf8ByteSize then
    return some (.tableFile none)
  if ← host.isDirectory (place ++ journalEnding) then return some (.tableFile none)
  if ← host.isDirectory (place ++ logEnding) then return some .logUndeletable
  if ← host.isDirectory (place ++ indexEnding) then return some .unmade
  return none

/-- Make tables without rows in a file that holds nothing yet. -/
def start (host : Host m) (place : String) (address : TableAddress) :
    ExceptT Trouble m (TableFile × Tables) := do
  let trouble? ← (startTrouble? host place address : m (Option StoreTrouble))
  match trouble? with
  | some trouble => throw (.store trouble)
  | none =>
    match ← host.write place Tables.empty.image with
    | .error _ => throw (.store (.tableFile none))
    | .ok () => return (.file place true, Tables.empty)

/-- Open a file that holds something. -/
def resume (host : Host m) (place : String) (address : TableAddress) (bytes : ByteArray) :
    ExceptT Trouble m (TableFile × Tables) := do
  if !address.immutable then
    if ← host.isDirectory (place ++ journalEnding) then throw (.store .journalUnreadable)
    if ← host.isDirectory (place ++ logEnding) then throw (.store (.tableFile none))
  match Tables.ofImage? bytes with
  | none => throw (.store .noTables)
  | some tables =>
    let hasIndex := !(← host.isDirectory (place ++ indexEnding))
    let isWritable := decide (address.access ≠ .read) && !address.immutable && hasIndex
    return (.file place isWritable, tables)

/-- Open the table file at a path.  A file of one byte counts as one without any. -/
def openAt (host : Host m) (path : String) : ExceptT Trouble m (TableFile × Tables) := do
  let beforeZero := path.toList.takeWhile (· != Char.ofNat 0)
  if beforeZero != path.toList then
    throw (.store (.zeroByte (String.ofList beforeZero).utf8ByteSize))
  match TableAddress.ofPath path with
  | .error defect => throw (.store (.tableAddress defect))
  | .ok address =>
    if address.access = .memory then return (.nowhere, Tables.empty)
    let unreachable : Trouble := .store (.tableFile (some path))
    let place? ← (locate? host address.path : m (Option String))
    match place? with
    | none => throw unreachable
    | some place =>
      match ← host.read place with
      | .ok bytes =>
        if bytes.size ≤ 1 then start host place address
        else resume host place address bytes
      | .error .missing =>
        if address.access ≠ .create then throw unreachable
        match ← host.write place ByteArray.empty with
        | .error _ => throw unreachable
        | .ok () => start host place address
      | .error _ => throw unreachable

/-- Write tables that have changed to their file. -/
def save (host : Host m) (before after : Tables) : TableFile → ExceptT Trouble m Unit
  | .nowhere => return ()
  | .file path _ => do
    if differ before after then
      match ← host.write path after.image with
      | .ok () => return ()
      | .error _ => throw (.store (.tableFile (some path)))

end TableFile

end PlanHistory
