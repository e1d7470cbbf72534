/-
An installation: settings, and a repository kept in files.

The tables are one file, each blob is a file of its own.  Opening an installation makes
what is not there yet; saving it writes what has changed.
-/
import PlanHistory.Console.TableFile
import PlanHistory.Repository.Operation

namespace PlanHistory

/-- A repository and where it is kept. -/
structure Installation where
  settings : Settings
  tableFile : TableFile
  repository : Repository

namespace Installation

variable {m : Type → Type} [Monad m]

/-- The settings in a file; the standard ones if there is no file. -/
def loadSettings (host : Host m) (path : String) : ExceptT Trouble m Settings := do
  match ← host.read path with
  | .error fault =>
    if fault.isAbsence then return Settings.standard
    else throw (.settingsUnreadable path fault)
  | .ok bytes =>
    match String.fromUTF8? bytes with
    | none => throw (.settingsUnreadable path .notText)
    | some text =>
      match (Toml.parse? text).bind Settings.ofToml? with
      | none => throw (.settingsMalformed path)
      | some settings =>
        match settings.check with
        | .error defect => throw (.settingsUnacceptable path defect)
        | .ok () => return settings

/-- The path of a blob. -/
def blobPath (settings : Settings) (id : String) : String :=
  Path.join settings.blobPath (Blobs.fileName id)

/-- The blobs of versions, as far as they are there. -/
def readBlobs (host : Host m) (settings : Settings) :
    List String → ExceptT Trouble m Blobs
  | [] => return []
  | id :: ids => do
    let blobs ← readBlobs host settings ids
    if !Blobs.isSafeId id then return blobs
    match ← host.read (blobPath settings id) with
    | .ok bytes => return Keyed.insert id bytes blobs
    | .error .missing => return blobs
    | .error fault => throw (.store (.blobs (blobPath settings id) fault))

/-- Make the directory of the blobs. -/
def ensureBlobs (host : Host m) (settings : Settings) (tableFile : TableFile) :
    ExceptT Trouble m Unit := do
  let path := settings.blobPath
  match tableFile.obstacle? path with
  | some fault => throw (.store (.blobs path fault))
  | none =>
    match ← host.ensureDirectories path with
    | .error fault => throw (.store (.blobs path fault))
    | .ok () => return ()

/-- Open an installation. -/
def load (host : Host m) (settings : Settings) : ExceptT Trouble m Installation := do
  match ← host.ensureDirectories settings.dataDirectory with
  | .error fault => throw (.store (.dataDirectory fault))
  | .ok () =>
    let (tableFile, tables) ← TableFile.openAt host settings.tablePath
    ensureBlobs host settings tableFile
    let blobs ← readBlobs host settings (tables.versions.rows.map fun row => row.id)
    return ⟨settings, tableFile, ⟨settings.policy, ⟨tables, blobs⟩⟩⟩

/-- Read the blob of an id that is asked for, whether or not there is a version of it. -/
def fetch (host : Host m) (attempt id : String) (installation : Installation) :
    ExceptT Trouble m Installation := do
  let settings := installation.settings
  let store := installation.repository.store
  if !Blobs.isSafeId id then return installation
  match ← host.read (blobPath settings id) with
  | .ok bytes =>
    let store := { store with blobs := Keyed.insert id bytes store.blobs }
    return { installation with repository := { installation.repository with store } }
  | .error .missing => return installation
  | .error fault =>
    throw (.failed (some attempt) settings.blobPath (.storage (.blob id (.file fault))))

/-- Write the blobs that were not there before. -/
def saveBlobs (host : Host m) (settings : Settings) (before : Blobs) :
    Blobs → ExceptT Trouble m Unit
  | [] => return ()
  | (id, bytes) :: blobs => do
    if (Keyed.get? id before).isNone then
      match ← host.write (blobPath settings id) bytes with
      | .ok () => pure ()
      | .error fault => throw (.store (.blobs (blobPath settings id) fault))
    saveBlobs host settings before blobs

/-- Save an installation whose store was `before`. -/
def save (host : Host m) (before : Store) (installation : Installation) :
    ExceptT Trouble m Unit := do
  let store := installation.repository.store
  saveBlobs host installation.settings before.blobs store.blobs
  installation.tableFile.save host before.tables store.tables

/-- Perform an operation, attempted for a reason, and save the installation after it,
whether it succeeds or not.  One that changes tables that may only be read fails and
leaves everything as it was. -/
def perform (host : Host m) (attempt? : Option String) (operation : Operation)
    (installation : Installation) : ExceptT Trouble m (Answer × Installation) := do
  let failed (failure : Failure) : Trouble :=
    .failed attempt? installation.settings.blobPath failure
  let stamp ← host.stamp
  let repository := installation.repository
  let (result, after) := repository.perform stamp operation
  let isRefused :=
    installation.tableFile.refuses repository.store.tables after.store.tables
  let next : Installation := { installation with repository := after }
  if !isRefused then next.save host repository.store
  match result with
  | .ok answer => if isRefused then throw (failed (.ofTable .readOnly)) else return (answer, next)
  | .error failure => throw (failed failure)

end Installation

end PlanHistory
