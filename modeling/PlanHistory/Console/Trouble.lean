/-
Why a command fails.

A trouble is told as its causes, from what was attempted to what is at the bottom of
it.
-/
import PlanHistory.Console.TableAddress
import PlanHistory.Failure
import PlanHistory.FileFault
import PlanHistory.Settings

namespace PlanHistory

/-- Why the store of an installation cannot be opened or saved. -/
inductive StoreTrouble where
  /-- The data directory cannot be made. -/
  | dataDirectory (fault : FileFault)
  /-- The path of the table file holds a zero byte at a position. -/
  | zeroByte (position : Nat)
  /-- The address of the table file leads nowhere. -/
  | tableAddress (defect : TableAddress.Defect)
  /-- The file of the tables, or one that would stand beside it, cannot be read or
  written. -/
  | tableFile (path? : Option String)
  /-- There are no tables yet, and none may be written. -/
  | readOnly
  /-- The tables cannot be made, since nothing may be written. -/
  | unmade
  /-- There is a directory where a journal of the tables is looked for. -/
  | journalUnreadable
  /-- There is a directory where an old log of the tables is to be deleted. -/
  | logUndeletable
  /-- The file of the tables holds something else. -/
  | noTables
  /-- The blobs, or one of them, cannot be read or written. -/
  | blobs (path : String) (fault : FileFault)
deriving DecidableEq, Repr

/-- Why a command fails. -/
inductive Trouble where
  | settingsUnreadable (path : String) (fault : FileFault)
  | settingsMalformed (path : String)
  | settingsUnacceptable (path : String) (defect : Settings.Defect)
  | store (trouble : StoreTrouble)
  /-- There is a file where the standard settings are to be written. -/
  | settingsExist (path : String)
  | settingsUnwritable (fault : FileFault)
  | inputUnreadable
  | documentUnreadable (path : String) (fault : FileFault)
  | documentMalformed
  /-- An operation fails that was attempted for a reason; `blobRoot` is where its blobs
  are. -/
  | failed (attempt? : Option String) (blobRoot : String) (failure : Failure)
  | contentAltered (version : String)
deriving DecidableEq

namespace StoreTrouble

/-- The causes at a fault of the tables that has a number. -/
def numbered (reason : String) (number : Nat) (kind : String) : List String :=
  [s!"database error: {reason}", reason, s!"Error code {number}: {kind}"]

/-- The causes, each the reason for the one before. -/
def causes : StoreTrouble → List String
  | .dataDirectory fault => [s!"database I/O error: {fault.message}", fault.message]
  | .zeroByte position =>
    let reason := s!"nul byte found in provided data at position: {position}"
    [s!"database error: {reason}", reason, reason]
  | .tableAddress (.widerAccess mode) =>
    numbered (TableAddress.Defect.widerAccess mode).message 3 "Access permission denied"
  | .tableAddress defect => numbered defect.message 1 "SQL logic error"
  | .tableFile path? =>
    let reason := ": ".intercalate ("unable to open database file" :: path?.toList)
    numbered reason 14 "Unable to open the database file"
  | .readOnly =>
    numbered TableFault.readOnly.message 8 "Attempt to write a readonly database"
  | .unmade =>
    let reason := TableFault.readOnly.message
    [s!"database migration failed (version 1): {reason}"]
  | .journalUnreadable => numbered "disk I/O error" 266 "Error reading from disk"
  | .logUndeletable =>
    numbered "disk I/O error" 2570 "I/O error within xDelete of a VFS object"
  | .noTables => numbered "file is not a database" 26 "File opened that is not a database file"
  | .blobs path fault => [s!"blob I/O error at '{path}': {fault.message}", fault.message]

end StoreTrouble

/-- The causes of a failure, each the reason for the one before. -/
def Failure.causes (blobRoot : String) (failure : Failure) : List String :=
  match failure with
  | .storage (.table .readOnly) => StoreTrouble.readOnly.causes
  | .storage (.table fault) => [failure.message blobRoot, fault.message]
  | .storage (.blob _ fault) => [failure.message blobRoot, fault.message]
  | _ => [failure.message blobRoot]

namespace Trouble

/-- The causes, each the reason for the one before. -/
def causes : Trouble → List String
  | .settingsUnreadable path fault =>
    [s!"failed to load configuration file {path}",
     s!"configuration I/O error: {fault.message}", fault.message]
  | .settingsMalformed path =>
    [s!"failed to load configuration file {path}", "configuration parse error"]
  | .settingsUnacceptable path defect =>
    [s!"failed to load configuration file {path}", defect.message]
  | .store trouble => "failed to open version store" :: trouble.causes
  | .settingsExist path =>
    [s!"file already exists: {path}. Use a different path or remove the existing file."]
  | .settingsUnwritable fault => ["failed to write config file", fault.message]
  | .inputUnreadable => ["failed to read document from stdin", FileFault.notText.message]
  | .documentUnreadable path fault => [s!"failed to read {path}", fault.message]
  | .documentMalformed => ["document is not valid JSON"]
  | .failed attempt? blobRoot failure => attempt?.toList ++ failure.causes blobRoot
  | .contentAltered version =>
    [s!"content of version {version} does not match its recorded hash"]

/-- The trouble as text. -/
def message (trouble : Trouble) : String :=
  ": ".intercalate trouble.causes

end Trouble

end PlanHistory
