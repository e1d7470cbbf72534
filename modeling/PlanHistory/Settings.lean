/-
The settings of an installation: where it keeps its data, how much it logs and the
policy its repository is opened under.

Settings are read from TOML.  Every section and every field may be left out, and a
section may be an array that gives its fields by place.

* **`Settings.ofToml?`** — the settings of a document, if its fields have values of
  their kinds;
* **`Settings.check`** — the first field whose value is not acceptable, if any.
-/
import PlanHistory.Number.Unsigned
import PlanHistory.Path
import PlanHistory.Repository.Policy
import PlanHistory.Text.Blank
import PlanHistory.Toml.Parser

namespace PlanHistory

/-- The settings of an installation. -/
structure Settings where
  /-- The directory of everything that is kept. -/
  dataDirectory : String
  /-- The file of the tables, seen from the data directory. -/
  tableFile : String
  /-- The directory of the blobs, seen from the data directory. -/
  blobDirectory : String
  /-- The least severity that is logged. -/
  level : String
  policy : Policy
deriving DecidableEq, Repr

namespace Settings

/-- The settings of an installation that is not told otherwise. -/
def standard : Settings :=
  { dataDirectory := "./data"
    tableFile := "floorvc.db"
    blobDirectory := "versions"
    level := "info"
    policy := Policy.standard }

/-- The lines of the standard settings, as text to start from. -/
def standardLines : List String :=
  ["# floorvc configuration",
   "",
   "[storage]",
   "# Directory holding the database and the version blob area.",
   "data_dir = \"./data\"",
   "database_file = \"floorvc.db\"",
   "blob_dir = \"versions\"",
   "",
   "[logging]",
   "# trace, debug, info, warn or error.",
   "level = \"info\"",
   "",
   "[merge]",
   "# \"two_way\" compares branch heads directly; \"three_way\" diffs each head",
   "# against their common ancestor and only reports true divergences.",
   "detection = \"two_way\"",
   "# \"materialize\" builds a merged document from the conflict resolutions;",
   "# \"fast_forward\" moves the target head to the source head.",
   "strategy = \"materialize\"",
   "",
   "[annotations]",
   "search_limit = 200"]

/-- The standard settings, as text to start from. -/
def standardText : String :=
  String.join (standardLines.map (· ++ "\n"))

/-- The file of the tables. -/
def tablePath (settings : Settings) : String :=
  Path.join settings.dataDirectory settings.tableFile

/-- The directory of the blobs. -/
def blobPath (settings : Settings) : String :=
  Path.join settings.dataDirectory settings.blobDirectory

/-- Whether settings are the standard ones, the data directory taken as a path. -/
def isStandard (settings : Settings) : Bool :=
  Path.same settings.dataDirectory standard.dataDirectory
    && { settings with dataDirectory := standard.dataDirectory } == standard

/-! ### Reading -/

/-- The fields of a section by name and place.  A time stands for a section without
fields. -/
def section? : Option Toml → Option (String → Nat → Option Toml)
  | none => some fun _ _ => none
  | some (.table _ entries) => some fun name _ => entries.lookup name
  | some (.array items) => some fun _ place => items[place]?
  | some (.tables earlier last) =>
    some fun _ place => (earlier ++ [.table .header last])[place]?
  | some (.time _) => some fun _ _ => none
  | some _ => none

/-- A value, or the standard one if the field is left out. -/
def field? {α : Type} (read : Toml → Option α) (standard : α) : Option Toml → Option α
  | none => some standard
  | some value => read value

/-- A value that is text. -/
def text? : Toml → Option String
  | .text text => some text
  | _ => none

/-- A value that is a natural number. -/
def natural? : Toml → Option Nat
  | .integer (.ofNat n) => some n
  | _ => none

/-- Whether a value holds nothing. -/
def isHollow : Toml → Bool
  | .array items => items.isEmpty
  | .table _ entries => entries.isEmpty
  | _ => false

/-- A value that names a choice: its name, or a table of that one name over nothing. -/
def choice? {α : Type} [Labelled α] : Toml → Option α
  | .text name => ofLabel? name
  | .table _ [(name, value)] => if isHollow value then ofLabel? name else none
  | _ => none

/-- The settings of a document. -/
def ofToml? (document : Toml.Entries) : Option Settings := do
  let storage ← section? (document.lookup "storage")
  let logging ← section? (document.lookup "logging")
  let merge ← section? (document.lookup "merge")
  let notes ← section? (document.lookup "annotations")
  let policy := standard.policy
  return {
    dataDirectory := ← field? text? standard.dataDirectory (storage "data_dir" 0)
    tableFile := ← field? text? standard.tableFile (storage "database_file" 1)
    blobDirectory := ← field? text? standard.blobDirectory (storage "blob_dir" 2)
    level := ← field? text? standard.level (logging "level" 0)
    policy := {
      detection := ← field? choice? policy.detection (merge "detection" 0)
      strategy := ← field? choice? policy.strategy (merge "strategy" 1)
      searchLimit := ← field? natural? policy.searchLimit (notes "search_limit" 0) } }

/-! ### Acceptable values -/

/-- A field whose value is not acceptable. -/
inductive Defect where
  | noDataDirectory
  | noTableFile
  | noBlobDirectory
  | unknownLevel (level : String)
  | noSearchLimit
deriving DecidableEq, Repr

namespace Defect

/-- The field at fault. -/
def field : Defect → String
  | .noDataDirectory => "storage.data_dir"
  | .noTableFile => "storage.database_file"
  | .noBlobDirectory => "storage.blob_dir"
  | .unknownLevel _ => "logging.level"
  | .noSearchLimit => "annotations.search_limit"

/-- What is wrong with it. -/
def detail : Defect → String
  | .noDataDirectory => "data directory must not be empty"
  | .noTableFile => "database file name must not be empty"
  | .noBlobDirectory => "blob directory name must not be empty"
  | .unknownLevel level => s!"unknown level '{level}'"
  | .noSearchLimit => "search limit must be > 0"

/-- The defect as text. -/
def message (defect : Defect) : String :=
  s!"invalid configuration value for '{defect.field}': {defect.detail}"

end Defect

/-- The names of the levels, from the most to the least severe; each is also known by
its place, from 1. -/
def levels : List String :=
  ["error", "warn", "info", "debug", "trace"]

/-- Whether a text names a level, in any case of its letters, or gives its place. -/
def isLevel (text : String) : Bool :=
  (unsigned? text).any (fun n => 1 ≤ n && n ≤ levels.length)
    || levels.contains (String.ofList (text.toList.map Char.toLower))

/-- The first field, if any, whose value is not acceptable. -/
def check (settings : Settings) : Except Defect Unit :=
  if settings.dataDirectory.isEmpty then .error .noDataDirectory
  else if Text.isBlank settings.tableFile then .error .noTableFile
  else if Text.isBlank settings.blobDirectory then .error .noBlobDirectory
  else if !isLevel settings.level then .error (.unknownLevel settings.level)
  else if settings.policy.searchLimit = 0 then .error .noSearchLimit
  else .ok ()

end Settings

end PlanHistory
