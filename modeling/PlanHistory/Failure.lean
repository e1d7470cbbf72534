/-
Why an operation is refused or fails.

A `Failure` is a cause with its particulars; its wording is in `Failure.message` and
the functions that it calls.
-/
import PlanHistory.Document
import PlanHistory.FileFault
import PlanHistory.Label
import PlanHistory.PlanId

namespace PlanHistory

/-- What can be missing or beyond change. -/
inductive Entity where
  | version
  | versionContent
  | branch
  | mergeRequest
  | conflict
  | note
deriving DecidableEq, Repr

/-- The name of a kind of thing. -/
def Entity.name : Entity → String
  | .version => "version"
  | .versionContent => "version content"
  | .branch => "branch"
  | .mergeRequest => "merge request"
  | .conflict => "conflict"
  | .note => "annotation"

/-- What a version of another floor plan was given as. -/
inductive VersionRole where
  | parent
  | newHead
  | base
  | noted
deriving DecidableEq, Repr

/-- The field that names a version in a role. -/
def VersionRole.field : VersionRole → String
  | .parent => "parent_version_id"
  | .newHead => "new_version_id"
  | .base => "base_version_id"
  | .noted => "document_id"

/-- A text that must not be blank. -/
inductive RequiredText where
  | building
  | floor
  | branchName
  | resolution
  | noteKind
  | comment
deriving DecidableEq, Repr

/-- The field that holds a required text. -/
def RequiredText.field : RequiredText → String
  | .building => "document_id.building_id"
  | .floor => "document_id.floor_id"
  | .branchName => "branch_name"
  | .resolution => "resolution"
  | .noteKind => "annotation_type"
  | .comment => "content"

/-- Why a request is not acceptable as it stands. -/
inductive Invalid where
  | blank (text : RequiredText)
  | document (defect : Document.Defect)
  | sameBranch
  | foreignVersion (role : VersionRole) (version : String) (owner : PlanId)
deriving DecidableEq

namespace Invalid

/-- The field at fault. -/
def field : Invalid → String
  | .blank text => text.field
  | .document defect => defect.field
  | .sameBranch => "target_branch"
  | .foreignVersion role _ _ => role.field

/-- What is wrong with it. -/
def detail : Invalid → String
  | .blank _ => "must not be empty"
  | .document defect => defect.detail
  | .sameBranch => "source and target branch must differ"
  | .foreignVersion _ version owner => s!"version {version} belongs to {owner.text}"

end Invalid

/-- What a column may hold that is not of its type. -/
inductive CellKind where
  | null
  | real
  | text
deriving DecidableEq, Repr

/-- The name of a type of values. -/
def CellKind.name : CellKind → String
  | .null => "Null"
  | .real => "Real"
  | .text => "Text"

/-- Why what is stored is not a value of its column. -/
inductive CellFault where
  | label (unknown : UnknownLabel)
  | json
  | time
  /-- It is not of the type of the column of the given name. -/
  | kind (found : CellKind) (name : String)
deriving DecidableEq

/-- What is stored and not a value of its column, by the number of the column. -/
structure BadCell where
  column : Nat
  fault : CellFault
deriving DecidableEq

/-- Why the tables refuse to be read or changed. -/
inductive TableFault where
  | duplicateKey (columns : List String)
  | missingValue (column : String)
  | unmetCondition (condition : String)
  | danglingReference
  | unknownColumn (name : String)
  | wrongType
  /-- No number is left for a new row. -/
  | full
  /-- The tables may be read only. -/
  | readOnly
  | badCell (cell : BadCell)
deriving DecidableEq

namespace TableFault

/-- The fault as text. -/
def message : TableFault → String
  | .duplicateKey columns =>
    let columns := ", ".intercalate columns
    s!"UNIQUE constraint failed: {columns}"
  | .missingValue column => s!"NOT NULL constraint failed: {column}"
  | .unmetCondition condition => s!"CHECK constraint failed: {condition}"
  | .danglingReference => "FOREIGN KEY constraint failed"
  | .unknownColumn name => s!"no such column: {name}"
  | .wrongType => "datatype mismatch"
  | .full => "database or disk is full"
  | .readOnly => "attempt to write a readonly database"
  | .badCell ⟨column, fault⟩ =>
    let unreadable (reason : String) : String :=
      s!"Conversion error from type Text at index: {column}, {reason}"
    match fault with
    | .label unknown => unreadable unknown.message
    | .json => unreadable "not JSON"
    | .time => unreadable "not a timestamp"
    | .kind found name => s!"Invalid column type {found.name} at index: {column}, name: {name}"

end TableFault

/-- Why a blob cannot be written or read. -/
inductive BlobFault where
  | invalidId
  | alreadyWritten
  | file (fault : FileFault)
deriving DecidableEq, Repr

/-- The fault as text. -/
def BlobFault.message : BlobFault → String
  | .invalidId => "invalid blob id"
  | .alreadyWritten => "blob already written"
  | .file fault => fault.message

/-- Why storage fails. -/
inductive StorageFault where
  | table (fault : TableFault)
  | blob (id : String) (fault : BlobFault)
  /-- The stored content of a version is not JSON. -/
  | unreadableContent
deriving DecidableEq

namespace StorageFault

/-- The fault as text, of a store whose blobs are under `blobRoot`. -/
def message (blobRoot : String) : StorageFault → String
  | .table fault => s!"database error: {fault.message}"
  | .blob id fault =>
    let path := Path.join blobRoot (id ++ ".json")
    s!"blob I/O error at '{path}': {fault.message}"
  | .unreadableContent => "serialization error"

end StorageFault

/-- Why an operation is refused or fails. -/
inductive Failure where
  | notFound (entity : Entity) (id : String)
  | branchExists (name : String) (plan : PlanId)
  | invalid (why : Invalid)
  | unresolved (merge : String) (count : Nat)
  | headMoved (branch expected actual : String)
  | mergeOver (merge : String) (status : String)
  | conflictResolved (conflict : String) (resolution : String)
  | storage (fault : StorageFault)
deriving DecidableEq

namespace Failure

/-- How a branch is named in a failure. -/
def branchId (name : String) (plan : PlanId) : String :=
  s!"{name}@{plan.text}"

/-- A branch that is not there. -/
def noBranch (name : String) (plan : PlanId) : Failure :=
  .notFound .branch (branchId name plan)

/-- A fault of the tables. -/
def ofTable (fault : TableFault) : Failure :=
  .storage (.table fault)

/-- Whether storage failed, as opposed to a refusal. -/
def isStorage : Failure → Bool
  | .storage _ => true
  | _ => false

/-- Whether the same operation may succeed once the caller has read again. -/
def isRetryable : Failure → Bool
  | .headMoved .. => true
  | _ => false

/-- The failure as text, of a store whose blobs are under `blobRoot`. -/
def message (blobRoot : String) : Failure → String
  | .notFound entity id => s!"{entity.name} not found: {id}"
  | .branchExists name plan => s!"branch already exists: {branchId name plan}"
  | .invalid why => s!"invalid value for '{why.field}': {why.detail}"
  | .unresolved merge count => s!"merge request {merge} has {count} unresolved conflict(s)"
  | .headMoved branch expected actual =>
    s!"branch '{branch}' head changed: expected {expected}, found {actual}; reload and retry"
  | .mergeOver merge status => s!"merge request {merge} cannot be changed: already {status}"
  | .conflictResolved conflict resolution =>
    s!"conflict {conflict} cannot be changed: already resolved as '{resolution}'"
  | .storage fault => fault.message blobRoot

end Failure

end PlanHistory
