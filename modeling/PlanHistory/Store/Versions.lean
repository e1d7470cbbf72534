/-
The table of versions.
-/
import PlanHistory.Store.Tables

namespace PlanHistory

namespace Tables

/-- Whether there is a version of the given id. -/
def hasVersion (tables : Tables) (id : String) : Bool :=
  tables.versions.rows.any fun row => row.id == id

/-- Whether a row is of a version of the plan on the branch. -/
def isOnBranch (plan : PlanId) (branch : String) (row : VersionRow) : Bool :=
  row.plan == plan && row.branch == branch

/-- Add a version.  Ids differ, and so do the places on one branch. -/
def insertVersion (version : Version) (tables : Tables) : Except TableFault Tables := do
  let row := VersionRow.store version
  let versions ← tables.versions.append row
  if tables.versions.rows.any fun other =>
      isOnBranch row.plan row.branch other && other.sequence == row.sequence then
    throw (TableFault.duplicateKey ["versions.building_id", "versions.floor_id",
      "versions.branch_name", "versions.branch_seq"])
  if tables.hasVersion row.id then throw (TableFault.duplicateKey ["versions.version_id"])
  return { tables with versions }

/-- The row of a version. -/
def versionRow? (tables : Tables) (id : String) : Option VersionRow :=
  tables.versions.rows.find? fun row => row.id == id

/-- A version, if it is there. -/
def version? (tables : Tables) (id : String) : Except TableFault (Option Version) :=
  readRow? VersionRow.read (tables.versionRow? id)

/-- The parent of a version, if the version is there and if it has one.  Nothing else
of the row is read. -/
def parent? (tables : Tables) (id : String) : Option (Option String) :=
  (tables.versionRow? id).map fun row => row.parent?

/-- The versions of a plan, or of one branch of it, newest first. -/
def versionsOf (tables : Tables) (plan : PlanId) (branch? : Option String) :
    Except TableFault (List Version) :=
  let rows := tables.versions.rows.filter fun row =>
    row.plan == plan && (branch?.isNone || branch? == some row.branch)
  readRows VersionRow.read rows.reverse

/-- The place of the next version on a branch: after the greatest, and after the
greatest integer of 64 bits the least. -/
def nextSequence (tables : Tables) (plan : PlanId) (branch : String) :
    Except TableFault Int :=
  match (tables.versions.rows.filter (isOnBranch plan branch)).map fun row => row.sequence with
  | [] => .ok 1
  | place :: places =>
    match Cell.integer 0 "MAX(branch_seq)" (places.foldl IntegerCell.max place) with
    | .ok last => .ok (if last = greatestWord then leastWord else last + 1)
    | .error cell => .error (.badCell cell)

end Tables

end PlanHistory
