/-
Edits of single columns, past every rule of the repository.

`Tables.edit` puts a text, or nothing, into one column of the rows under a key.  Only
the tables' own rules are kept: required columns hold something, the kind of a version
is known, rows keep a number, keys stay different and references lead somewhere.  The
text need be no value of its column; then the row can no longer be read.  Columns are
named in letters of either case.
-/
import PlanHistory.Store.Branches
import PlanHistory.Store.Merges

namespace PlanHistory

/-- The tables open to edits. -/
inductive EditableTable where
  | versions
  | branches
  | merges
  | conflicts
deriving DecidableEq, Repr

/-- How a text, or nothing, is put into a column of a row. -/
abbrev ColumnEdit (ρ : Type) := Option String → ρ → Except TableFault ρ

namespace ColumnEdit

variable {ρ : Type}

/-- A column that may be empty. -/
def optional (set : Option String → ρ → ρ) : ColumnEdit ρ :=
  fun value? row => .ok (set value? row)

/-- A column that must hold a text. -/
def required (column : String) (set : String → ρ → ρ) : ColumnEdit ρ :=
  fun value? row =>
    match value? with
    | some value => .ok (set value row)
    | none => .error (.missingValue column)

/-- A column of integers that must hold something. -/
def integer (column : String) (set : IntegerCell → ρ → ρ) : ColumnEdit ρ :=
  required column fun value => set (IntegerCell.ofText value)

/-- The number of a row, which must be an integer. -/
def number : ColumnEdit (Numbered ρ) :=
  fun value? entry =>
    match value?.map IntegerCell.ofText with
    | some (.whole number) => .ok { entry with number }
    | _ => .error .wrongType

/-- The columns of numbered rows: their number, and the columns of the row. -/
def ofNumbered? (columns : String → Option (ColumnEdit ρ)) (column : String) :
    Option (ColumnEdit (Numbered ρ)) :=
  if column = "id" then some number
  else (columns column).map fun edit value? entry =>
    (edit value? entry.row).map fun row => { entry with row }

/-- The columns of the table of versions. -/
def ofVersions? : String → Option (ColumnEdit VersionRow)
  | "version_id" => some <| required "versions.version_id" fun id row => { row with id }
  | "building_id" => some <| required "versions.building_id" fun building row =>
      { row with plan := { row.plan with building } }
  | "floor_id" => some <| required "versions.floor_id" fun floor row =>
      { row with plan := { row.plan with floor } }
  | "branch_name" => some <| required "versions.branch_name" fun branch row =>
      { row with branch }
  | "parent_version_id" => some <| optional fun parent? row => { row with parent? }
  | "version_type" => some fun value? row =>
      match value? with
      | none => .error (.missingValue "versions.version_type")
      | some value =>
        match ofLabel? value with
        | some kind => .ok { row with kind }
        | none =>
          .error (.unmetCondition "version_type IN ('major', 'minor', 'patch', 'branch')")
  | "version_number" => some <| required "versions.version_number" fun number row =>
      { row with number }
  | "branch_seq" => some <| integer "versions.branch_seq" fun sequence row =>
      { row with sequence }
  | "commit_message" => some <| required "versions.commit_message" fun message row =>
      { row with message }
  | "author" => some <| required "versions.author" fun author row => { row with author }
  | "created_at" => some <| required "versions.created_at" fun createdAt row =>
      { row with createdAt }
  | "content_hash" => some <| required "versions.content_hash" fun contentHash row =>
      { row with contentHash }
  | "content_size" => some <| integer "versions.content_size" fun contentSize row =>
      { row with contentSize }
  | "metadata" => some <| required "versions.metadata" fun metadata row =>
      { row with metadata }
  | _ => none

/-- The columns of the table of branches. -/
def ofBranches? : String → Option (ColumnEdit BranchRow)
  | "branch_name" => some <| required "branches.branch_name" fun name row => { row with name }
  | "building_id" => some <| required "branches.building_id" fun building row =>
      { row with plan := { row.plan with building } }
  | "floor_id" => some <| required "branches.floor_id" fun floor row =>
      { row with plan := { row.plan with floor } }
  | "base_version_id" => some <| required "branches.base_version_id" fun base row =>
      { row with base }
  | "current_version_id" => some <| required "branches.current_version_id" fun head row =>
      { row with head }
  | "status" => some <| required "branches.status" fun status row => { row with status }
  | "created_by" => some <| required "branches.created_by" fun createdBy row =>
      { row with createdBy }
  | "created_at" => some <| required "branches.created_at" fun createdAt row =>
      { row with createdAt }
  | "last_updated" => some <| required "branches.last_updated" fun updatedAt row =>
      { row with updatedAt }
  | "description" => some <| required "branches.description" fun description row =>
      { row with description }
  | _ => none

/-- The columns of the table of merge requests. -/
def ofMerges? : String → Option (ColumnEdit MergeRow)
  | "merge_id" => some <| required "merge_requests.merge_id" fun id row => { row with id }
  | "source_branch" => some <| required "merge_requests.source_branch" fun sourceBranch row =>
      { row with sourceBranch }
  | "target_branch" => some <| required "merge_requests.target_branch" fun targetBranch row =>
      { row with targetBranch }
  | "building_id" => some <| required "merge_requests.building_id" fun building row =>
      { row with plan := { row.plan with building } }
  | "floor_id" => some <| required "merge_requests.floor_id" fun floor row =>
      { row with plan := { row.plan with floor } }
  | "status" => some <| required "merge_requests.status" fun status row => { row with status }
  | "resolution_strategy" => some <| required "merge_requests.resolution_strategy"
      fun strategy row => { row with strategy }
  | "source_version_id" => some <| required "merge_requests.source_version_id"
      fun source row => { row with source }
  | "target_version_id" => some <| required "merge_requests.target_version_id"
      fun target row => { row with target }
  | "base_version_id" => some <| optional fun base? row => { row with base? }
  | "result_version_id" => some <| optional fun result? row => { row with result? }
  | "created_by" => some <| required "merge_requests.created_by" fun createdBy row =>
      { row with createdBy }
  | "created_at" => some <| required "merge_requests.created_at" fun createdAt row =>
      { row with createdAt }
  | "merged_by" => some <| optional fun mergedBy? row => { row with mergedBy? }
  | "merged_at" => some <| optional fun mergedAt? row => { row with mergedAt? }
  | "description" => some <| required "merge_requests.description" fun description row =>
      { row with description }
  | _ => none

/-- The columns of the table of conflicts. -/
def ofConflicts? : String → Option (ColumnEdit ConflictRow)
  | "conflict_id" => some <| optional fun id row => { row with id }
  | "merge_id" => some <| required "conflicts.merge_id" fun merge row => { row with merge }
  | "conflict_type" => some <| required "conflicts.conflict_type" fun kind row =>
      { row with kind }
  | "object_id" => some <| required "conflicts.object_id" fun object row => { row with object }
  | "property_name" => some <| optional fun property? row => { row with property? }
  | "source_value" => some <| optional fun source? row => { row with source? }
  | "target_value" => some <| optional fun target? row => { row with target? }
  | "resolution" => some <| optional fun resolution? row => { row with resolution? }
  | "resolved_by" => some <| optional fun resolvedBy? row => { row with resolvedBy? }
  | "resolved_at" => some <| optional fun resolvedAt? row => { row with resolvedAt? }
  | "created_at" => some <| required "conflicts.created_at" fun createdAt row =>
      { row with createdAt }
  | _ => none

end ColumnEdit

namespace Tables

/-- Whether no key of a list comes twice. -/
def allDistinct {κ : Type} [BEq κ] : List κ → Bool
  | [] => true
  | key :: keys => !keys.contains key && allDistinct keys

/-- Whether every version and merge request that a row refers to is there. -/
def referencesHold (tables : Tables) : Bool :=
  (tables.branches.all fun row => tables.hasVersion row.base && tables.hasVersion row.head) &&
  (tables.merges.rows.all fun row =>
    tables.hasVersion row.source && tables.hasVersion row.target &&
    row.base?.all (tables.hasVersion ·) && row.result?.all (tables.hasVersion ·)) &&
  (tables.conflicts.all fun row => tables.hasMerge row.merge)

/-- The first key that is taken twice. -/
def duplicateKey? (tables : Tables) : Option (List String) :=
  let versions := tables.versions.rows
  if !allDistinct (tables.versions.entries.map Numbered.number) then some ["versions.id"]
  else if !allDistinct (versions.map fun row => (row.plan, row.branch, row.sequence)) then
    some ["versions.building_id", "versions.floor_id", "versions.branch_name",
      "versions.branch_seq"]
  else if !allDistinct (versions.map fun row => row.id) then
    some ["versions.version_id"]
  else if !allDistinct (tables.branches.map fun row => (row.name, row.plan)) then
    some ["branches.branch_name", "branches.building_id", "branches.floor_id"]
  else if !allDistinct (tables.merges.entries.map Numbered.number) then
    some ["merge_requests.id"]
  else if !allDistinct (tables.merges.rows.map fun row => row.id) then
    some ["merge_requests.merge_id"]
  else if !allDistinct (tables.conflicts.filterMap fun row => row.id) then
    some ["conflicts.conflict_id"]
  else none

/-- Edit the rows under a key, and count them. -/
def editRows {ρ : Type} (applies : ρ → Bool) (edit : ρ → Except TableFault ρ)
    (rows : List ρ) : Except TableFault (Nat × List ρ) :=
  match rows.mapM fun row => if applies row then edit row else .ok row with
  | .ok edited => .ok (rows.countP applies, edited)
  | .error fault => .error fault

/-- Edit the numbered rows under a key, and count them. -/
def editRoll {ρ : Type} (applies : ρ → Bool)
    (edit : Numbered ρ → Except TableFault (Numbered ρ)) (roll : Roll ρ) :
    Except TableFault (Nat × Roll ρ) :=
  (editRows (fun entry => applies entry.row) edit roll.entries).map fun (changed, entries) =>
    (changed, roll.withEntries entries)

/-- How a text, or nothing, is put into the column of a name. -/
def columnOf {ρ : Type} (columns : String → Option (ColumnEdit ρ)) (column : String) :
    Except TableFault (ColumnEdit ρ) :=
  match columns column.toLower with
  | some edit => .ok edit
  | none => .error (.unknownColumn column)

/-- Put a text, or nothing, into a column of the rows under a key, and count them. -/
def edit (table : EditableTable) (column key : String) (value? : Option String)
    (tables : Tables) : Except TableFault (Nat × Tables) := do
  let (changed, edited) ←
    match table with
    | .versions => do
      let edit ← columnOf (ColumnEdit.ofNumbered? ColumnEdit.ofVersions?) column
      let (changed, versions) ← editRoll (fun row => row.id == key) (edit value?) tables.versions
      pure (changed, { tables with versions })
    | .branches => do
      let edit ← columnOf ColumnEdit.ofBranches? column
      let (changed, branches) ←
        editRows (fun row => row.name == key) (edit value?) tables.branches
      pure (changed, { tables with branches })
    | .merges => do
      let edit ← columnOf (ColumnEdit.ofNumbered? ColumnEdit.ofMerges?) column
      let (changed, merges) ← editRoll (fun row => row.id == key) (edit value?) tables.merges
      pure (changed, { tables with merges })
    | .conflicts => do
      let edit ← columnOf ColumnEdit.ofConflicts? column
      let (changed, conflicts) ←
        editRows (fun row => row.id == some key) (edit value?) tables.conflicts
      pure (changed, { tables with conflicts })
  match duplicateKey? edited with
  | some columns => throw (TableFault.duplicateKey columns)
  | none =>
    if edited.referencesHold then pure (changed, edited)
    else throw TableFault.danglingReference

end Tables

end PlanHistory
