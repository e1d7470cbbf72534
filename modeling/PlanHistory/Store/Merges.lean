/-
The tables of merge requests and of their conflicts.
-/
import PlanHistory.Store.Versions

namespace PlanHistory

namespace Tables

/-- Whether there is a merge request of the given id. -/
def hasMerge (tables : Tables) (id : String) : Bool :=
  tables.merges.rows.any fun row => row.id == id

/-- Add a merge request that is not over: a result, and who merged when, are left
open. -/
def insertMerge (request : MergeRequest) (tables : Tables) : Except TableFault Tables := do
  let row : MergeRow := MergeRow.store
    { request with result? := none, mergedBy? := none, mergedAt? := none }
  let merges ← tables.merges.append row
  if tables.hasMerge row.id then throw (TableFault.duplicateKey ["merge_requests.merge_id"])
  if !tables.hasVersion row.source || !tables.hasVersion row.target
      || row.base?.any fun base => !tables.hasVersion base then
    throw TableFault.danglingReference
  return { tables with merges }

/-- The order of conflicts: by object, then by property, the whole object before its
properties. -/
def conflictLe (a b : ConflictRow) : Bool :=
  if a.object == b.object then
    match a.property?, b.property? with
    | none, _ => true
    | some _, none => false
    | some p, some q => decide (p ≤ q)
  else decide (a.object ≤ b.object)

/-- The rows of the conflicts of a merge request, in order. -/
def conflictRows (tables : Tables) (merge : String) : List ConflictRow :=
  (tables.conflicts.filter fun row => row.merge == merge).mergeSort conflictLe

/-- A merge request with the ids of its conflicts, in order. -/
def withConflicts (tables : Tables) (request : MergeRequest) :
    Except TableFault MergeSummary := do
  let conflictIds ← readRows ConflictRow.readId (tables.conflictRows request.id)
  return ⟨request, conflictIds⟩

/-- A merge request, if it is there. -/
def merge? (tables : Tables) (id : String) : Except TableFault (Option MergeSummary) := do
  match ← readRow? MergeRow.read (tables.merges.rows.find? fun row => row.id == id) with
  | some request => (tables.withConflicts request).map some
  | none => return none

/-- The merge requests of a plan, or those of one status, newest first.  All of them
are read before their conflicts are. -/
def mergesOf (tables : Tables) (plan : PlanId) (status? : Option MergeStatus) :
    Except TableFault (List MergeSummary) := do
  let rows := tables.merges.rows.filter fun row =>
    row.plan == plan && (status?.isNone || status?.map label == some row.status)
  let requests ← readRows MergeRow.read rows.reverse
  requests.mapM tables.withConflicts

/-- Mark a merge request completed. -/
def completeMerge (id actor result : String) (now : Timestamp) (tables : Tables) :
    Except TableFault (Nat × Tables) :=
  let (changed, merges) := tables.merges.update (fun row => row.id == id)
    fun row => { row with
      status := label MergeStatus.completed
      mergedBy? := some actor
      mergedAt? := some now.text
      result? := some result }
  if changed != 0 && !tables.hasVersion result then .error .danglingReference
  else .ok (changed, { tables with merges })

/-- Set the status of a merge request that is not over. -/
def setMergeStatus (id : String) (status : MergeStatus) (tables : Tables) : Nat × Tables :=
  let (changed, merges) := tables.merges.update
    (fun row => row.id == id && row.status != label MergeStatus.completed
      && row.status != label MergeStatus.failed)
    fun row => { row with status := label status }
  (changed, { tables with merges })

/-- Add a conflict that is not settled. -/
def insertConflict (conflict : Conflict) (tables : Tables) : Except TableFault Tables :=
  if tables.conflicts.any fun row => row.id == some conflict.id then
    .error (.duplicateKey ["conflicts.conflict_id"])
  else if !tables.hasMerge conflict.merge then .error .danglingReference
  else
    let row : ConflictRow := ConflictRow.store
      { conflict with resolution? := none, resolvedBy? := none, resolvedAt? := none }
    .ok { tables with conflicts := tables.conflicts ++ [row] }

/-- Add conflicts, one after the other. -/
def insertConflicts (conflicts : List Conflict) (tables : Tables) : Except TableFault Tables :=
  conflicts.foldlM (fun tables conflict => insertConflict conflict tables) tables

/-- A conflict, if it is there. -/
def conflict? (tables : Tables) (id : String) : Except TableFault (Option Conflict) :=
  readRow? ConflictRow.read (tables.conflicts.find? fun row => row.id == some id)

/-- The conflicts of a merge request, in order. -/
def conflictsOf (tables : Tables) (merge : String) : Except TableFault (List Conflict) :=
  readRows ConflictRow.read (tables.conflictRows merge)

/-- Settle a conflict that is not settled. -/
def resolveConflict (id resolution actor : String) (now : Timestamp) (tables : Tables) :
    Nat × Tables :=
  let (changed, conflicts) := update
    (fun row : ConflictRow => row.id == some id && row.resolution?.isNone)
    (fun row => { row with
      resolution? := some resolution
      resolvedBy? := some actor
      resolvedAt? := some now.text })
    tables.conflicts
  (changed, { tables with conflicts })

/-- How many conflicts of a merge request are not settled. -/
def countUnresolved (tables : Tables) (merge : String) : Nat :=
  tables.conflicts.countP fun row => row.merge == merge && row.resolution?.isNone

end Tables

end PlanHistory
