/-
The store of a repository, and what its operations share.

A store is tables and blobs.  An operation that changes it returns its answer together
with the store it leaves, also when it fails, since blobs are written outside the
tables' transaction and must be seen to be gone.  `Store.transact` changes the tables
as a whole or not at all.
-/
import PlanHistory.Store.Blobs
import PlanHistory.Store.Branches
import PlanHistory.Store.Merges
import PlanHistory.Store.Notes
import PlanHistory.Text.Blank

namespace PlanHistory

/-- The tables and the blobs of a repository. -/
structure Store where
  tables : Tables
  blobs : Blobs

/-- What an operation takes from outside: the time, an id that was never given out,
and as many more for conflicts as it needs. -/
structure Stamp where
  time : Timestamp
  id : String
  conflictId : Nat → String

namespace Store

/-- A store with nothing in it. -/
def empty : Store := ⟨Tables.empty, []⟩

/-- Change the tables as a whole; a failure leaves them as they were. -/
def transact {α : Type} (change : Tables → Except Failure (α × Tables)) (s : Store) :
    Except Failure α × Store :=
  match change s.tables with
  | .ok (answer, tables) => (.ok answer, { s with tables })
  | .error failure => (.error failure, s)

end Store

/-- Refuse a blank text. -/
def require (what : RequiredText) (text : String) : Except Failure Unit :=
  if Text.isBlank text then .error (.invalid (.blank what)) else .ok ()

/-- Refuse a floor plan without a building or a floor. -/
def requirePlan (plan : PlanId) : Except Failure Unit := do
  require .building plan.building
  require .floor plan.floor

/-- Refuse a version of another floor plan. -/
def requireOwner (role : VersionRole) (version : String) (owner plan : PlanId) :
    Except Failure Unit :=
  if owner = plan then .ok () else .error (.invalid (.foreignVersion role version owner))

/-- What was looked up, or that it is missing. -/
def present {α : Type} (missing : Failure) : Except TableFault (Option α) → Except Failure α
  | .ok (some found) => .ok found
  | .ok none => .error missing
  | .error fault => .error (.ofTable fault)

namespace Tables

/-- The version of an id. -/
def version (tables : Tables) (id : String) : Except Failure Version :=
  present (.notFound .version id) (tables.version? id)

/-- The branch of a name. -/
def branch (tables : Tables) (name : String) (plan : PlanId) : Except Failure Branch :=
  present (Failure.noBranch name plan) (tables.branch? name plan)

/-- The merge request of an id, with the ids of its conflicts. -/
def merge (tables : Tables) (id : String) : Except Failure MergeSummary :=
  present (.notFound .mergeRequest id) (tables.merge? id)

/-- The conflict of an id. -/
def conflict (tables : Tables) (id : String) : Except Failure Conflict :=
  present (.notFound .conflict id) (tables.conflict? id)

end Tables

end PlanHistory
