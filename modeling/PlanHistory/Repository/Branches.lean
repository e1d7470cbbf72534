/-
Creating branches and moving their heads.
-/
import PlanHistory.Repository.Versions

namespace PlanHistory

/-- What is asked of a new branch. -/
structure NewBranch where
  name : String
  plan : PlanId
  base : String
  author : String
  description? : Option String

namespace Tables

/-- Add a branch that starts at a version of its plan. -/
def createBranch (request : NewBranch) (now : Timestamp) (tables : Tables) :
    Except Failure (Branch × Tables) := do
  let base ← tables.version request.base
  requireOwner .base request.base base.plan request.plan
  match ← (tables.branch? request.name request.plan).mapError Failure.ofTable with
  | some _ => throw (Failure.branchExists request.name request.plan)
  | none =>
    let branch : Branch :=
      { name := request.name
        plan := request.plan
        base := request.base
        head := request.base
        status := .active
        createdBy := request.author
        createdAt := now
        updatedAt := now
        description := request.description?.getD "" }
    let tables ← (tables.insertBranch branch).mapError Failure.ofTable
    return (branch, tables)

/-- Move the head of a branch and leave its status. -/
def updateHead (name : String) (plan : PlanId) (expected head : String) (now : Timestamp)
    (tables : Tables) : Except Failure Tables := do
  let branch ← tables.branch name plan
  tables.advanceHead name plan expected head branch.status now

end Tables

namespace Store

/-- Create a branch. -/
def createBranch (stamp : Stamp) (request : NewBranch) (s : Store) :
    Except Failure Branch × Store :=
  s.transact fun tables => do
    require .branchName request.name
    requirePlan request.plan
    tables.createBranch request stamp.time

/-- Move the head of a branch from where the caller saw it. -/
def updateHead (stamp : Stamp) (name : String) (plan : PlanId) (expected head : String)
    (s : Store) : Except Failure Unit × Store :=
  s.transact fun tables => do
    let tables ← tables.updateHead name plan expected head stamp.time
    return ((), tables)

end Store

end PlanHistory
