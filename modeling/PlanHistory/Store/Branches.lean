/-
The table of branches.
-/
import PlanHistory.Store.Versions

namespace PlanHistory

namespace Tables

/-- Whether a row is of the branch of the given name of the plan. -/
def isBranch (name : String) (plan : PlanId) (row : BranchRow) : Bool :=
  row.name == name && row.plan == plan

/-- Add a branch.  A plan has one branch of a name. -/
def insertBranch (branch : Branch) (tables : Tables) : Except TableFault Tables :=
  if tables.branches.any (isBranch branch.name branch.plan) then
    .error (.duplicateKey ["branches.branch_name", "branches.building_id", "branches.floor_id"])
  else if !tables.hasVersion branch.base || !tables.hasVersion branch.head then
    .error .danglingReference
  else .ok { tables with branches := tables.branches ++ [BranchRow.store branch] }

/-- A branch of a plan, if it is there. -/
def branch? (tables : Tables) (name : String) (plan : PlanId) :
    Except TableFault (Option Branch) :=
  readRow? BranchRow.read (tables.branches.find? (isBranch name plan))

/-- The branches of a plan, newest first. -/
def branchesOf (tables : Tables) (plan : PlanId) : Except TableFault (List Branch) :=
  let rows := tables.branches.filter fun row => row.plan == plan
  readRows BranchRow.read (ascendingBy (fun row => row.createdAt) rows).reverse

/-- Move the head of a branch from `expected` to `head` and set the status, if
`expected` is still its head. -/
def swapHead (name : String) (plan : PlanId) (expected head : String) (status : BranchStatus)
    (now : Timestamp) (tables : Tables) : Except TableFault (Nat × Tables) :=
  let (changed, branches) := update
    (fun row => isBranch name plan row && row.head == expected)
    (fun row => { row with head, status := label status, updatedAt := now.text })
    tables.branches
  if changed != 0 && !tables.hasVersion head then .error .danglingReference
  else .ok (changed, { tables with branches })

/-- Set the status of a branch and leave its head. -/
def setBranchStatus (name : String) (plan : PlanId) (status : BranchStatus) (now : Timestamp)
    (tables : Tables) : Nat × Tables :=
  let (changed, branches) := update (isBranch name plan)
    (fun row => { row with status := label status, updatedAt := now.text })
    tables.branches
  (changed, { tables with branches })

end Tables

end PlanHistory
