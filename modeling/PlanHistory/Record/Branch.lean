/-
Branches: named heads of a floor plan.
-/
import PlanHistory.PlanId
import PlanHistory.Timestamp

namespace PlanHistory

/-- What has become of a branch. -/
inductive BranchStatus where
  | active
  | merged
  | deleted
  | conflict
deriving DecidableEq, Repr

instance : Labelled BranchStatus where
  noun := "branch status"
  label
    | .active => "active"
    | .merged => "merged"
    | .deleted => "deleted"
    | .conflict => "conflict"
  all := [.active, .merged, .deleted, .conflict]

/-- A branch, with its status as `σ` and times as `τ`. -/
structure BranchEntry (σ τ : Type) where
  name : String
  plan : PlanId
  /-- The version the branch started at. -/
  base : String
  /-- The version the branch has come to. -/
  head : String
  status : σ
  createdBy : String
  createdAt : τ
  updatedAt : τ
  description : String

/-- A branch as it is read. -/
abbrev Branch := BranchEntry BranchStatus Timestamp

/-- A branch as it is stored. -/
abbrev BranchRow := BranchEntry String String

end PlanHistory
