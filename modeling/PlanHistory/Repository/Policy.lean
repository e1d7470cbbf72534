/-
The rules a repository is opened under.
-/
import PlanHistory.Label

namespace PlanHistory

/-- What the heads of two branches are compared against when a merge is opened. -/
inductive Detection where
  /-- Each other. -/
  | twoWay
  /-- Their common base, if they have one. -/
  | threeWay
deriving DecidableEq, Repr

/-- The name of a way of comparing. -/
instance : Labelled Detection where
  noun := "detection mode"
  label
    | .twoWay => "two_way"
    | .threeWay => "three_way"
  all := [.twoWay, .threeWay]

/-- What executing a merge does. -/
inductive Strategy where
  /-- Put the merged document together and commit it. -/
  | materialize
  /-- Move the target branch to the head of the source branch. -/
  | fastForward
deriving DecidableEq, Repr

instance : Labelled Strategy where
  noun := "merge strategy"
  label
    | .materialize => "materialize"
    | .fastForward => "fast_forward"
  all := [.materialize, .fastForward]

/-- The rules a repository is opened under. -/
structure Policy where
  detection : Detection
  strategy : Strategy
  /-- How many notes a search returns at most; one at least. -/
  searchLimit : Nat
deriving DecidableEq, Repr

/-- The rules of a repository that is not told otherwise. -/
def Policy.standard : Policy := ⟨.twoWay, .materialize, 200⟩

end PlanHistory
