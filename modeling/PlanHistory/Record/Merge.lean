/-
Merge requests, and the conflicts that stand in their way.

A request records the heads of its two branches when it was opened, and their common
base if it was compared against one.  Each divergence found then is a conflict of the
request, settled by a label.
-/
import PlanHistory.Conflict.Merge
import PlanHistory.PlanId
import PlanHistory.Timestamp

namespace PlanHistory

/-- How far a merge request has come. -/
inductive MergeStatus where
  | pending
  | inProgress
  | completed
  | failed
  | conflict
deriving DecidableEq, Repr

instance : Labelled MergeStatus where
  noun := "merge status"
  label
    | .pending => "pending"
    | .inProgress => "in_progress"
    | .completed => "completed"
    | .failed => "failed"
    | .conflict => "conflict"
  all := [.pending, .inProgress, .completed, .failed, .conflict]

/-- Whether a request is over, one way or the other. -/
def MergeStatus.isTerminal : MergeStatus → Bool
  | .completed => true
  | .failed => true
  | _ => false

/-- A merge request, with its status as `σ` and times as `τ`. -/
structure MergeEntry (σ τ : Type) where
  id : String
  sourceBranch : String
  targetBranch : String
  plan : PlanId
  status : σ
  strategy : String
  /-- The heads of the two branches when the request was opened. -/
  source : String
  target : String
  base? : Option String
  /-- The head that the target branch came to by the merge. -/
  result? : Option String
  createdBy : String
  createdAt : τ
  mergedBy? : Option String
  mergedAt? : Option τ
  description : String

/-- A merge request as it is read. -/
abbrev MergeRequest := MergeEntry MergeStatus Timestamp

/-- A merge request as it is stored. -/
abbrev MergeRow := MergeEntry String String

/-- A merge request with the ids of its conflicts, in order. -/
structure MergeSummary where
  request : MergeRequest
  conflictIds : List String

/-- A conflict of a merge request, with its id as `ι`, its kind as `κ`, values as `ν`
and times as `τ`. -/
structure ConflictEntry (ι κ ν τ : Type) where
  id : ι
  merge : String
  kind : κ
  object : String
  property? : Option String
  source? : Option ν
  target? : Option ν
  /-- The label that settles the conflict. -/
  resolution? : Option String
  resolvedBy? : Option String
  resolvedAt? : Option τ
  createdAt : τ

/-- A conflict as it is read. -/
abbrev Conflict := ConflictEntry String ConflictKind Json Timestamp

/-- A conflict as it is stored; its id may be missing. -/
abbrev ConflictRow := ConflictEntry (Option String) String String String

namespace Conflict

/-- Whether a label settles the conflict. -/
def isResolved (conflict : Conflict) : Bool :=
  conflict.resolution?.isSome

/-- The divergence that the conflict records. -/
def divergence (conflict : Conflict) : Divergence :=
  ⟨conflict.kind, conflict.object, conflict.property?, conflict.source?, conflict.target?⟩

/-- The divergence with the label that settles it. -/
def ruling (conflict : Conflict) : Ruling :=
  ⟨conflict.divergence, conflict.resolution?⟩

end Conflict

end PlanHistory
