/-
Opening merge requests, settling their conflicts and executing them.

A request is executed against the heads it recorded: the target branch must still be
where it was.  What execution does is planned first, as a `MergePlan`, and then carried
out in one transaction; only a failure of storage marks the request failed.
-/
import PlanHistory.Repository.Policy
import PlanHistory.Repository.Versions

namespace PlanHistory

/-- What is asked of a new merge request. -/
structure NewMerge where
  sourceBranch : String
  targetBranch : String
  plan : PlanId
  author : String
  description? : Option String

/-- What the opener of a merge request is told. -/
structure MergeReceipt where
  merge : String
  status : MergeStatus
  conflicts : List Conflict

/-- A merge request with its conflicts, in order. -/
structure MergeDetails where
  summary : MergeSummary
  conflicts : List Conflict

namespace MergeDetails

/-- The merge request itself. -/
def request (details : MergeDetails) : MergeRequest :=
  details.summary.request

/-- How many conflicts are not settled. -/
def unresolved (details : MergeDetails) : Nat :=
  details.conflicts.countP fun conflict => conflict.resolution?.isNone

end MergeDetails

/-- What became of an executed merge. -/
structure MergeOutcome where
  merge : String
  head : String
  createdVersion : Bool
deriving DecidableEq

/-- What executing a merge will do to the target branch. -/
inductive MergePlan where
  /-- Move its head to a version that is there. -/
  | moveHead (version : String)
  /-- Leave its head, which has the merged content. -/
  | keepHead
  /-- Commit the merged content, whose blob is written. -/
  | commit (request : NewVersion) (prepared : Prepared)

namespace NewMerge

/-- What a merge request must satisfy before anything is looked up. -/
def check (request : NewMerge) : Except Failure Unit := do
  require .branchName request.sourceBranch
  require .branchName request.targetBranch
  requirePlan request.plan
  if request.sourceBranch = request.targetBranch then throw (Failure.invalid .sameBranch)

/-- The request as it is opened on the heads and the base of its branches. -/
def opened (request : NewMerge) (stamp : Stamp) (strategy : Strategy) (status : MergeStatus)
    (source target : String) (base? : Option String) : MergeRequest :=
  { id := stamp.id
    sourceBranch := request.sourceBranch
    targetBranch := request.targetBranch
    plan := request.plan
    status
    strategy := label strategy
    source
    target
    base?
    result? := none
    createdBy := request.author
    createdAt := stamp.time
    mergedBy? := none
    mergedAt? := none
    description := request.description?.getD "" }

end NewMerge

/-- The conflict that records a divergence, not settled. -/
def Divergence.conflict (divergence : Divergence) (id merge : String) (now : Timestamp) :
    Conflict :=
  { id
    merge
    kind := divergence.kind
    object := divergence.object
    property? := divergence.property?
    source? := divergence.source?
    target? := divergence.target?
    resolution? := none
    resolvedBy? := none
    resolvedAt? := none
    createdAt := now }

namespace Tables

/-- The heads of the two branches of a merge, and their base if they are compared
against one. -/
def mergeHeads (detection : Detection) (request : NewMerge) (tables : Tables) :
    Except Failure (String × String × Option String) := do
  let source ← tables.branch request.sourceBranch request.plan
  let target ← tables.branch request.targetBranch request.plan
  match detection with
  | .threeWay =>
    let base? ← tables.mergeBase source.head target.head
    return (source.head, target.head, base?)
  | .twoWay => return (source.head, target.head, none)

/-- A merge request with its conflicts. -/
def mergeDetails (id : String) (tables : Tables) : Except Failure MergeDetails := do
  let summary ← tables.merge id
  let conflicts ← (tables.conflictsOf id).mapError Failure.ofTable
  return ⟨summary, conflicts⟩

/-- Settle a conflict of a request that is not over.  The label given first stays, and
giving it again changes nothing. -/
def settle (id resolution actor : String) (now : Timestamp) (tables : Tables) :
    Except Failure Tables := do
  let conflict ← tables.conflict id
  let ⟨request, _⟩ ← tables.merge conflict.merge
  if request.status.isTerminal then throw (Failure.mergeOver request.id (label request.status))
  match conflict.resolution? with
  | some settled =>
    if settled = resolution then return tables
    else throw (Failure.conflictResolved id settled)
  | none => return (tables.resolveConflict id resolution actor now).2

/-- Bring the target branch of a merge to its new head, and say which that is and
whether its version is new. -/
def carryOut (request : MergeRequest) (plan : MergePlan) (now : Timestamp) (tables : Tables) :
    Except Failure ((String × Bool) × Tables) := do
  match plan with
  | .moveHead head =>
    let target ← tables.branch request.targetBranch request.plan
    let tables ← tables.advanceHead request.targetBranch request.plan request.target head
      target.status now
    return ((head, false), tables)
  | .keepHead =>
    let target ← tables.branch request.targetBranch request.plan
    if target.head = request.target then return ((target.head, false), tables)
    else throw (Failure.headMoved request.targetBranch request.target target.head)
  | .commit new prepared =>
    let (version, tables) ← tables.recordVersion new prepared now
    return ((version.id, true), tables)

/-- Execute a planned merge: move the target branch, complete the request and mark the
source branch merged. -/
def applyMerge (request : MergeRequest) (plan : MergePlan) (actor : String) (now : Timestamp)
    (tables : Tables) : Except Failure (MergeOutcome × Tables) := do
  let unresolved := tables.countUnresolved request.id
  if unresolved ≠ 0 then throw (Failure.unresolved request.id unresolved)
  let ((head, created), tables) ← tables.carryOut request plan now
  let (_, tables) ← (tables.completeMerge request.id actor head now).mapError Failure.ofTable
  let (_, tables) := tables.setBranchStatus request.sourceBranch request.plan .merged now
  return (⟨request.id, head, created⟩, tables)

end Tables

namespace Store

/-- The divergences between the contents of two versions. -/
def divergences (a b : String) (s : Store) : Except Failure (List Divergence) := do
  let source ← s.content a
  let target ← s.content b
  return Divergence.twoWay source target

/-- The divergences between two heads, against their base if there is one. -/
def divergencesSince (base? : Option String) (source target : String) (s : Store) :
    Except Failure (List Divergence) := do
  let sourceContent ← s.content source
  let targetContent ← s.content target
  match base? with
  | some base =>
    let baseContent ← s.content base
    return Divergence.threeWay baseContent sourceContent targetContent
  | none => return Divergence.twoWay sourceContent targetContent

/-- Open a merge request, with a conflict for every divergence. -/
def openMerge (stamp : Stamp) (policy : Policy) (request : NewMerge) (s : Store) :
    Except Failure MergeReceipt × Store :=
  s.transact fun tables => do
    request.check
    let (source, target, base?) ← tables.mergeHeads policy.detection request
    let found ← s.divergencesSince base? source target
    let conflicts := found.mapIdx fun i divergence =>
      divergence.conflict (stamp.conflictId i) stamp.id stamp.time
    let status := if conflicts.isEmpty then MergeStatus.pending else MergeStatus.conflict
    let opened := request.opened stamp policy.strategy status source target base?
    let tables ← (tables.insertMerge opened).mapError Failure.ofTable
    let tables ← (tables.insertConflicts conflicts).mapError Failure.ofTable
    return (⟨opened.id, status, conflicts⟩, tables)

/-- Settle a conflict by a label. -/
def resolve (stamp : Stamp) (id resolution actor : String) (s : Store) :
    Except Failure String × Store :=
  s.transact fun tables => do
    require .resolution resolution
    let tables ← tables.settle id resolution actor stamp.time
    return (id, tables)

/-- What is asked of the version that a merge commits. -/
def merging (request : MergeRequest) (actor : String) : NewVersion :=
  { plan := request.plan
    branch := request.targetBranch
    message := s!"Merge branch '{request.sourceBranch}' into '{request.targetBranch}'"
    author := actor
    parent? := some request.target
    kind := .minor
    metadata := [("merge_id", .string request.id), ("merged_from", .string request.source)] }

/-- The merged document of a request, from the contents of the versions it recorded
and the labels of its conflicts, with the contents of its two heads. -/
def mergedContent (details : MergeDetails) (s : Store) :
    Except Failure (Json × Json × Json) := do
  let request := details.request
  let source ← s.content request.source
  let target ← s.content request.target
  let base? ←
    match request.base? with
    | some base => (s.content base).map some
    | none => pure none
  return (Merge.document base? source target (details.conflicts.map Conflict.ruling),
    source, target)

/-- Plan the execution of a merge.  A merged document with the content of a head needs
no version of its own; any other is written to the blobs. -/
def planMerge (stamp : Stamp) (details : MergeDetails) (actor : String) (s : Store) :
    Except Failure (MergePlan × Blobs) := do
  let request := details.request
  if request.strategy = label Strategy.fastForward then
    let source ← s.tables.branch request.sourceBranch request.plan
    return (.moveHead source.head, s.blobs)
  else
    let (merged, source, target) ← s.mergedContent details
    let hash := Document.contentHash merged
    if hash = Document.contentHash source then return (.moveHead request.source, s.blobs)
    else if hash = Document.contentHash target then return (.keepHead, s.blobs)
    else
      (Document.validate merged).mapError fun defect => Failure.invalid (.document defect)
      let (prepared, blobs) ← prepare stamp merged s.blobs
      return (.commit (merging request actor) prepared, blobs)

/-- Drop the blob that a plan has written, if it has. -/
def abandon (plan : MergePlan) (blobs : Blobs) : Blobs :=
  match plan with
  | .commit _ prepared => Blobs.discard prepared.id blobs
  | _ => blobs

/-- Plan a merge and carry it out. -/
def attemptMerge (stamp : Stamp) (details : MergeDetails) (actor : String) (s : Store) :
    Except Failure MergeOutcome × Store :=
  match s.planMerge stamp details actor with
  | .error failure => (.error failure, s)
  | .ok (plan, blobs) =>
    match s.tables.applyMerge details.request plan actor stamp.time with
    | .ok (outcome, tables) => (.ok outcome, ⟨tables, blobs⟩)
    | .error failure => (.error failure, ⟨s.tables, abandon plan blobs⟩)

/-- What a request must satisfy to be executed. -/
def executable (id : String) (details : MergeDetails) : Except Failure Unit :=
  if details.request.status.isTerminal then
    .error (.mergeOver id (label details.request.status))
  else if details.unresolved ≠ 0 then .error (.unresolved id details.unresolved)
  else .ok ()

/-- Execute a merge request.  A failure of storage marks it failed. -/
def execute (stamp : Stamp) (id actor : String) (s : Store) :
    Except Failure MergeOutcome × Store :=
  match s.tables.mergeDetails id with
  | .error failure => (.error failure, s)
  | .ok details =>
    match executable id details with
    | .error failure => (.error failure, s)
    | .ok () =>
      match s.attemptMerge stamp details actor with
      | (.ok outcome, s) => (.ok outcome, s)
      | (.error failure, s) =>
        if failure.isStorage then
          (.error failure, { s with tables := (s.tables.setMergeStatus id .failed).2 })
        else (.error failure, s)

end Store

end PlanHistory
