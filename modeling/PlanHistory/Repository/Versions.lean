/-
Committing, reading and restoring versions.

The blob of a version is written first; then its row is added and the head of its
branch moved, both or neither.  If that fails the blob is dropped, so that a blob
without a row is never left behind.

* **`Tables.advanceHead`** — moves the head of a branch, if it is where it was seen;
* **`Tables.recordVersion`** — the row of a new version, and the branch's new head;
* **`Tables.ancestry`** — a version and its ancestors, on any parent graph;
* **`Tables.mergeBase`** — the nearest version that two versions descend from.
-/
import PlanHistory.Repository.Store

namespace PlanHistory

/-- What is asked of a new version. -/
structure NewVersion where
  plan : PlanId
  branch : String
  message : String
  author : String
  parent? : Option String
  kind : VersionKind
  metadata : Keyed Json

/-- A version whose blob is written and whose row is not. -/
structure Prepared where
  id : String
  createdAt : Timestamp
  contentHash : String
  contentSize : Nat

/-- What a committer is told. -/
structure Receipt where
  version : String
  number : String
  contentHash : String

namespace Tables

/-- Move the head of a branch from `expected` to a version of the same plan.  A head
that is no longer `expected` stays. -/
def advanceHead (name : String) (plan : PlanId) (expected head : String)
    (status : BranchStatus) (now : Timestamp) (tables : Tables) : Except Failure Tables := do
  let version ← tables.version head
  requireOwner .newHead head version.plan plan
  match tables.swapHead name plan expected head status now with
  | .error fault => throw (Failure.ofTable fault)
  | .ok (changed, moved) =>
    if changed = 0 then
      let branch ← tables.branch name plan
      throw (Failure.headMoved name expected branch.head)
    else return moved

/-- The parent of a new version on a branch: the one asked for, which must be the head
of the branch if there is one, and else that head. -/
def newParent? (name : String) (branch? : Option Branch) (asked? : Option String) :
    Except Failure (Option String) :=
  match branch?, asked? with
  | some branch, some parent =>
    if branch.head = parent then .ok (some parent)
    else .error (.headMoved name parent branch.head)
  | none, some parent => .ok (some parent)
  | some branch, none => .ok (some branch.head)
  | none, none => .ok none

/-- Add the row of a version whose blob is written, and make it the head of its
branch.  A branch that is not there yet begins with it. -/
def recordVersion (request : NewVersion) (prepared : Prepared) (now : Timestamp)
    (tables : Tables) : Except Failure (Version × Tables) := do
  match request.parent? with
  | some parent =>
    let version ← tables.version parent
    requireOwner .parent parent version.plan request.plan
  | none => pure ()
  let branch? ← (tables.branch? request.branch request.plan).mapError Failure.ofTable
  let parent? ← newParent? request.branch branch? request.parent?
  let sequence ←
    (tables.nextSequence request.plan request.branch).mapError Failure.ofTable
  let version : Version :=
    { id := prepared.id
      plan := request.plan
      branch := request.branch
      parent?
      kind := request.kind
      number := versionNumber request.branch request.kind prepared.createdAt
      sequence
      message := request.message
      author := request.author
      createdAt := prepared.createdAt
      contentHash := prepared.contentHash
      contentSize := prepared.contentSize
      metadata := request.metadata }
  let tables ← (tables.insertVersion version).mapError Failure.ofTable
  match branch? with
  | some branch =>
    let tables ←
      tables.advanceHead request.branch request.plan branch.head version.id .active now
    return (version, tables)
  | none =>
    let branch : Branch :=
      { name := request.branch
        plan := request.plan
        base := parent?.getD version.id
        head := version.id
        status := .active
        createdBy := request.author
        createdAt := prepared.createdAt
        updatedAt := prepared.createdAt
        description := "" }
    let tables ← (tables.insertBranch branch).mapError Failure.ofTable
    return (version, tables)

/-- How many rows there are of versions that are not among the visited. -/
def unvisited (tables : Tables) (visited : List String) : Nat :=
  tables.versions.rows.countP fun row => !visited.contains row.id

/-- Visiting a version that is there leaves fewer unvisited. -/
theorem unvisited_cons_lt {tables : Tables} {visited : List String} {id : String}
    {row : VersionRow} (found : tables.versionRow? id = some row)
    (fresh : visited.contains id = false) :
    tables.unvisited (id :: visited) < tables.unvisited visited := by
  unfold unvisited
  unfold versionRow? at found
  generalize tables.versions.rows = rows at found ⊢
  induction rows with
  | nil => simp at found
  | cons first rows ih =>
    rw [List.countP_cons, List.countP_cons]
    rw [List.find?_cons] at found
    split at found
    next same =>
      have hid : first.id = id := by simpa using same
      have hle : rows.countP (fun row => !(id :: visited).contains row.id)
          ≤ rows.countP (fun row => !visited.contains row.id) := by
        refine List.countP_mono_left fun row _ h => ?_
        rw [List.contains_cons, Bool.not_or, Bool.and_eq_true] at h
        exact h.2
      rw [hid, List.contains_cons, beq_self_eq_true, Bool.true_or, fresh]
      simp only [Bool.not_true, Bool.not_false, Bool.false_eq_true, if_true, if_false]
      omega
    next =>
      have hlt := ih found
      have hle : (if (!(id :: visited).contains first.id) = true then 1 else 0)
          ≤ if (!visited.contains first.id) = true then 1 else 0 := by
        rw [List.contains_cons]
        cases first.id == id <;> cases visited.contains first.id <;> simp
      omega

/-- The versions from `id` on along the parents, up to one without parent or one
visited before.  A version that is not there fails the walk by its id. -/
def walk (tables : Tables) (visited : List String) (id : String) : Except String (List String) :=
  match _fresh : visited.contains id with
  | true => .ok []
  | false =>
    match _found : tables.versionRow? id with
    | none => .error id
    | some row =>
      match row.parent? with
      | none => .ok [id]
      | some parent =>
        match walk tables (id :: visited) parent with
        | .ok chain => .ok (id :: chain)
        | .error missing => .error missing
termination_by tables.unvisited visited
decreasing_by exact unvisited_cons_lt _found _fresh

/-- A version and its ancestors, nearest first. -/
def ancestry (tables : Tables) (id : String) : Except Failure (List String) :=
  (tables.walk [] id).mapError (Failure.notFound .version)

/-- The first of the second version and its ancestors that the first version is or
descends from. -/
def mergeBase (tables : Tables) (a b : String) : Except Failure (Option String) := do
  let ancestors ← tables.ancestry a
  let chain ← tables.ancestry b
  return chain.find? fun id => ancestors.contains id

end Tables

/-- What a new version must satisfy before anything is written. -/
def NewVersion.check (request : NewVersion) (content : Json) : Except Failure Unit := do
  requirePlan request.plan
  require .branchName request.branch
  (Document.validate content).mapError fun defect => Failure.invalid (.document defect)

namespace Store

/-- Write the blob of a new version. -/
def prepare (stamp : Stamp) (content : Json) (blobs : Blobs) :
    Except Failure (Prepared × Blobs) :=
  let bytes := Document.contentBytes content
  match Blobs.write stamp.id bytes blobs with
  | .ok blobs => .ok (⟨stamp.id, stamp.time, Sha256.hex bytes, bytes.size⟩, blobs)
  | .error fault => .error (.storage (.blob stamp.id fault))

/-- Commit a document to a branch. -/
def commit (stamp : Stamp) (content : Json) (request : NewVersion) (s : Store) :
    Except Failure Receipt × Store :=
  match request.check content with
  | .error failure => (.error failure, s)
  | .ok () =>
    match prepare stamp content s.blobs with
    | .error failure => (.error failure, s)
    | .ok (prepared, blobs) =>
      match s.tables.recordVersion request prepared stamp.time with
      | .ok (version, tables) =>
        (.ok ⟨version.id, version.number, version.contentHash⟩, ⟨tables, blobs⟩)
      | .error failure => (.error failure, ⟨s.tables, Blobs.discard prepared.id blobs⟩)

/-- The document of a version. -/
def content (id : String) (s : Store) : Except Failure Json :=
  match Blobs.read? id s.blobs with
  | none => .error (.notFound .versionContent id)
  | some bytes =>
    match Json.ofBytes? bytes with
    | none => .error (.storage .unreadableContent)
    | some document => .ok document

/-- Whether the stored bytes of a version still have the recorded digest. -/
def verify (id : String) (s : Store) : Except Failure Bool := do
  let version ← s.tables.version id
  match Blobs.read? id s.blobs with
  | none => throw (Failure.notFound .versionContent id)
  | some bytes => return Sha256.hex bytes == version.contentHash

/-- What is asked of a version that brings back another. -/
def restoring (source : Version) (branch author : String) (message? : Option String) :
    NewVersion :=
  { plan := source.plan
    branch
    message := message?.getD s!"Revert to version {source.number}"
    author
    parent? := none
    kind := .patch
    metadata := [("restored_from", .string source.id)] }

/-- Commit the content of an earlier version again. -/
def restore (stamp : Stamp) (id branch author : String) (message? : Option String)
    (s : Store) : Except Failure Receipt × Store :=
  match s.tables.version id, s.content id with
  | .error failure, _ => (.error failure, s)
  | .ok _, .error failure => (.error failure, s)
  | .ok source, .ok document =>
    s.commit stamp document (restoring source branch author message?)

end Store

end PlanHistory
