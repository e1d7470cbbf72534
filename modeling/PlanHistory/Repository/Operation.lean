/-
A repository and everything that can be done with it.

An `Operation` is a request with its arguments, an `Answer` what a successful one
returns.  `Repository.perform` answers a request and leaves the repository as it is
after it; the id and the time that a request may need come from outside.
-/
import PlanHistory.Repository.Branches
import PlanHistory.Repository.Merges
import PlanHistory.Repository.Notes

namespace PlanHistory

/-- A store opened under a policy. -/
structure Repository where
  policy : Policy
  store : Store

/-- A request to a repository. -/
inductive Operation where
  | commit (content : Json) (request : NewVersion)
  | restore (version branch author : String) (message? : Option String)
  | content (version : String)
  | version (version : String)
  | history (plan : PlanId) (branch? : Option String)
  | verify (version : String)
  | mergeBase (a b : String)
  | createBranch (request : NewBranch)
  | branches (plan : PlanId)
  | branch (name : String) (plan : PlanId)
  | updateHead (name : String) (plan : PlanId) (expected head : String)
  | divergences (a b : String)
  | openMerge (request : NewMerge)
  | resolve (conflict resolution actor : String)
  | execute (merge actor : String)
  | merge (merge : String)
  | merges (plan : PlanId) (status? : Option MergeStatus)
  | conflict (conflict : String)
  | addNote (request : NewNote)
  | notes (version : String)
  | search (plan : PlanId) (query : String)
  | addComment (request : NewComment)
  | comments (parent : String) (kind : ParentKind)
  /-- Open the same store under another policy. -/
  | reopen (policy : Policy)

/-- What a successful operation returns. -/
inductive Answer where
  | receipt (receipt : Receipt)
  | content (document : Json)
  | version (version : Version)
  | versions (versions : List Version)
  | intact (intact : Bool)
  | base (version? : Option String)
  | branch (branch : Branch)
  | branches (branches : List Branch)
  | divergences (divergences : List Divergence)
  | opened (receipt : MergeReceipt)
  | outcome (outcome : MergeOutcome)
  | merge (details : MergeDetails)
  | merges (summaries : List MergeSummary)
  | conflict (conflict : Conflict)
  | notes (notes : List Note)
  | comments (comments : List Comment)
  /-- The id of what was added or changed. -/
  | id (id : String)
  | done

namespace Repository

/-- An empty repository under a policy. -/
def empty (policy : Policy) : Repository := ⟨policy, Store.empty⟩

/-- The answer to a request that only reads. -/
def read {α : Type} (r : Repository) (answer : α → Answer) (result : Except Failure α) :
    Except Failure Answer × Repository :=
  (result.map answer, r)

/-- The answer to a request that changes the store. -/
def write {α : Type} (r : Repository) (answer : α → Answer)
    (result : Except Failure α × Store) : Except Failure Answer × Repository :=
  (result.1.map answer, { r with store := result.2 })

/-- Answer a request, and leave the repository as it is after it. -/
def perform (stamp : Stamp) (operation : Operation) (r : Repository) :
    Except Failure Answer × Repository :=
  let s := r.store
  let tables := s.tables
  match operation with
  | .commit content request => r.write .receipt (s.commit stamp content request)
  | .restore version branch author message? =>
    r.write .receipt (s.restore stamp version branch author message?)
  | .content version => r.read .content (s.content version)
  | .version version => r.read .version (tables.version version)
  | .history plan branch? =>
    r.read .versions ((tables.versionsOf plan branch?).mapError Failure.ofTable)
  | .verify version => r.read .intact (s.verify version)
  | .mergeBase a b => r.read .base (tables.mergeBase a b)
  | .createBranch request => r.write .branch (s.createBranch stamp request)
  | .branches plan => r.read .branches ((tables.branchesOf plan).mapError Failure.ofTable)
  | .branch name plan => r.read .branch (tables.branch name plan)
  | .updateHead name plan expected head =>
    r.write (fun _ => .done) (s.updateHead stamp name plan expected head)
  | .divergences a b => r.read .divergences (s.divergences a b)
  | .openMerge request => r.write .opened (s.openMerge stamp r.policy request)
  | .resolve conflict resolution actor =>
    r.write .id (s.resolve stamp conflict resolution actor)
  | .execute merge actor => r.write .outcome (s.execute stamp merge actor)
  | .merge merge => r.read .merge (tables.mergeDetails merge)
  | .merges plan status? => r.read .merges ((tables.mergesOf plan status?).mapError Failure.ofTable)
  | .conflict conflict => r.read .conflict (tables.conflict conflict)
  | .addNote request => r.write .id (s.addNote stamp request)
  | .notes version => r.read .notes ((tables.notesOn version).mapError Failure.ofTable)
  | .search plan query => r.read .notes (s.search r.policy plan query)
  | .addComment request => r.write .id (s.addComment stamp request)
  | .comments parent kind =>
    r.read .comments ((tables.commentsOn parent kind).mapError Failure.ofTable)
  | .reopen policy => (.ok .done, { r with policy })

end Repository

end PlanHistory
