/-
What an executed merge of contents leaves behind.

A request that is executed by the materialize strategy puts together one document from the
contents of the versions that it recorded and from the labels of its conflicts.  Three plans
can bring the target branch to it: to move the head to the source's version, to leave it, or
to commit a new version.  Whichever is taken, the head holds the merged document, and apart
from the head, the request and the status of the source branch nothing else is changed.

* **`Store.Sound.placed`** — the head holds the merged document (`Store.Placed`);
* **`Store.Sound.completed`** — what else carrying out a plan leaves (`Store.Completed`);
* **`Repository.Reachable.execute_materialized`** — what every successful execution leaves.

A plan is chosen by comparing hashes.  So the documents that are compared are assumed to
have different hashes if their canonical forms differ (`Document.Apart`).
-/
import PlanHistory.Proofs.Repository.Progress

namespace PlanHistory

/-- Whether two documents have different hashes unless their canonical forms are the same. -/
def Document.Apart (a b : Json) : Prop :=
  Document.contentHash a = Document.contentHash b →
    Document.contentBytes a = Document.contentBytes b

theorem Document.Apart.contentHash_eq_iff {a b : Json} (h : Document.Apart a b) :
    Document.contentHash a = Document.contentHash b
      ↔ Document.contentBytes a = Document.contentBytes b :=
  ⟨h, fun hbytes => congrArg Sha256.hex hbytes⟩

namespace Store

/-- Where a merge of contents puts the merged document. -/
structure Placed (before after : Store) (request : MergeRequest) (actor : String)
    (merged source target : Json) (outcome : MergeOutcome) : Prop where
  /-- The new head holds the merged document. -/
  content : Blobs.read? outcome.head after.blobs = some (Document.contentBytes merged)
  /-- A version is made only of a document that is neither side's. -/
  creates : outcome.createdVersion = true
    ↔ Document.contentBytes merged ≠ Document.contentBytes source
      ∧ Document.contentBytes merged ≠ Document.contentBytes target
  /-- One version is new, with its blob: on the target branch, on top of its old head. -/
  created : outcome.createdVersion = true → ∃ version : Version,
    version.id = outcome.head ∧ version.plan = request.plan
      ∧ version.branch = request.targetBranch ∧ version.parent? = some request.target
      ∧ version.author = actor
      ∧ version.metadata
        = [("merge_id", .string request.id), ("merged_from", .string request.source)]
      ∧ after.tables.version outcome.head = .ok version
      ∧ before.tables.versions.append (VersionRow.store version) = .ok after.tables.versions
      ∧ Keyed.get? outcome.head before.blobs = none
      ∧ after.blobs = Keyed.insert outcome.head (Document.contentBytes merged) before.blobs
  /-- Otherwise the head is one that the request recorded. -/
  kept : outcome.createdVersion = false →
    after.tables.versions = before.tables.versions ∧ after.blobs = before.blobs
      ∧ (outcome.head = request.source ∨ outcome.head = request.target)

/-- What an executed request leaves behind beside versions, whatever its strategy. -/
structure Completed (before after : Store) (stamp : Stamp) (details : MergeDetails)
    (actor : String) (outcome : MergeOutcome) : Prop where
  merge : outcome.merge = details.request.id
  /-- The target branch was at the version that the request recorded. -/
  expected : ∃ branch,
    before.tables.branch details.request.targetBranch details.request.plan = .ok branch
      ∧ branch.head = details.request.target
  target : ∃ branch,
    after.tables.branch details.request.targetBranch details.request.plan = .ok branch
      ∧ branch.head = outcome.head
  source : ∃ branch,
    after.tables.branch details.request.sourceBranch details.request.plan = .ok branch
      ∧ branch.status = .merged
  /-- The request is completed with the new head, and its conflicts are as they were. -/
  request : after.tables.mergeDetails details.request.id = .ok
    ⟨⟨{ details.request with
        status := .completed
        result? := some outcome.head
        mergedBy? := some actor
        mergedAt? := some stamp.time }, details.summary.conflictIds⟩, details.conflicts⟩
  /-- Of the target branch only the head, the status and the time change, of the source
  branch only the status and the time, and of the others nothing. -/
  branches : List.Forall₂ (fun old new => new = old
      ∨ (Tables.isBranch details.request.sourceBranch details.request.plan old = true
        ∧ new = { old with status := label BranchStatus.merged, updatedAt := stamp.time.text })
      ∨ (Tables.isBranch details.request.targetBranch details.request.plan old = true
        ∧ new = { old with
          head := outcome.head, status := new.status, updatedAt := new.updatedAt }))
    before.tables.branches after.tables.branches
  /-- No other request is changed, and none is added or removed. -/
  requests : List.Forall₂ (fun old new => new = old
      ∨ (old.row.id = details.request.id ∧ new = { old with row := { old.row with
          status := label MergeStatus.completed
          result? := some outcome.head
          mergedBy? := some actor
          mergedAt? := some stamp.time.text } }))
    before.tables.merges.entries after.tables.merges.entries
  last : after.tables.merges.last = before.tables.merges.last
  /-- Conflicts, notes and comments are as they were. -/
  others : after.tables = { before.tables with
    versions := after.tables.versions
    branches := after.tables.branches
    merges := after.tables.merges }

variable {s : Store} {r : Records} {stamp : Stamp} {request : MergeRequest} {target : Branch}
  {actor : String} {plan : MergePlan} {blobs : Blobs}

/-! ### What else carrying out a plan leaves -/

/-- Which branches an executed request changes, and how. -/
theorem forall₂_branches_executed
    (htarget : r.branch? request.targetBranch request.plan = some target)
    (hnames : r.NamesDiffer) (hhead : target.head = request.target)
    (planned : Planned s r stamp request actor plan blobs) :
    List.Forall₂ (fun old new => new = old
        ∨ (Tables.isBranch request.sourceBranch request.plan old = true
          ∧ new = { old with status := label BranchStatus.merged, updatedAt := stamp.time.text })
        ∨ (Tables.isBranch request.targetBranch request.plan old = true
          ∧ new = { old with
            head := plan.head request.target, status := new.status, updatedAt := new.updatedAt }))
      r.tables.branches
      (r.executed request target.status actor stamp.time plan).tables.branches := by
  show List.Forall₂ _ (r.branches.map BranchRow.store)
    ((r.executed request target.status actor stamp.time plan).branches.map BranchRow.store)
  rw [branches_executed htarget planned, Records.setBranchStatus, Records.changeBranch,
    Records.changeBranch, List.map_map, List.map_map]
  refine List.forall₂_map_left_iff.mpr (List.forall₂_map_right_iff.mpr
    (List.forall₂_same.mpr fun branch hmem => ?_))
  simp only [Function.comp_apply]
  by_cases htargets : (branch.name == request.targetBranch && branch.plan == request.plan) = true
  · have hfound := htargets
    rw [Bool.and_eq_true, beq_iff_eq, beq_iff_eq] at hfound
    obtain rfl := Records.eq_of_branch? hnames htarget hmem hfound.1 hfound.2
    refine Or.inr (Or.inr ⟨htargets, ?_⟩)
    -- Should the source branch be the target, its status is set after its head.
    rw [if_pos htargets, ← hhead]
    split
    · cases plan <;> rfl
    · cases plan <;> rfl
  · rw [if_neg htargets]
    split
    next hsources => exact Or.inr (Or.inl ⟨hsources, rfl⟩)
    next => exact Or.inl rfl

/-- The request that is executed is completed, and the others stay. -/
theorem forall₂_merges_executed (status : BranchStatus) (now : Timestamp) :
    List.Forall₂ (fun old new => new = old
        ∨ (old.row.id = request.id ∧ new = { old with row := { old.row with
            status := label MergeStatus.completed
            result? := some (plan.head request.target)
            mergedBy? := some actor
            mergedAt? := some now.text } }))
      r.tables.merges.entries (r.executed request status actor now plan).tables.merges.entries := by
  show List.Forall₂ _ (Roll.ofRows (r.merges.map MergeRow.store)).entries
    (Roll.ofRows ((r.executed request status actor now plan).merges.map MergeRow.store)).entries
  rw [merges_executed, Records.complete, List.map_map, List.forall₂_iff_get]
  refine ⟨by simp [Roll.ofRows], fun i hi hi' => ?_⟩
  simp only [Roll.ofRows, List.get_eq_getElem, List.getElem_mapIdx, List.getElem_map,
    Function.comp_apply]
  split
  next hid => exact Or.inr ⟨beq_iff_eq.mp hid, rfl⟩
  next => exact Or.inl rfl

theorem last_merges_executed (status : BranchStatus) (now : Timestamp) :
    (r.executed request status actor now plan).tables.merges.last = r.tables.merges.last := by
  show (((r.executed request status actor now plan).merges.map MergeRow.store).length : Int)
    = ((r.merges.map MergeRow.store).length : Int)
  rw [merges_executed, Records.complete, List.length_map, List.length_map, List.length_map]

theorem others_executed (status : BranchStatus) (now : Timestamp) :
    (r.executed request status actor now plan).conflicts = r.conflicts
      ∧ (r.executed request status actor now plan).notes = r.notes
      ∧ (r.executed request status actor now plan).comments = r.comments := by
  show (r.carriedOut request status now plan).conflicts = r.conflicts
    ∧ (r.carriedOut request status now plan).notes = r.notes
    ∧ (r.carriedOut request status now plan).comments = r.comments
  cases plan with
  | moveHead head => exact ⟨rfl, rfl, rfl⟩
  | keepHead => exact ⟨rfl, rfl, rfl⟩
  | commit new prepared =>
    rw [Records.carriedOut, Records.record]
    split <;> exact ⟨rfl, rfl, rfl⟩

/-- The source branch of an executed request is merged. -/
theorem source_executed (sound : s.Sound r) (hmem : request ∈ r.merges)
    (htarget : r.branch? request.targetBranch request.plan = some target)
    (planned : Planned s r stamp request actor plan blobs) (status : BranchStatus)
    (now : Timestamp) :
    ∃ branch, (r.executed request status actor now plan).branch? request.sourceBranch request.plan
        = some branch
      ∧ branch.status = .merged := by
  obtain ⟨source, hsource⟩ := Records.exists_branch? (sound.merges.sides request hmem).1
  have hmoved := (Records.branch?_changeBranch (MergePlan.key_retarget plan status now)
    request.targetBranch request.sourceBranch request.plan request.plan).trans
      (congrArg (Option.map _) hsource)
  rw [Records.branch?, branches_executed htarget planned, ← Records.branch?,
    Records.branch?_setBranchStatus hmoved]
  exact ⟨_, rfl, rfl⟩

/-- The version that a plan adds. -/
theorem version_executed (sound : s.Sound r) (fresh : stamp.Fresh s) (hmem : request ∈ r.merges)
    (htarget : r.branch? request.targetBranch request.plan = some target) {merged : Json}
    (planned : Planned s r stamp request actor
      (.commit (merging request actor) (stamp.prepared merged)) blobs) :
    ∃ version : Version, version.id = stamp.id ∧ version.plan = request.plan
      ∧ version.branch = request.targetBranch ∧ version.parent? = some request.target
      ∧ version.author = actor
      ∧ version.metadata
        = [("merge_id", .string request.id), ("merged_from", .string request.source)]
      ∧ (r.executed request target.status actor stamp.time
          (.commit (merging request actor) (stamp.prepared merged))).tables.version stamp.id
        = .ok version
      ∧ r.tables.versions.append (VersionRow.store version)
        = .ok (r.executed request target.status actor stamp.time
          (.commit (merging request actor) (stamp.prepared merged))).tables.versions := by
  have hleft : r.tables.versions.greatest < greatestWord := sound.tables ▸ fresh.versionsLeft
  have hsound := sound.executed fresh hmem htarget planned
  have hversions : (r.executed request target.status actor stamp.time
        (.commit (merging request actor) (stamp.prepared merged))).versions
      = r.versions ++ [r.newVersion (merging request actor) (stamp.prepared merged)
        (some request.target)] :=
    versions_carriedOut target.status stamp.time _
  refine ⟨r.newVersion (merging request actor) (stamp.prepared merged) (some request.target), rfl,
    rfl, rfl, rfl, rfl, rfl, ?_, ?_⟩
  · rw [Records.version_tables hsound.storable]
    exact Records.readVersion_of_legible (version?_executed sound fresh hmem htarget planned)
      (Records.within_metadata_merging request actor).nesting
  · rw [Records.tables] at hleft
    rw [Records.tables, Records.tables, hversions, Roll.append_ofRows _ hleft, List.map_append,
      List.map_singleton]

/-- Carrying out a plan for a merged document puts it at the head of the target branch. -/
theorem Sound.placed (sound : s.Sound r) (fresh : stamp.Fresh s) (hmem : request ∈ r.merges)
    (htarget : r.branch? request.targetBranch request.plan = some target)
    (planned : Planned s r stamp request actor plan blobs)
    (hstrategy : request.strategy ≠ label Strategy.fastForward)
    (hplan : s.planMerge stamp (r.details request) actor = .ok (plan, blobs))
    {merged sourceContent targetContent : Json}
    (hmerged : s.mergedContent (r.details request) = .ok (merged, sourceContent, targetContent))
    (hsource : Blobs.content request.source s.blobs = .ok sourceContent)
    (htargetContent : Blobs.content request.target s.blobs = .ok targetContent)
    (apartSource : Document.Apart merged sourceContent)
    (apartTarget : Document.Apart merged targetContent) :
    Placed s ⟨(r.executed request target.status actor stamp.time plan).tables, blobs⟩ request actor
      merged sourceContent targetContent ⟨request.id, plan.head request.target, plan.creates⟩ := by
  obtain ⟨hvalid, -⟩ := sound.valid_merged hmem hmerged
  have hforward : (r.details request).request.strategy ≠ label Strategy.fastForward := hstrategy
  have hcases := plan_of_materialize sound fresh hforward hmerged hvalid.accepted hplan
  simp only [ne_eq, apartSource.contentHash_eq_iff, apartTarget.contentHash_eq_iff] at hcases
  rcases hcases with ⟨hsame, rfl, rfl⟩ | ⟨hne, hsame, rfl, rfl⟩ | ⟨hne, hdiffers, rfl, rfl⟩
  -- The merged document is the source's, and the head moves there.
  · refine
      { content := ?content, creates := ?creates, created := ?created,
        kept := fun _ => ⟨?versions, rfl, Or.inl rfl⟩ }
    case content =>
      rw [hsame]
      exact sound.versions.read?_of_owns (sound.merges.sources request hmem) hsource
    case creates => simp [MergePlan.creates, hsame]
    case created => simp [MergePlan.creates]
    case versions =>
      rw [sound.tables]
      rfl
  -- It is the target's, and the head stays.
  · refine
      { content := ?content, creates := ?creates, created := ?created,
        kept := fun _ => ⟨?versions, rfl, Or.inr rfl⟩ }
    case content =>
      rw [hsame]
      exact sound.versions.read?_of_owns (sound.merges.targets request hmem) htargetContent
    case creates => simp [MergePlan.creates, hsame]
    case created => simp [MergePlan.creates]
    case versions =>
      rw [sound.tables]
      rfl
  -- It is neither's, and a version is made of it.
  · refine
      { content := Blobs.read?_insert_self fresh.safe, creates := ?creates,
        created := fun _ => ?created, kept := ?kept }
    case creates => simp [MergePlan.creates, hne, hdiffers]
    case created =>
      obtain ⟨version, hid, hversionPlan, hbranch, hparent, hauthor, hmetadata, hfound, hadded⟩ :=
        version_executed sound fresh hmem htarget planned
      refine ⟨version, hid, hversionPlan, hbranch, hparent, hauthor, hmetadata, hfound, ?_,
        sound.blob_eq_none fresh, rfl⟩
      rw [sound.tables]
      exact hadded
    case kept => simp [MergePlan.creates]

/-- Carrying out a plan completes the request, and changes nothing else but two branches. -/
theorem Sound.completed (sound : s.Sound r) (fresh : stamp.Fresh s) (hmem : request ∈ r.merges)
    (htarget : r.branch? request.targetBranch request.plan = some target)
    (hhead : target.head = request.target) (planned : Planned s r stamp request actor plan blobs) :
    Completed s ⟨(r.executed request target.status actor stamp.time plan).tables, blobs⟩ stamp
      (r.details request) actor ⟨request.id, plan.head request.target, plan.creates⟩ := by
  have hsound := sound.executed fresh hmem htarget planned
  obtain ⟨hconflicts, hnotes, hcomments⟩ :
      (r.executed request target.status actor stamp.time plan).conflicts = r.conflicts
        ∧ (r.executed request target.status actor stamp.time plan).notes = r.notes
        ∧ (r.executed request target.status actor stamp.time plan).comments = r.comments :=
    others_executed target.status stamp.time
  refine
    { merge := rfl, expected := ⟨target, ?expected, hhead⟩, target := ?target, source := ?source,
      request := ?request, branches := ?branches, requests := ?requests, last := ?last,
      others := ?others }
  case expected => exact sound.branch_eq_ok htarget
  case target =>
    obtain ⟨branch, hbranch, hbranchHead⟩ := Option.map_eq_some_iff.mp
      (head_executed htarget hhead planned target.status stamp.time)
    exact ⟨branch, hsound.branch_eq_ok hbranch, hbranchHead⟩
  case source =>
    obtain ⟨branch, hbranch, hstatus⟩ :=
      source_executed sound hmem htarget planned target.status stamp.time
    exact ⟨branch, hsound.branch_eq_ok hbranch, hstatus⟩
  case request =>
    have hcompleted := hsound.mergeDetails_of_mem (by
      rw [merges_executed]
      exact Records.mem_complete.mpr (Or.inr ⟨request, hmem, rfl, rfl⟩))
    refine hcompleted.trans (congrArg Except.ok ?_)
    have hsame := Records.conflictsOf_congr hconflicts request.id
    simp only [Records.details, Records.summary, hsame]
    rfl
  case branches =>
    rw [sound.tables]
    exact forall₂_branches_executed htarget sound.branches.namesDiffer hhead planned
  case requests =>
    rw [sound.tables]
    exact forall₂_merges_executed target.status stamp.time
  case last =>
    rw [sound.tables]
    exact last_merges_executed target.status stamp.time
  case others =>
    rw [sound.tables]
    simp only [Records.tables, hconflicts, hnotes, hcomments]

/-- What executing a request that is answered leaves. -/
theorem Step.of_execute {r' : Records} {policy : Policy} {id : String} {outcome : MergeOutcome}
    (step : s.Step r policy stamp (.execute id actor) (.ok (.outcome outcome)) r' blobs) :
    ∃ request ∈ r.merges, ∃ target plan, request.id = id
      ∧ r.branch? request.targetBranch request.plan = some target ∧ target.head = request.target
      ∧ s.planMerge stamp (r.details request) actor = .ok (plan, blobs)
      ∧ Planned s r stamp request actor plan blobs ∧ plan.Reads s.tables request
      ∧ outcome = ⟨request.id, plan.head request.target, plan.creates⟩
      ∧ r' = r.executed request target.status actor stamp.time plan := by
  cases step with
  | asked _ hquestion => simp [Operation.isQuestion] at hquestion
  | @executed request target actor plan blobs hmem hopen hsettled htarget hhead hplan planned
      hreads =>
    exact ⟨request, hmem, target, plan, rfl, htarget, hhead, hplan, planned, hreads, rfl, rfl⟩

end Store

namespace Repository

variable {repository : Repository} {stamp : Stamp}

/-- **A request that is executed by the materialize strategy leaves the merged document at
the head of the target branch**, whichever plan was taken, and is completed.  The document is
put together from the contents of the versions that the request recorded and from the labels
of its conflicts. -/
theorem Reachable.execute_materialized (h : Reachable repository)
    (fresh : stamp.Fresh repository.store) {id actor : String} {details : MergeDetails}
    {outcome : MergeOutcome} (hdetails : repository.store.tables.mergeDetails id = .ok details)
    (hstrategy : details.request.strategy = label Strategy.materialize)
    (apart : ∀ merged source target,
      repository.store.mergedContent details = .ok (merged, source, target) →
        Document.Apart merged source ∧ Document.Apart merged target)
    (hanswer : (repository.perform stamp (.execute id actor)).1 = .ok (.outcome outcome)) :
    ∃ source target base?, repository.store.content details.request.source = .ok source
      ∧ repository.store.content details.request.target = .ok target
      ∧ baseContent details.request.base? repository.store.blobs = .ok base?
      ∧ Store.Placed repository.store (repository.perform stamp (.execute id actor)).2.store
        details.request actor
        (Merge.document base? source target (details.conflicts.map Conflict.ruling)) source target
        outcome
      ∧ Store.Completed repository.store (repository.perform stamp (.execute id actor)).2.store
        stamp details actor outcome
      ∧ (repository.perform stamp (.execute id actor)).2.policy = repository.policy := by
  obtain ⟨r, sound⟩ := h.sound
  have hread : (Operation.execute id actor).Ordered := trivial
  obtain ⟨r', sound', step⟩ := sound.step fresh hread
  rw [hanswer] at step
  obtain ⟨request, hmem, branch, plan, rfl, htarget, hhead, hplan, planned, -, rfl, rfl⟩ :=
    step.of_execute
  obtain rfl := Except.ok.inj ((sound.mergeDetails_of_mem hmem).symm.trans hdetails)
  obtain ⟨source, target, base?, hsource, htargetContent, hbase, -, hmerged⟩ :=
    sound.mergedContent hmem
  obtain ⟨apartSource, apartTarget⟩ := apart _ _ _ hmerged
  have hforward : request.strategy ≠ label Strategy.fastForward := by
    have hmaterialize : request.strategy = label Strategy.materialize := hstrategy
    rw [hmaterialize]
    decide
  have hafter : (repository.perform stamp (.execute request.id actor)).2.store
      = ⟨(r.executed request branch.status actor stamp.time plan).tables,
        (repository.perform stamp (.execute request.id actor)).2.store.blobs⟩ := by
    rw [← sound'.tables]
  rw [hafter]
  exact ⟨source, target, base?, hsource, htargetContent, hbase,
    sound.placed fresh hmem htarget planned hforward hplan hmerged hsource htargetContent
      apartSource apartTarget,
    sound.completed fresh hmem htarget hhead planned, rfl⟩

/-! ### A hall of a third size -/

/-- A label that gives the hall another size than either side. -/
def sizeLabel : String := "\x7b\"size\":3\x7d"

/-- The conflict about the size is settled by the label. -/
def resizedSteps : List (String × Operation) :=
  resizeSteps ++ [("settle", .resolve "open" sizeLabel "clerk")]

/-- Whether a request by the materialize strategy comes to a new version: the hash of the
merged document is neither side's. -/
structure ComesToVersion (repository : Repository) (details : MergeDetails)
    (outcome : MergeOutcome) : Prop where
  found : repository.store.tables.mergeDetails "open" = .ok details
  strategy : details.request.strategy = label Strategy.materialize
  hashes : ∀ merged source target,
    repository.store.mergedContent details = .ok (merged, source, target) →
      Document.contentHash merged ≠ Document.contentHash source
        ∧ Document.contentHash merged ≠ Document.contentHash target
  answer : (repository.perform (.named "run") (.execute "open" "clerk")).1
    = .ok (.outcome outcome)
  created : outcome.createdVersion = true

/-- The same, as a test. -/
def comesToVersion (repository : Repository) : Bool :=
  match repository.store.tables.mergeDetails "open" with
  | .error _ => false
  | .ok details =>
    details.request.strategy == label Strategy.materialize
      && (match repository.store.mergedContent details with
        | .ok (merged, source, target) =>
          Document.contentHash merged != Document.contentHash source
            && Document.contentHash merged != Document.contentHash target
        | .error _ => false)
      && match (repository.perform (.named "run") (.execute "open" "clerk")).1 with
        | .ok (.outcome outcome) => outcome.createdVersion
        | _ => false

theorem exists_comesToVersion {repository : Repository}
    (h : repository.comesToVersion = true) :
    ∃ details outcome, repository.ComesToVersion details outcome := by
  rw [comesToVersion] at h
  split at h
  next => simp at h
  next details hdetails =>
    rw [Bool.and_eq_true, Bool.and_eq_true, beq_iff_eq] at h
    obtain ⟨⟨hstrategy, hhashes⟩, hanswer⟩ := h
    split at hanswer
    next outcome houtcome =>
      refine ⟨details, outcome, hdetails, hstrategy, fun merged source target hmerged => ?_,
        houtcome, hanswer⟩
      rw [hmerged] at hhashes
      simpa using hhashes
    next => simp at hanswer

/-- The hall comes to a size that a label gave it, in a new version. -/
theorem execute_materialized_resized :
    Reachable ((empty .standard).play resizedSteps)
      ∧ (Stamp.named "run").Fresh ((empty .standard).play resizedSteps).store
      ∧ ∃ details outcome source target merged,
        ComesToVersion ((empty .standard).play resizedSteps) details outcome
          ∧ Store.Placed ((empty .standard).play resizedSteps).store
            (((empty .standard).play resizedSteps).perform (.named "run")
              (.execute "open" "clerk")).2.store
            details.request "clerk" merged source target outcome := by
  have hruns : (empty .standard).admits
        (resizedSteps ++ [("run", .execute "open" "clerk")]) = true
      ∧ ((empty .standard).play resizedSteps).comesToVersion = true := by
    decide +kernel
  obtain ⟨hnew, hcomes⟩ := hruns
  rw [admits_append, Bool.and_eq_true] at hnew
  have hreachable : Reachable ((empty .standard).play resizedSteps) :=
    (Reachable.empty .standard).play hnew.1
      (List.forall_mem_append.mpr ⟨ordered_resizeSteps, List.forall_mem_singleton.mpr trivial⟩)
  have hfresh : (Stamp.named "run").Fresh ((empty .standard).play resizedSteps).store :=
    Stamp.fresh_named (Bool.and_eq_true_iff.mp hnew.2).1
  obtain ⟨details, outcome, hcomes⟩ := exists_comesToVersion hcomes
  obtain ⟨source, target, base?, -, -, -, hplaced, -⟩ :=
    hreachable.execute_materialized hfresh hcomes.found hcomes.strategy
      (fun merged source target hmerged =>
        ⟨fun hsame => absurd hsame (hcomes.hashes merged source target hmerged).1,
          fun hsame => absurd hsame (hcomes.hashes merged source target hmerged).2⟩)
      hcomes.answer
  exact ⟨hreachable, hfresh, details, outcome, source, target, _, hcomes, hplaced⟩

end Repository

end PlanHistory
