/-
Executing a merge request.

The contents that a request is executed on are those it was opened on, and these could be
read then.  So nothing but the request itself, its conflicts and the head of the target
branch can stand in the way:

* **`Store.planMerge_planned`** — a plan is always found (`Planned`);
* **`Records.carryOut_tables`** — a plan is carried out if the target branch is where it was;
* **`Store.execute_eq`** — what executing a request answers and leaves behind;
* **`Store.Sound.executed`** — the store stays sound.
-/
import PlanHistory.Proofs.Repository.Merges

namespace PlanHistory

variable {s : Store} {r : Records} {stamp : Stamp}

/-! ### Planning -/

/-- What the plan of a request may be, with the blobs it leaves: a version of the same plan,
nothing, or a new document that is accepted. -/
inductive Planned (s : Store) (r : Records) (stamp : Stamp) (request : MergeRequest)
    (actor : String) : MergePlan → Blobs → Prop where
  | moveHead {head : String} : Owns r.versions request.plan head →
      Planned s r stamp request actor (.moveHead head) s.blobs
  | keepHead : Planned s r stamp request actor .keepHead s.blobs
  | commit {merged : Json} : Document.Valid merged →
      (ShallowLabels propertyLimit r.conflicts → merged.nesting ≤ Json.nestingLimit) →
      Planned s r stamp request actor
        (.commit (Store.merging request actor) (stamp.prepared merged))
        (Keyed.insert stamp.id (Document.contentBytes merged) s.blobs)

namespace Store

/-- The documents that a request of a sound store is executed on diverge as its conflicts
say. -/
theorem Sound.mergedContent_since (sound : s.Sound r) {request : MergeRequest}
    (hmem : request ∈ r.merges) :
    ∃ source target base?,
      Blobs.content request.source s.blobs = .ok source
        ∧ Blobs.content request.target s.blobs = .ok target
        ∧ baseContent request.base? s.blobs = .ok base?
        ∧ ((r.conflictsOf request.id).map Conflict.ruling).map Ruling.toDivergence
          = Divergence.since base? source target
        ∧ s.mergedContent ⟨r.summary request, r.conflictsOf request.id⟩
          = .ok
            (Merge.document base? source target ((r.conflictsOf request.id).map Conflict.ruling),
              source, target) := by
  obtain ⟨source, target, base?, hsource, htarget, hbase, hfound⟩ :=
    divergencesIn_eq_ok_iff.mp (sound.merges.compared request hmem)
  refine ⟨source, target, base?, hsource, htarget, hbase, ?_, ?_⟩
  · rw [hfound, sound.conflictsOf_eq hmem, List.map_map]
    rfl
  · rw [baseContent.eq_def] at hbase
    rw [Store.mergedContent]
    simp only [content_blobs, MergeDetails.request, Records.summary]
    rw [hsource, htarget]
    dsimp only [bind, Except.bind]
    cases hb : request.base? with
    | none =>
      rw [hb] at hbase
      rw [← Except.ok.inj hbase]
      rfl
    | some base =>
      rw [hb] at hbase
      dsimp only at hbase ⊢
      rw [hbase]
      rfl

/-- The rulings of a request of a sound store record what its documents have. -/
theorem Sound.mergedContent (sound : s.Sound r) {request : MergeRequest}
    (hmem : request ∈ r.merges) :
    ∃ source target base?,
      Blobs.content request.source s.blobs = .ok source
        ∧ Blobs.content request.target s.blobs = .ok target
        ∧ baseContent request.base? s.blobs = .ok base?
        ∧ Merge.Recorded source target ((r.conflictsOf request.id).map Conflict.ruling)
        ∧ s.mergedContent ⟨r.summary request, r.conflictsOf request.id⟩
          = .ok
            (Merge.document base? source target ((r.conflictsOf request.id).map Conflict.ruling),
              source, target) := by
  obtain ⟨source, target, base?, hsource, htarget, hbase, hrulings, hmerged⟩ :=
    sound.mergedContent_since hmem
  exact ⟨source, target, base?, hsource, htarget, hbase, Merge.recorded_of_since hrulings, hmerged⟩

/-- No ruling spells more than the labels of all conflicts. -/
theorem shallow_rulings {levels : Nat} {conflicts : List Conflict}
    (h : ShallowLabels levels r.conflicts)
    (hsub : ∀ conflict ∈ conflicts, conflict ∈ r.conflicts) :
    Merge.Shallow levels (conflicts.map Conflict.ruling) := by
  intro ruling hruling resolution hresolution
  obtain ⟨conflict, hconflict, rfl⟩ := List.mem_map.mp hruling
  obtain ⟨label, hlabel, rfl⟩ := Option.map_eq_some_iff.mp hresolution
  exact h conflict (hsub conflict hconflict) label hlabel

/-- The merged document of a request is accepted, and nests as deep as the labels let it. -/
theorem Sound.valid_merged (sound : s.Sound r) {request : MergeRequest} (hmem : request ∈ r.merges)
    {merged source target : Json}
    (h : s.mergedContent ⟨r.summary request, r.conflictsOf request.id⟩
      = .ok (merged, source, target)) :
    Document.Valid merged
      ∧ (ShallowLabels propertyLimit r.conflicts → merged.nesting ≤ Json.nestingLimit) := by
  obtain ⟨source, target, base?, hsource, htarget, -, hrecorded, hmerged⟩ :=
    sound.mergedContent hmem
  obtain ⟨rfl, -⟩ := Prod.mk.inj (Except.ok.inj (h.symm.trans hmerged))
  obtain ⟨hsourceWithin, hsourceAccepted⟩ :=
    sound.versions.within (sound.merges.sources request hmem) hsource
  obtain ⟨htargetWithin, htargetAccepted⟩ :=
    sound.versions.within (sound.merges.targets request hmem) htarget
  constructor
  · exact ⟨Merge.ordered_document hrecorded hsourceWithin.ordered htargetWithin.ordered,
      Merge.validate_document hrecorded htargetWithin.ordered hsourceAccepted htargetAccepted⟩
  · intro shallow
    have hshallow : Merge.Shallow propertyLimit ((r.conflictsOf request.id).map Conflict.ruling) :=
      shallow_rulings shallow fun conflict hconflict => (Records.mem_conflictsOf.mp hconflict).1
    exact (Merge.within_document hrecorded hshallow hsourceWithin htargetWithin).nesting

/-- Under the fast-forward strategy the target branch goes to the head of the source branch. -/
theorem planMerge_of_fastForward {details : MergeDetails} {actor : String} {source : Branch}
    (h : details.request.strategy = label Strategy.fastForward)
    (hbranch : s.tables.branch details.request.sourceBranch details.request.plan = .ok source) :
    s.planMerge stamp details actor = .ok (.moveHead source.head, s.blobs) := by
  rw [planMerge]
  dsimp only
  rw [if_pos h, hbranch]
  rfl

/-- Otherwise the merged document decides, the source's content before the target's. -/
theorem planMerge_of_materialize (sound : s.Sound r) (fresh : stamp.Fresh s)
    (details : MergeDetails) (actor : String) {merged source target : Json}
    (h : details.request.strategy ≠ label Strategy.fastForward)
    (hmerged : s.mergedContent details = .ok (merged, source, target))
    (hvalid : Document.validate merged = .ok ()) :
    s.planMerge stamp details actor
      = .ok (if Document.contentHash merged = Document.contentHash source then
          (.moveHead details.request.source, s.blobs)
        else if Document.contentHash merged = Document.contentHash target then (.keepHead, s.blobs)
        else (.commit (merging details.request actor) (stamp.prepared merged),
          Keyed.insert stamp.id (Document.contentBytes merged) s.blobs)) := by
  rw [planMerge]
  dsimp only
  rw [if_neg h, hmerged]
  dsimp only [bind, Except.bind]
  split
  · rfl
  · split
    · rfl
    · rw [hvalid, prepare_eq sound fresh]
      rfl

/-- A plan goes by two comparisons of hashes: of the merged document with the source's
content, and then with the target's. -/
theorem plan_of_materialize (sound : s.Sound r) (fresh : stamp.Fresh s) {details : MergeDetails}
    {actor : String} {merged source target : Json} {plan : MergePlan} {blobs : Blobs}
    (h : details.request.strategy ≠ label Strategy.fastForward)
    (hmerged : s.mergedContent details = .ok (merged, source, target))
    (hvalid : Document.validate merged = .ok ())
    (hplan : s.planMerge stamp details actor = .ok (plan, blobs)) :
    (Document.contentHash merged = Document.contentHash source
        ∧ plan = .moveHead details.request.source ∧ blobs = s.blobs)
      ∨ (Document.contentHash merged ≠ Document.contentHash source
        ∧ Document.contentHash merged = Document.contentHash target
        ∧ plan = .keepHead ∧ blobs = s.blobs)
      ∨ (Document.contentHash merged ≠ Document.contentHash source
        ∧ Document.contentHash merged ≠ Document.contentHash target
        ∧ plan = .commit (merging details.request actor) (stamp.prepared merged)
        ∧ blobs = Keyed.insert stamp.id (Document.contentBytes merged) s.blobs) := by
  rw [planMerge_of_materialize sound fresh details actor h hmerged hvalid, Except.ok.injEq] at hplan
  split at hplan
  next hsource =>
    obtain ⟨rfl, rfl⟩ := Prod.mk.inj hplan
    exact Or.inl ⟨hsource, rfl, rfl⟩
  next hsource =>
    split at hplan
    next htarget =>
      obtain ⟨rfl, rfl⟩ := Prod.mk.inj hplan
      exact Or.inr (Or.inl ⟨hsource, htarget, rfl, rfl⟩)
    next htarget =>
      obtain ⟨rfl, rfl⟩ := Prod.mk.inj hplan
      exact Or.inr (Or.inr ⟨hsource, htarget, rfl, rfl⟩)

/-- A request of a sound store can be planned. -/
theorem planMerge_planned (sound : s.Sound r) (fresh : stamp.Fresh s) {request : MergeRequest}
    (hmem : request ∈ r.merges) (actor : String) :
    ∃ plan blobs,
      s.planMerge stamp ⟨r.summary request, r.conflictsOf request.id⟩ actor = .ok (plan, blobs)
        ∧ Planned s r stamp request actor plan blobs := by
  by_cases hforward : request.strategy = label Strategy.fastForward
  · obtain ⟨source, hsource⟩ := Records.exists_branch? (sound.merges.sides request hmem).1
    have hbranch := sound.branch_eq_ok hsource
    exact ⟨_, _, planMerge_of_fastForward hforward hbranch,
      .moveHead (sound.branches.owns_head hsource)⟩
  · obtain ⟨source, target, base?, -, -, -, -, hmerged⟩ := sound.mergedContent hmem
    obtain ⟨hvalid, hreadable⟩ := sound.valid_merged hmem hmerged
    have hplan := planMerge_of_materialize sound fresh
      ⟨r.summary request, r.conflictsOf request.id⟩ actor hforward hmerged hvalid.accepted
    split at hplan
    · exact ⟨_, _, hplan, .moveHead (sound.merges.sources request hmem)⟩
    · split at hplan
      · exact ⟨_, _, hplan, .keepHead⟩
      · exact ⟨_, _, hplan, .commit hvalid hreadable⟩

end Store

/-! ### Carrying out a plan -/

/-- The head that the target branch comes to. -/
def MergePlan.head (target : String) : MergePlan → String
  | .moveHead head => head
  | .keepHead => target
  | .commit _ prepared => prepared.id

/-- Whether the head is a version that the plan adds. -/
def MergePlan.creates : MergePlan → Bool
  | .commit _ _ => true
  | _ => false

/-- The version whose row a plan reads, if any: the head that the target branch is moved to, or
the one that a new version is put on. -/
def MergePlan.looksAt? (request : MergeRequest) : MergePlan → Option String
  | .moveHead head => some head
  | .keepHead => none
  | .commit _ _ => some request.target

/-- Whether the row that a plan reads, if any, is there and read. -/
def MergePlan.Reads (tables : Tables) (request : MergeRequest) (plan : MergePlan) : Prop :=
  ∀ id ∈ plan.looksAt? request, tables.Reads id

instance (tables : Tables) (request : MergeRequest) (plan : MergePlan) :
    Decidable (plan.Reads tables request) :=
  inferInstanceAs (Decidable (∀ id ∈ plan.looksAt? request, tables.Reads id))

theorem MergePlan.reads_keepHead {tables : Tables} {request : MergeRequest} :
    MergePlan.keepHead.Reads tables request := fun _ h => by cases h

/-- A plan that looks at a version reads its row exactly if its metadata are legible. -/
theorem MergePlan.reads_iff (storable : r.Storable) {request : MergeRequest} {plan : MergePlan}
    {id : String} (hlooks : plan.looksAt? request = some id) {version : Version}
    (hversion : r.version? id = some version) :
    plan.Reads r.tables request ↔ Legible version.metadata := by
  rw [MergePlan.Reads, hlooks]
  simp [Records.reads_tables storable, hversion]

/-- What a plan makes of the target branch. -/
def MergePlan.retarget (status : BranchStatus) (now : Timestamp) : MergePlan → Branch → Branch
  | .moveHead head, branch => { branch with head, status, updatedAt := now }
  | .keepHead, branch => branch
  | .commit _ prepared, branch =>
    { branch with head := prepared.id, status := .active, updatedAt := now }

theorem MergePlan.head_retarget (plan : MergePlan) (status : BranchStatus) (now : Timestamp)
    (branch : Branch) : (plan.retarget status now branch).head = plan.head branch.head := by
  cases plan <;> rfl

theorem MergePlan.key_retarget (plan : MergePlan) (status : BranchStatus) (now : Timestamp)
    (branch : Branch) :
    (plan.retarget status now branch).name = branch.name
      ∧ (plan.retarget status now branch).plan = branch.plan := by
  cases plan <;> exact ⟨rfl, rfl⟩

namespace Records

/-- The records once the target branch is at its new head. -/
def carriedOut (r : Records) (request : MergeRequest) (status : BranchStatus) (now : Timestamp) :
    MergePlan → Records
  | .moveHead head => r.setHead request.targetBranch request.plan head status now
  | .keepHead => r
  | .commit new prepared => r.record (r.newVersion new prepared (some request.target)) now

/-- The records once the request is completed, too, and the source branch merged. -/
def executed (r : Records) (request : MergeRequest) (status : BranchStatus) (actor : String)
    (now : Timestamp) (plan : MergePlan) : Records :=
  ((r.carriedOut request status now plan).complete request.id actor (plan.head request.target)
    now).setBranchStatus request.sourceBranch request.plan .merged now

variable {request : MergeRequest} {target : Branch}

theorem within_metadata_merging (request : MergeRequest) (actor : String) :
    (Json.object (Store.merging request actor).metadata).Within Json.nestingLimit := by
  have hlt : "merge_id" < "merged_from" := by decide
  refine Json.within_texts (List.pairwise_pair.mpr hlt) fun member hmem => ?_
  rcases List.mem_pair.mp hmem with rfl | rfl
  · exact ⟨_, rfl⟩
  · exact ⟨_, rfl⟩

/-- The version of a merge is refused exactly if the row of its parent is not read or the target
branch moved. -/
theorem parentFor_merging {version : Version} (hversion : r.version? request.target = some version)
    (hplan : version.plan = request.plan)
    (htarget : r.branch? request.targetBranch request.plan = some target) (actor : String) :
    r.parentFor (Store.merging request actor)
      = if Legible version.metadata then
          if target.head = request.target then .ok (some request.target)
          else .error (.headMoved request.targetBranch request.target target.head)
        else .error .illegible := by
  have hplace : r.checkPlace (Store.merging request actor) = .ok () :=
    checkPlace_eq_ok_iff.mpr fun _ => (within_metadata_merging request actor).nesting
  have hasked : (Store.merging request actor).parent? = some request.target := rfl
  have hbranch : r.branch? (Store.merging request actor).branch
      (Store.merging request actor).plan = some target := htarget
  rw [parentFor, hplace, checkParent, hasked, hbranch]
  by_cases hlegible : Legible version.metadata
  · dsimp only
    rw [if_pos hlegible, readVersion_of_legible hversion hlegible]
    dsimp only [bind, Except.bind]
    rw [requireOwner, if_pos (show version.plan = (Store.merging request actor).plan from hplan),
      Tables.newParent?]
    by_cases hhead : target.head = request.target
    · rw [if_pos hhead, if_pos hhead]
      rfl
    · rw [if_neg hhead, if_neg hhead]
      rfl
  · dsimp only
    rw [if_neg hlegible, readVersion_of_illegible hversion hlegible]
    rfl

theorem carryOut_tables (sound : s.Sound r) (fresh : stamp.Fresh s) (hmem : request ∈ r.merges)
    (htarget : r.branch? request.targetBranch request.plan = some target) {actor : String}
    {plan : MergePlan} {blobs : Blobs} (planned : Planned s r stamp request actor plan blobs) :
    r.tables.carryOut request plan stamp.time
      = if plan.Reads r.tables request then
          if target.head = request.target then
            .ok ((plan.head request.target, plan.creates),
              (r.carriedOut request target.status stamp.time plan).tables)
          else .error (.headMoved request.targetBranch request.target target.head)
        else .error .illegible := by
  have hbranch : r.tables.branch request.targetBranch request.plan = .ok target := by
    rw [branch_tables sound.storable, htarget]
  -- Each plan finds out in its own way whether the head moved: by moving it from where it was,
  -- by reading it, or by the parent of the version that it commits.
  cases planned with
  | @moveHead head howns =>
    obtain ⟨version, hversion, hplan⟩ := exists_version? sound.versions.idsDiffer howns
    rw [Tables.carryOut, hbranch]
    dsimp only [bind, Except.bind]
    rw [advanceHead_tables sound.storable sound.branches.namesDiffer htarget request.target
      hversion hplan, if_congr (MergePlan.reads_iff sound.storable rfl hversion) rfl rfl]
    by_cases hlegible : Legible version.metadata
    · rw [if_pos hlegible, if_pos hlegible]
      by_cases hsame : target.head = request.target
      · rw [if_pos hsame, if_pos hsame]
        rfl
      · rw [if_neg hsame, if_neg hsame]
    · rw [if_neg hlegible, if_neg hlegible]
  | keepHead =>
    rw [Tables.carryOut, hbranch, if_pos MergePlan.reads_keepHead]
    dsimp only [bind, Except.bind]
    by_cases hsame : target.head = request.target
    · rw [if_pos hsame, if_pos hsame, hsame]
      rfl
    · rw [if_neg hsame, if_neg hsame]
      rfl
  | @commit merged hvalid hreadable =>
    have hleft : r.tables.versions.greatest < greatestWord := sound.tables ▸ fresh.versionsLeft
    obtain ⟨version, hversion, hplan⟩ :=
      exists_version? sound.versions.idsDiffer (sound.merges.targets request hmem)
    have hid : r.version? (stamp.prepared merged).id = none := sound.version?_eq_none fresh
    have hrecord := recordVersion_tables sound.storable sound.versions sound.branches hleft
      (Store.merging request actor) hid
      (fun _ => ⟨fresh.time, (within_metadata_merging request actor).ordered⟩) stamp.time
    rw [Tables.carryOut]
    dsimp only
    rw [hrecord, parentFor_merging hversion hplan htarget,
      if_congr (MergePlan.reads_iff sound.storable rfl hversion) rfl rfl]
    by_cases hlegible : Legible version.metadata
    · rw [if_pos hlegible, if_pos hlegible]
      by_cases hsame : target.head = request.target
      · rw [if_pos hsame, if_pos hsame]
        rfl
      · rw [if_neg hsame, if_neg hsame]
        rfl
    · rw [if_neg hlegible, if_neg hlegible]
      rfl

end Records

namespace Store

variable {request : MergeRequest} {target : Branch} {actor : String} {plan : MergePlan}
  {blobs : Blobs}

/-- The target branch at its new head, which is a version of the plan. -/
theorem Sound.carriedOut (sound : s.Sound r) (fresh : stamp.Fresh s) (hmem : request ∈ r.merges)
    (htarget : r.branch? request.targetBranch request.plan = some target)
    (planned : Planned s r stamp request actor plan blobs) :
    Sound ⟨(r.carriedOut request target.status stamp.time plan).tables, blobs⟩
        (r.carriedOut request target.status stamp.time plan)
      ∧ Owns (r.carriedOut request target.status stamp.time plan).versions request.plan
        (plan.head request.target) := by
  cases planned with
  | moveHead howns =>
    exact ⟨sound.setHead request.targetBranch howns target.status fresh.time, howns⟩
  | keepHead =>
    exact ⟨⟨rfl, sound.versions, sound.branches, sound.merges⟩,
      sound.merges.targets request hmem⟩
  | @commit merged hvalid hreadable =>
    obtain ⟨htargetMem, hname, hplan⟩ := Records.mem_of_branch? htarget
    have named := sound.branches.named target htargetMem
    rw [hname, hplan] at named
    -- The new version stands on the recorded head, which is a version of the plan.
    have hparent : ∀ parent ∈ some request.target, Owns r.versions request.plan parent :=
      fun parent h => Option.some_inj.mp h ▸ sound.merges.targets request hmem
    constructor
    · exact sound.record
        (r.newVersion (merging request actor) (stamp.prepared merged) (some request.target))
        ⟨fresh.time, (Records.within_metadata_merging request actor).ordered⟩
        (sound.version?_eq_none fresh) rfl hparent fresh.safe hvalid rfl rfl named fresh.time
    · rw [Records.carriedOut, Records.versions_record]
      exact ⟨_, List.mem_append_right _ (List.mem_singleton_self _), rfl, rfl⟩

theorem merges_carriedOut (status : BranchStatus) (now : Timestamp) (plan : MergePlan) :
    (r.carriedOut request status now plan).merges = r.merges := by
  cases plan with
  | moveHead head => rfl
  | keepHead => rfl
  | commit new prepared => exact Records.merges_record _ _

theorem conflicts_carriedOut (status : BranchStatus) (now : Timestamp) (plan : MergePlan) :
    (r.carriedOut request status now plan).conflicts = r.conflicts := by
  cases plan with
  | moveHead head => rfl
  | keepHead => rfl
  | commit new prepared => exact Records.conflicts_record _ _

theorem merges_executed (status : BranchStatus) (now : Timestamp) (plan : MergePlan) :
    (r.executed request status actor now plan).merges
      = (r.complete request.id actor (plan.head request.target) now).merges := by
  show ((r.carriedOut request status now plan).complete request.id actor
    (plan.head request.target) now).merges = _
  rw [Records.complete, merges_carriedOut]
  rfl

theorem versions_carriedOut (status : BranchStatus) (now : Timestamp) (plan : MergePlan) :
    (r.carriedOut request status now plan).versions
      = match plan with
        | .commit new prepared =>
          r.versions ++ [r.newVersion new prepared (some request.target)]
        | _ => r.versions := by
  cases plan with
  | moveHead head => rfl
  | keepHead => rfl
  | commit new prepared => exact Records.versions_record _ _

/-- The branches once a plan is carried out: only the target branch changes. -/
theorem branches_carriedOut (htarget : r.branch? request.targetBranch request.plan = some target)
    (planned : Planned s r stamp request actor plan blobs) (status : BranchStatus)
    (now : Timestamp) :
    (r.carriedOut request status now plan).branches
      = (r.changeBranch request.targetBranch request.plan (plan.retarget status now)).branches := by
  cases planned with
  | moveHead => rfl
  | keepHead =>
    show r.branches = r.branches.map fun branch => _
    simp [MergePlan.retarget]
  | @commit merged =>
    -- The target branch is there, so that the new version does not begin it.
    show (r.record (r.newVersion (merging request actor) (stamp.prepared merged)
      (some request.target)) now).branches = _
    rw [Records.record]
    dsimp only [Records.newVersion, merging]
    rw [htarget]
    rfl

theorem branches_executed (htarget : r.branch? request.targetBranch request.plan = some target)
    (planned : Planned s r stamp request actor plan blobs) (status : BranchStatus)
    (now : Timestamp) :
    (r.executed request status actor now plan).branches
      = ((r.changeBranch request.targetBranch request.plan
          (plan.retarget status now)).setBranchStatus request.sourceBranch request.plan .merged
            now).branches := by
  have hcarried := branches_carriedOut htarget planned status now
  show (r.carriedOut request status now plan).branches.map _ = _
  rw [hcarried]
  rfl

/-- The target branch comes to the head that the plan is for. -/
theorem head_executed (htarget : r.branch? request.targetBranch request.plan = some target)
    (hsame : target.head = request.target) (planned : Planned s r stamp request actor plan blobs)
    (status : BranchStatus) (now : Timestamp) :
    ((r.executed request status actor now plan).branch? request.targetBranch request.plan).map
        (fun branch => branch.head)
      = some (plan.head request.target) := by
  rw [Records.branch?, branches_executed htarget planned, ← Records.branch?,
    Records.head_setBranchStatus, Records.branch?_changeBranch_self htarget
      (MergePlan.key_retarget plan status now), Option.map_some,
    MergePlan.head_retarget, hsame]

theorem Sound.complete (sound : s.Sound r) (id actor : String) {result : String} {now : Timestamp}
    (hnow : now.Writable)
    (howns : ∀ request ∈ r.merges, request.id = id → Owns r.versions request.plan result) :
    Sound ⟨(r.complete id actor result now).tables, s.blobs⟩ (r.complete id actor result now) := by
  refine sound.withMerges (sound.merges.change _ _ (fun _ => ⟨rfl, rfl, rfl, rfl, rfl, rfl, rfl⟩)
    (fun request h => ⟨h.createdAt, fun time htime => Option.some_inj.mp htime ▸ hnow⟩) ?_)
  intro request hmem hid found hfound
  rw [← Option.some_inj.mp hfound]
  exact howns request hmem (beq_iff_eq.mp hid)

/-- What executing a request leaves is sound. -/
theorem Sound.executed (sound : s.Sound r) (fresh : stamp.Fresh s) (hmem : request ∈ r.merges)
    (htarget : r.branch? request.targetBranch request.plan = some target)
    (planned : Planned s r stamp request actor plan blobs) :
    Sound ⟨(r.executed request target.status actor stamp.time plan).tables, blobs⟩
      (r.executed request target.status actor stamp.time plan) := by
  obtain ⟨hsound, howns⟩ := sound.carriedOut fresh hmem htarget planned
  refine Sound.setBranchStatus (hsound.complete request.id actor fresh.time ?_)
    request.sourceBranch request.plan .merged fresh.time
  intro other hother hid
  rw [merges_carriedOut] at hother
  rw [List.inj_on_of_nodup_map sound.merges.idsDiffer hother hmem hid]
  exact howns

theorem applyMerge_tables (sound : s.Sound r) (fresh : stamp.Fresh s) (hmem : request ∈ r.merges)
    (htarget : r.branch? request.targetBranch request.plan = some target)
    (planned : Planned s r stamp request actor plan blobs)
    (hresolved : r.tables.countUnresolved request.id = 0) :
    r.tables.applyMerge request plan actor stamp.time
      = if plan.Reads r.tables request then
          if target.head = request.target then
            .ok (⟨request.id, plan.head request.target, plan.creates⟩,
              (r.executed request target.status actor stamp.time plan).tables)
          else .error (.headMoved request.targetBranch request.target target.head)
        else .error .illegible := by
  have hcarry := Records.carryOut_tables sound fresh hmem htarget planned
  obtain ⟨-, howns⟩ := sound.carriedOut fresh hmem htarget planned
  obtain ⟨changed, hcomplete⟩ := Records.completeMerge_tables request.id actor stamp.time
    (Records.isSome_version? howns)
  rw [Tables.applyMerge]
  dsimp only
  rw [hresolved, if_neg (by decide), hcarry]
  by_cases hreads : plan.Reads r.tables request
  swap
  · rw [if_neg hreads, if_neg hreads]
    rfl
  rw [if_pos hreads, if_pos hreads]
  by_cases hsame : target.head = request.target
  · rw [if_pos hsame, if_pos hsame]
    dsimp only [bind, Except.bind, pure, Except.pure]
    rw [hcomplete]
    dsimp only [Except.mapError]
    rw [Records.setBranchStatus_tables]
    rfl
  · rw [if_neg hsame, if_neg hsame]
    rfl

/-! ### Executing a request -/

theorem abandon_planned (sound : s.Sound r) (fresh : stamp.Fresh s)
    (planned : Planned s r stamp request actor plan blobs) : abandon plan blobs = s.blobs := by
  cases planned with
  | moveHead => rfl
  | keepHead => rfl
  | commit => exact Blobs.discard_insert fresh.safe (sound.blob_eq_none fresh)

/-- A planned request is executed if the row that the plan reads is read and the target branch
is where it was. -/
theorem attemptMerge_eq (sound : s.Sound r) (fresh : stamp.Fresh s) (hmem : request ∈ r.merges)
    (htarget : r.branch? request.targetBranch request.plan = some target)
    (hplan : s.planMerge stamp ⟨r.summary request, r.conflictsOf request.id⟩ actor
      = .ok (plan, blobs))
    (planned : Planned s r stamp request actor plan blobs)
    (hresolved : r.tables.countUnresolved request.id = 0) :
    s.attemptMerge stamp ⟨r.summary request, r.conflictsOf request.id⟩ actor
      = if plan.Reads r.tables request then
          if target.head = request.target then
            (.ok ⟨request.id, plan.head request.target, plan.creates⟩,
              ⟨(r.executed request target.status actor stamp.time plan).tables, blobs⟩)
          else (.error (.headMoved request.targetBranch request.target target.head), s)
        else (.error .illegible, s) := by
  have happly := applyMerge_tables sound fresh hmem htarget planned hresolved
  rw [attemptMerge, hplan, sound.tables]
  dsimp only [MergeDetails.request, Records.summary]
  rw [happly, abandon_planned sound fresh planned]
  by_cases hreads : plan.Reads r.tables request
  swap
  · rw [if_neg hreads, if_neg hreads, ← sound.tables]
  rw [if_pos hreads, if_pos hreads]
  by_cases hsame : target.head = request.target
  · rw [if_pos hsame, if_pos hsame]
  · rw [if_neg hsame, if_neg hsame, ← sound.tables]

/-- What executing a request of a sound store answers and leaves behind. -/
theorem execute_eq (sound : s.Sound r) (fresh : stamp.Fresh s) {id : String}
    (hrequest : r.merge? id = some request) (actor : String) :
    ∃ target plan blobs, r.branch? request.targetBranch request.plan = some target
      ∧ Planned s r stamp request actor plan blobs
      ∧ s.planMerge stamp ⟨r.summary request, r.conflictsOf id⟩ actor = .ok (plan, blobs)
      ∧ s.execute stamp id actor
        = if request.status.isTerminal then (.error (.mergeOver id (label request.status)), s)
          else if r.tables.countUnresolved id ≠ 0 then
            (.error (.unresolved id (r.tables.countUnresolved id)), s)
          else if plan.Reads s.tables request then
            if target.head = request.target then
              (.ok ⟨id, plan.head request.target, plan.creates⟩,
                ⟨(r.executed request target.status actor stamp.time plan).tables, blobs⟩)
            else (.error (.headMoved request.targetBranch request.target target.head), s)
          else (.error .illegible, ⟨(r.fail id).tables, s.blobs⟩) := by
  obtain rfl := Records.id_of_merge? hrequest
  have hmem : request ∈ r.merges := List.mem_of_find?_eq_some hrequest
  obtain ⟨target, htarget⟩ := Records.exists_branch? (sound.merges.sides request hmem).2
  obtain ⟨plan, blobs, hplan, planned⟩ := planMerge_planned sound fresh hmem actor
  refine ⟨target, plan, blobs, htarget, planned, hplan, ?_⟩
  have hcount : (MergeDetails.mk (r.summary request) (r.conflictsOf request.id)).unresolved
      = r.tables.countUnresolved request.id := (Records.countUnresolved_tables request.id).symm
  -- The request is checked as it was read; the conflicts are counted again in the tables.
  have hexecutable : executable request.id ⟨r.summary request, r.conflictsOf request.id⟩
      = if request.status.isTerminal then .error (.mergeOver request.id (label request.status))
        else if r.tables.countUnresolved request.id ≠ 0 then
          .error (.unresolved request.id (r.tables.countUnresolved request.id))
        else .ok () := by
    rw [executable, hcount]
    rfl
  rw [execute, sound.tables, Records.mergeDetails_tables sound.storable, hrequest]
  dsimp only
  rw [hexecutable]
  by_cases hover : request.status.isTerminal = true
  · rw [if_pos hover, if_pos hover]
  rw [if_neg hover, if_neg hover]
  by_cases hresolved : r.tables.countUnresolved request.id = 0
  · rw [if_neg (not_not_intro hresolved), if_neg (not_not_intro hresolved)]
    dsimp only
    rw [attemptMerge_eq sound fresh hmem htarget hplan planned hresolved]
    by_cases hreads : plan.Reads r.tables request
    swap
    -- Not to read a row is a failure of storage.
    · rw [if_neg hreads, if_neg hreads]
      show (Except.error Failure.illegible, Store.mk (s.tables.setMergeStatus request.id .failed).2
        s.blobs) = _
      rw [sound.tables, Records.setMergeStatus_tables]
    rw [if_pos hreads, if_pos hreads]
    by_cases hsame : target.head = request.target
    · simp only [if_pos hsame]
    · simp only [if_neg hsame]
      rfl
  · rw [if_pos hresolved, if_pos hresolved]

/-! ### What a merge of contents comes to -/

/-- The outcome of a merge by the contents of its two heads and the merged document: the
source's content is preferred to the target's, and a version is made only of another. -/
def contentOutcome (request : MergeRequest) (new : String) (source target merged : Json) :
    MergeOutcome :=
  if Document.contentHash merged = Document.contentHash source then
    ⟨request.id, request.source, false⟩
  else if Document.contentHash merged = Document.contentHash target then
    ⟨request.id, request.target, false⟩
  else ⟨request.id, new, true⟩

/-- The version whose row is read on the way to the outcome, if any. -/
def contentLooksAt? (request : MergeRequest) (source target merged : Json) : Option String :=
  if Document.contentHash merged = Document.contentHash source then some request.source
  else if Document.contentHash merged = Document.contentHash target then none
  else some request.target

theorem eq_of_mem_contentLooksAt? {request : MergeRequest} {source target merged : Json}
    {read : String} (h : read ∈ contentLooksAt? request source target merged) :
    read = request.source ∨ read = request.target := by
  rw [contentLooksAt?] at h
  split at h
  · exact Or.inl (Option.some_inj.mp h).symm
  · split at h
    · cases h
    · exact Or.inr (Option.some_inj.mp h).symm

/-- What a merge leaves behind: the target branch is at the head of the outcome, and either
no version is new, or the head is one with the merged document on top of the old head. -/
structure Merged (before after : Store) (request : MergeRequest) (merged : Json)
    (outcome : MergeOutcome) : Prop where
  head : ∃ branch, after.tables.branch request.targetBranch request.plan = .ok branch
    ∧ branch.head = outcome.head
  kept : outcome.createdVersion = false →
    after.tables.versions = before.tables.versions ∧ after.blobs = before.blobs
  created : outcome.createdVersion = true →
    after.tables.parent? outcome.head = some (some request.target)
      ∧ Blobs.read? outcome.head after.blobs = some (Document.contentBytes merged)

/-- The version that executing a request adds is found. -/
theorem version?_executed (sound : s.Sound r) (fresh : stamp.Fresh s) (hmem : request ∈ r.merges)
    (htarget : r.branch? request.targetBranch request.plan = some target) {merged : Json}
    (planned : Planned s r stamp request actor
      (.commit (merging request actor) (stamp.prepared merged)) blobs) :
    (r.executed request target.status actor stamp.time
        (.commit (merging request actor) (stamp.prepared merged))).version? stamp.id
      = some (r.newVersion (merging request actor) (stamp.prepared merged)
          (some request.target)) := by
  have hsound := sound.executed fresh hmem htarget planned
  have hversions : (r.executed request target.status actor stamp.time
        (.commit (merging request actor) (stamp.prepared merged))).versions
      = r.versions ++ [r.newVersion (merging request actor) (stamp.prepared merged)
        (some request.target)] :=
    versions_carriedOut target.status stamp.time _
  exact Records.version?_of_mem hsound.versions.idsDiffer
    (hversions ▸ List.mem_append_right _ (List.mem_singleton_self _))

theorem merged_executed (sound : s.Sound r) (fresh : stamp.Fresh s) (hmem : request ∈ r.merges)
    (htarget : r.branch? request.targetBranch request.plan = some target)
    (hhead : target.head = request.target) (planned : Planned s r stamp request actor plan blobs)
    {merged : Json}
    (hblobs : plan.creates = true →
      blobs = Keyed.insert stamp.id (Document.contentBytes merged) s.blobs) :
    Merged s ⟨(r.executed request target.status actor stamp.time plan).tables, blobs⟩ request
      merged ⟨request.id, plan.head request.target, plan.creates⟩ := by
  have hsound := sound.executed fresh hmem htarget planned
  refine ⟨?_, ?_, ?_⟩
  · have hbranch := head_executed htarget hhead planned target.status stamp.time
    obtain ⟨branch, hfound, hbranchHead⟩ := Option.map_eq_some_iff.mp hbranch
    exact ⟨branch, hsound.branch_eq_ok hfound, hbranchHead⟩
  · intro hcreates
    cases planned with
    | moveHead => exact ⟨by rw [sound.tables]; rfl, rfl⟩
    | keepHead => exact ⟨by rw [sound.tables]; rfl, rfl⟩
    | commit => simp [MergePlan.creates] at hcreates
  · intro hcreates
    cases planned with
    | moveHead => simp [MergePlan.creates] at hcreates
    | keepHead => simp [MergePlan.creates] at hcreates
    | @commit other hvalid hreadable =>
      constructor
      · have planned : Planned s r stamp request actor
            (.commit (merging request actor) (stamp.prepared other)) _ :=
          .commit hvalid hreadable
        have hversion := version?_executed sound fresh hmem htarget planned
        show Tables.parent? _ stamp.id = _
        rw [Records.parent?_tables, hversion]
        rfl
      · rw [hblobs hcreates]
        exact Blobs.read?_insert_self fresh.safe

/-- A request whose merged document is known comes to what the contents say. -/
theorem execute_of_materialize (sound : s.Sound r) (fresh : stamp.Fresh s) {id : String}
    (hrequest : r.merge? id = some request)
    (hstrategy : request.strategy ≠ label Strategy.fastForward)
    (hopen : request.status.isTerminal = false) (hsettled : r.tables.countUnresolved id = 0)
    (htarget : r.branch? request.targetBranch request.plan = some target)
    (hhead : target.head = request.target) {merged sourceContent targetContent : Json}
    (hmerged : s.mergedContent ⟨r.summary request, r.conflictsOf id⟩
      = .ok (merged, sourceContent, targetContent))
    (hreads : ∀ read ∈ contentLooksAt? request sourceContent targetContent merged,
      s.tables.Reads read)
    (actor : String) :
    ∃ after,
      s.execute stamp id actor
          = (.ok (contentOutcome request stamp.id sourceContent targetContent merged), after)
        ∧ Merged s after request merged
          (contentOutcome request stamp.id sourceContent targetContent merged) := by
  obtain rfl := Records.id_of_merge? hrequest
  have hmem : request ∈ r.merges := List.mem_of_find?_eq_some hrequest
  obtain ⟨hvalid, -⟩ := sound.valid_merged hmem hmerged
  obtain ⟨found, plan, blobs, hfound, planned, hplan, hexecute⟩ :=
    execute_eq sound fresh hrequest actor
  obtain rfl := Option.some_inj.mp (htarget.symm.trans hfound)
  rw [if_neg (by rw [hopen]; decide), if_neg (not_not_intro hsettled)] at hexecute
  have hforward : (MergeDetails.mk (r.summary request) (r.conflictsOf request.id)).request.strategy
      ≠ label Strategy.fastForward := hstrategy
  -- The plan and the outcome go by the same two comparisons of hashes.
  have houtcome : (⟨request.id, plan.head request.target, plan.creates⟩ : MergeOutcome)
        = contentOutcome request stamp.id sourceContent targetContent merged
      ∧ plan.looksAt? request = contentLooksAt? request sourceContent targetContent merged
      ∧ (plan.creates = true →
        blobs = Keyed.insert stamp.id (Document.contentBytes merged) s.blobs) := by
    rw [contentOutcome, contentLooksAt?]
    rcases plan_of_materialize sound fresh hforward hmerged hvalid.accepted hplan with
      ⟨hsame, rfl, rfl⟩ | ⟨hne, hsame, rfl, rfl⟩ | ⟨hne, hdiffers, rfl, rfl⟩
    · rw [if_pos hsame, if_pos hsame]
      exact ⟨rfl, rfl, fun hcreates => by simp [MergePlan.creates] at hcreates⟩
    · rw [if_neg hne, if_pos hsame, if_neg hne, if_pos hsame]
      exact ⟨rfl, rfl, fun hcreates => by simp [MergePlan.creates] at hcreates⟩
    · rw [if_neg hne, if_neg hdiffers, if_neg hne, if_neg hdiffers]
      exact ⟨rfl, rfl, fun _ => rfl⟩
  obtain ⟨houtcome, hlooks, hcreated⟩ := houtcome
  rw [if_pos (show plan.Reads s.tables request from fun read hread => hreads read (hlooks ▸ hread)),
    if_pos hhead, houtcome] at hexecute
  have hresult := merged_executed sound fresh hmem htarget hhead planned hcreated
  rw [houtcome] at hresult
  exact ⟨_, hexecute, hresult⟩

end Store

end PlanHistory
