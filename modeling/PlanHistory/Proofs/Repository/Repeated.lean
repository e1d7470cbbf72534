/-
Merging a branch again.

Under one policy every request has the strategy of the policy, and the base that its versions
have to this day (`Records.OpenedUnder`).  So if a request is executed with all its conflicts
settled for the source, and its source branch was not moved, then opening it again compares the
source with what was merged for it, against the same base.  Nothing diverges, and executing the
second request leaves the head where the first has put it.

* **`Store.Step.openedUnder`** — one step under the policy keeps this of all requests;
* **`Store.merge_absorbed`** — a request whose source is absorbed by its target is opened and
  executed, and the head stays;
* **`Store.Step.absorbs`** — executing a request settled for the source leaves such a target;
* **`Repository.ReachableUnder.merge_again`** — a run, and the two requests.
-/
import PlanHistory.Proofs.Conflict.Absorbed
import PlanHistory.Proofs.Repository.BranchStep
import PlanHistory.Proofs.Repository.Contained
import PlanHistory.Proofs.Repository.Integrity
import PlanHistory.Proofs.Repository.OwnRules

namespace PlanHistory

/-! ### Bases -/

/-- The base of two versions, if they are compared against one. -/
def Tables.baseFor (detection : Detection) (source target : String) (tables : Tables) :
    Except Failure (Option String) :=
  match detection with
  | .threeWay => tables.mergeBase source target
  | .twoWay => .ok none

namespace Records

variable {r r' : Records} {blobs : Blobs} {detection : Detection} {source target : String}
  {plan : PlanId}

theorem mergeHeads_of_baseFor (storable : r.Storable) {request : NewMerge}
    {sourceBranch targetBranch : Branch}
    (hsource : r.branch? request.sourceBranch request.plan = some sourceBranch)
    (htarget : r.branch? request.targetBranch request.plan = some targetBranch)
    {base? : Option String}
    (hbase : r.tables.baseFor detection sourceBranch.head targetBranch.head = .ok base?) :
    r.tables.mergeHeads detection request = .ok (sourceBranch.head, targetBranch.head, base?) := by
  rw [Tables.mergeHeads, branch_tables storable, branch_tables storable, hsource, htarget]
  dsimp only [bind, Except.bind]
  cases detection with
  | threeWay =>
    have hbase : r.tables.mergeBase sourceBranch.head targetBranch.head = .ok base? := hbase
    dsimp only
    rw [hbase]
    rfl
  | twoWay =>
    obtain rfl := Except.ok.inj hbase
    rfl

theorem baseFor_of_mergeHeads {request : NewMerge} {base? : Option String}
    (h : r.tables.mergeHeads detection request = .ok (source, target, base?)) :
    r.tables.baseFor detection source target = .ok base? := by
  obtain ⟨sourceBranch, -, hrest⟩ := bind_eq_ok_iff.mp h
  obtain ⟨targetBranch, -, hfound⟩ := bind_eq_ok_iff.mp hrest
  cases detection with
  | twoWay =>
    obtain ⟨-, hpair⟩ := Prod.mk.inj (Except.ok.inj hfound)
    exact congrArg Except.ok (Prod.mk.inj hpair).2
  | threeWay =>
    obtain ⟨known?, hknown, hheads⟩ := bind_eq_ok_iff.mp hfound
    obtain ⟨rfl, hpair⟩ := Prod.mk.inj (Except.ok.inj hheads)
    obtain ⟨rfl, rfl⟩ := Prod.mk.inj hpair
    exact hknown

/-- The base of two versions stays. -/
theorem baseFor_of_longer (sound : VersionsSound r.versions blobs)
    (h : r.versions <+: r'.versions) (hsource : Owns r.versions plan source)
    (htarget : Owns r.versions plan target) :
    r'.tables.baseFor detection source target = r.tables.baseFor detection source target := by
  cases detection with
  | threeWay => exact mergeBase_of_longer sound h hsource htarget
  | twoWay => rfl

/-- A version is its own base. -/
theorem exists_baseFor_self (sound : VersionsSound r.versions blobs)
    (howns : Owns r.versions plan source) :
    ∃ base?, r.tables.baseFor detection source source = .ok base?
      ∧ (base? = none ∨ base? = some source) := by
  cases detection with
  | threeWay =>
    obtain ⟨chain, hchain, hnodup⟩ := lineage_of_owns sound howns
    exact ⟨some source, Tables.mergeBase_of_descends hchain hchain hnodup .refl, Or.inr rfl⟩
  | twoWay => exact ⟨none, rfl, Or.inl rfl⟩

/-- A new version on top of the target has the target's base. -/
theorem baseFor_of_child (sound : VersionsSound r.versions blobs) {blobs' : Blobs}
    (sound' : VersionsSound r'.versions blobs') (h : r.versions <+: r'.versions) {id : String}
    (hnew : r.version? id = none) (howns : Owns r'.versions plan id)
    (hparent : r'.tables.IsParent id target) (hsource : Owns r.versions plan source)
    (htarget : Owns r.versions plan target) :
    r'.tables.baseFor detection source id = r.tables.baseFor detection source target := by
  cases detection with
  | twoWay => rfl
  | threeWay =>
    obtain ⟨ancestors, hlineage, hnodup⟩ := lineage_of_owns sound hsource
    obtain ⟨chain, hchain, -⟩ := lineage_of_owns sound htarget
    have hlineage' := lineage_of_longer h hlineage
    have hchain' := lineage_of_longer h hchain
    obtain ⟨more, hmore, hmoreNodup⟩ := lineage_of_owns sound' howns
    obtain rfl := (Tables.Lineage.child hparent hchain').unique hmore
    -- All ancestors of the source are versions that were there before.
    have hold : id ∉ ancestors := by
      intro hmem
      have hbefore := owns_of_descends sound hsource (hlineage.mem_iff.mp hmem)
      have hfound := isSome_version? hbefore
      rw [hnew] at hfound
      simp at hfound
    exact (Tables.mergeBase_of_child hlineage' hnodup hchain' hparent hmoreNodup hold).trans
      (mergeBase_of_longer sound h hsource htarget)

/-! ### Requests under one policy -/

/-- Whether every request was opened under a policy: it has the policy's strategy, and the base
that the policy has its versions compared against. -/
structure OpenedUnder (r : Records) (policy : Policy) : Prop where
  strategies : ∀ request ∈ r.merges, request.strategy = label policy.strategy
  bases : ∀ request ∈ r.merges,
    r.tables.baseFor policy.detection request.source request.target = .ok request.base?

theorem openedUnder_empty (policy : Policy) : Records.empty.OpenedUnder policy := by
  constructor <;> simp [Records.empty]

/-- Requests that are as they were opened stay under their policy, whatever versions are
added. -/
theorem OpenedUnder.mono {policy : Policy} (h : r.OpenedUnder policy)
    (merges : MergesSound r.versions r.branches blobs r.merges r.conflicts)
    (versions : VersionsSound r.versions blobs) (hlonger : r.versions <+: r'.versions)
    (hsame : ∀ request ∈ r'.merges, ∃ old ∈ r.merges, request.asOpened = old.asOpened) :
    r'.OpenedUnder policy := by
  constructor
  · intro request hmem
    obtain ⟨old, hold, hopened⟩ := hsame request hmem
    have hstrategy := congrArg (fun opened => opened.strategy) hopened
    exact hstrategy.trans (h.strategies old hold)
  · intro request hmem
    obtain ⟨old, hold, hopened⟩ := hsame request hmem
    have hsource : request.source = old.source := congrArg (fun opened => opened.source) hopened
    have htarget : request.target = old.target := congrArg (fun opened => opened.target) hopened
    have hbase : request.base? = old.base? := congrArg (fun opened => opened.base?) hopened
    rw [hsource, htarget, hbase, baseFor_of_longer versions hlonger (merges.sources old hold)
      (merges.targets old hold)]
    exact h.bases old hold

end Records

namespace Store

variable {s : Store} {r r' : Records} {policy : Policy} {stamp : Stamp} {operation : Operation}
  {answer : Except Failure Answer} {blobs : Blobs}

/-- One step under a policy keeps all requests under it. -/
theorem Step.openedUnder (step : s.Step r policy stamp operation answer r' blobs)
    (sound : s.Sound r) (h : r.OpenedUnder policy) : r'.OpenedUnder policy := by
  have hversions := step.versions_longer
  have kept (hmerges : r'.merges = r.merges) : r'.OpenedUnder policy :=
    h.mono sound.merges sound.versions hversions fun request hmem =>
      ⟨request, hmerges ▸ hmem, rfl⟩
  induction step with
  | restored _ _ _ ih => exact ih hversions kept
  | committed => exact kept (Records.merges_record _ _)
  | @opened request source target base? found hcheck hheads hfound =>
    obtain ⟨⟨sourceBranch, hsource, rfl⟩, ⟨targetBranch, htarget, rfl⟩, -⟩ :=
      Records.mergeHeads_tables sound.storable sound.versions sound.branches _ hheads
    have hbase := @Records.baseFor_of_longer _ _ _ policy.detection _ _ _ sound.versions hversions
      (sound.branches.owns_head hsource) (sound.branches.owns_head htarget)
    refine
      { strategies := forall_mem_concat h.strategies rfl
        bases := forall_mem_concat (fun old hold => ?_)
          (hbase.trans (Records.baseFor_of_mergeHeads hheads)) }
    exact (Records.baseFor_of_longer sound.versions hversions (sound.merges.sources old hold)
      (sound.merges.targets old hold)).trans (h.bases old hold)
  | @executed request target actor plan blobs =>
    refine h.mono sound.merges sound.versions hversions fun other hmem => ?_
    rw [merges_executed] at hmem
    rcases Records.mem_complete.mp hmem with ⟨hother, -⟩ | ⟨old, hold, -, rfl⟩
    · exact ⟨other, hother, rfl⟩
    · exact ⟨old, hold, rfl⟩
  | abandoned =>
    refine h.mono sound.merges sound.versions hversions fun other hmem => ?_
    obtain ⟨old, hold, rfl⟩ := List.mem_map.mp hmem
    refine ⟨old, hold, ?_⟩
    split
    · rfl
    · rfl
  | _ => exact kept rfl

/-! ### A request whose source is absorbed -/

/-- Whether merging one version into another under a policy finds nothing to settle and comes
to the other.  Where the head is moved there, it is moved to itself. -/
inductive Absorbs (s : Store) (policy : Policy) (source target : String) : Prop where
  | intro {base? : Option String} {sourceContent targetContent : Json}
      {baseContent? : Option Json} :
      s.tables.baseFor policy.detection source target = .ok base? →
      Blobs.content source s.blobs = .ok sourceContent →
      Blobs.content target s.blobs = .ok targetContent →
      baseContent base? s.blobs = .ok baseContent? →
      Divergence.since baseContent? sourceContent targetContent = [] →
      Merge.document baseContent? sourceContent targetContent [] = targetContent →
      (policy.strategy = .fastForward
          ∨ Document.contentHash targetContent = Document.contentHash sourceContent →
        target = source ∧ s.tables.Reads source) →
      Absorbs s policy source target

/-- Executing a request without conflicts whose merged document is the target's leaves the
target branch where it was. -/
theorem execute_absorbed (sound : s.Sound r) (fresh : stamp.Fresh s) {request : MergeRequest}
    (hrequest : r.merge? request.id = some request) (hpending : request.status = .pending)
    (hstrategy : request.strategy = label policy.strategy)
    (hconflicts : r.conflictsOf request.id = []) {source target : Branch}
    (hsource : r.branch? request.sourceBranch request.plan = some source)
    (htarget : r.branch? request.targetBranch request.plan = some target)
    (hsourceHead : source.head = request.source) (htargetHead : target.head = request.target)
    {sourceContent targetContent : Json}
    (hmerged : s.mergedContent (r.details request)
      = .ok (targetContent, sourceContent, targetContent))
    (hstay : policy.strategy = .fastForward
        ∨ Document.contentHash targetContent = Document.contentHash sourceContent →
      request.target = request.source ∧ s.tables.Reads request.source) (actor : String) :
    ∃ after, s.execute stamp request.id actor = (.ok ⟨request.id, request.target, false⟩, after)
      ∧ ∃ branch, after.tables.branch request.targetBranch request.plan = .ok branch
        ∧ branch.head = request.target := by
  have hopen : request.status.isTerminal = false := by rw [hpending]; rfl
  have hsettled : r.tables.countUnresolved request.id = 0 :=
    (Records.countUnresolved_tables _).trans (congrArg (List.countP _) hconflicts)
  by_cases hforward : policy.strategy = .fastForward
  · -- The head goes to the source's, where it is.
    obtain ⟨hsame, hread⟩ := hstay (Or.inl hforward)
    obtain ⟨found, plan, blobs, hfound, planned, hplan, hexecute⟩ :=
      execute_eq sound fresh hrequest actor
    obtain rfl := Option.some_inj.mp (htarget.symm.trans hfound)
    have hmoved : s.planMerge stamp (r.details request) actor
        = .ok (.moveHead source.head, s.blobs) :=
      planMerge_of_fastForward (hstrategy.trans (congrArg label hforward))
        (sound.branch_eq_ok hsource)
    obtain ⟨rfl, rfl⟩ := Prod.mk.inj (Except.ok.inj (hmoved.symm.trans hplan))
    have hreads : (MergePlan.moveHead source.head).Reads s.tables request :=
      fun id hid => Option.some_inj.mp hid ▸ hsourceHead ▸ hread
    rw [hopen, if_neg Bool.false_ne_true, hsettled, if_neg (by decide), if_pos hreads,
      if_pos htargetHead] at hexecute
    have hhead : source.head = request.target := hsourceHead.trans hsame.symm
    have hafter := sound.executed fresh (List.mem_of_find?_eq_some hrequest) htarget planned
    obtain ⟨branch, hbranch, hbranchHead⟩ := Option.map_eq_some_iff.mp
      (head_executed htarget htargetHead planned target.status stamp.time)
    refine ⟨_, hexecute.trans ?_, branch, hafter.branch_eq_ok hbranch, hbranchHead.trans hhead⟩
    rw [MergePlan.head, hhead]
    rfl
  · -- The merged document is the target's, so that the head stays or has the source's content.
    have hmaterialize : request.strategy ≠ label Strategy.fastForward := by
      rw [hstrategy]
      cases hpolicy : policy.strategy with
      | fastForward => exact absurd hpolicy hforward
      | materialize => decide
    have hreads : ∀ read ∈ contentLooksAt? request sourceContent targetContent targetContent,
        s.tables.Reads read := by
      intro read hread
      rw [contentLooksAt?, if_pos rfl] at hread
      split at hread
      next hsame => exact Option.some_inj.mp hread ▸ (hstay (Or.inr hsame)).2
      next => cases hread
    obtain ⟨after, hexecute, hafter⟩ := execute_of_materialize sound fresh hrequest hmaterialize
      hopen hsettled htarget htargetHead hmerged hreads actor
    have houtcome : contentOutcome request stamp.id sourceContent targetContent targetContent
        = ⟨request.id, request.target, false⟩ := by
      rw [contentOutcome, if_pos rfl]
      split
      next hsame => rw [(hstay (Or.inr hsame)).1]
      next => rfl
    rw [houtcome] at hexecute hafter
    exact ⟨after, hexecute, hafter.head⟩

/-- A request that finds nothing, and whose merged document is the target's, is opened and
executed, and the target branch is where it was. -/
theorem merge_absorbed (sound : s.Sound r) (fresh : stamp.Fresh s) {request : NewMerge}
    (hne : request.sourceBranch ≠ request.targetBranch) {source target : Branch}
    (hsource : r.branch? request.sourceBranch request.plan = some source)
    (htarget : r.branch? request.targetBranch request.plan = some target)
    (h : s.Absorbs policy source.head target.head) :
    (s.openMerge stamp policy request).1 = .ok ⟨stamp.id, .pending, []⟩
      ∧ ∀ stamp' : Stamp, stamp'.Fresh (s.openMerge stamp policy request).2 → ∀ actor, ∃ after,
        (s.openMerge stamp policy request).2.execute stamp' stamp.id actor
            = (.ok ⟨stamp.id, target.head, false⟩, after)
          ∧ ∃ branch, after.tables.branch request.targetBranch request.plan = .ok branch
            ∧ branch.head = target.head := by
  obtain @⟨base?, sourceContent, targetContent, baseContent?, hbase, hsourceContent, htargetContent,
    hbaseContent, hnone, habsorbed, hstay⟩ := h
  rw [sound.tables] at hbase
  have hcheck := check_of_branches sound hsource htarget hne
  have hheads := Records.mergeHeads_of_baseFor sound.storable hsource htarget hbase
  have hfound := divergencesIn_eq_ok_iff.mpr
    ⟨_, _, _, hsourceContent, htargetContent, hbaseContent, hnone⟩
  have hopened := sound.opened fresh hheads hfound
  have hid : r.merge? stamp.id = none := sound.merge?_eq_none fresh
  rw [openMerge_of_found sound fresh hcheck hheads hfound]
  refine ⟨rfl, fun stamp' fresh' actor => ?_⟩
  have hrequest := @merge?_addMerge _
    (request.opened stamp policy.strategy (.opened []) source.head target.head base?) hid []
  have hconflicts := @conflictsOf_addMerge _ _ sound
    (request.opened stamp policy.strategy (.opened []) source.head target.head base?) hid
  have hmerged := mergedContent_of_none hopened (List.mem_of_find?_eq_some hrequest) hconflicts
    hsourceContent htargetContent hbaseContent
  rw [habsorbed] at hmerged
  exact execute_absorbed hopened fresh' hrequest rfl rfl hconflicts hsource htarget rfl rfl hmerged
    (fun hor => ⟨(hstay hor).1, reads_addMerge sound (hstay hor).2⟩) actor

/-! ### What an executed request leaves to absorb -/

/-- A version whose row is read absorbs itself. -/
theorem Sound.absorbs_self (sound : s.Sound r) (policy : Policy) {plan : PlanId} {id : String}
    (howns : Owns r.versions plan id) (hread : s.tables.Reads id) {document : Json}
    (hdocument : Blobs.content id s.blobs = .ok document) : s.Absorbs policy id id := by
  obtain ⟨base?, hbase, hself⟩ : ∃ base?, r.tables.baseFor policy.detection id id = .ok base? ∧ _ :=
    Records.exists_baseFor_self sound.versions howns
  obtain ⟨valid, -⟩ := sound.versions.holds_of_owns howns hdocument
  have hcontent : ∃ document?, baseContent base? s.blobs = .ok document?
      ∧ ∀ base ∈ document?, base.Ordered := by
    rcases hself with rfl | rfl
    · exact ⟨none, rfl, by simp⟩
    · exact ⟨some document, baseContent_some_iff.mpr ⟨document, hdocument, rfl⟩,
        fun base hmem => Option.some_inj.mp hmem ▸ valid.ordered⟩
  obtain ⟨document?, hdocument?, hordered⟩ := hcontent
  obtain ⟨hnone, hsame⟩ := Merge.document_self hordered valid
  exact .intro (sound.tables ▸ hbase) hdocument hdocument hdocument? hnone hsame
    fun _ => ⟨rfl, hread⟩

/-- What a request is executed on when all its conflicts are settled for the source. -/
theorem Sound.merged_for_source (sound : s.Sound r) {request : MergeRequest}
    (hmem : request ∈ r.merges)
    (hlabels : ∀ conflict ∈ r.conflictsOf request.id,
      conflict.resolution?.map Resolution.ofLabel = some .sourceWins) :
    ∃ source target base? merged, Blobs.content request.source s.blobs = .ok source
      ∧ Blobs.content request.target s.blobs = .ok target
      ∧ baseContent request.base? s.blobs = .ok base?
      ∧ s.mergedContent (r.details request) = .ok (merged, source, target)
      ∧ merged.Within Json.nestingLimit
      ∧ Divergence.since base? source merged = []
      ∧ Merge.document base? source merged [] = merged := by
  obtain ⟨source, target, base?, hsource, htarget, hbase, hrulings, hmerged⟩ :=
    sound.mergedContent_since hmem
  obtain ⟨hsourceWithin, hsourceAccepted⟩ :=
    sound.versions.within (sound.merges.sources request hmem) hsource
  obtain ⟨htargetWithin, htargetAccepted⟩ :=
    sound.versions.within (sound.merges.targets request hmem) htarget
  have hsettled : ∀ ruling ∈ (r.conflictsOf request.id).map Conflict.ruling,
      ruling.resolution? = some .sourceWins := List.forall_mem_map.mpr hlabels
  -- The source's side spells nothing of its own.
  have hshallow : Merge.Shallow propertyLimit ((r.conflictsOf request.id).map Conflict.ruling) := by
    intro ruling hruling resolution hresolution
    obtain rfl := Option.some_inj.mp ((hsettled ruling hruling).symm.trans hresolution)
    trivial
  have hordered : ∀ base ∈ base?, base.Ordered := by
    rintro base rfl
    cases hid : request.base? with
    | none => simp [hid, baseContent] at hbase
    | some id =>
      rw [hid] at hbase
      obtain ⟨document, hdocument, hsame⟩ := baseContent_some_iff.mp hbase
      obtain rfl := Option.some_inj.mp hsame
      exact (sound.versions.within (sound.merges.bases request hmem id hid) hdocument).1.ordered
  obtain ⟨hnone, htwice⟩ := Merge.document_twice hrulings hsettled hordered
    ⟨hsourceWithin.ordered, hsourceAccepted⟩ ⟨htargetWithin.ordered, htargetAccepted⟩
  exact ⟨source, target, base?, _, hsource, htarget, hbase, hmerged,
    Merge.within_document (Merge.recorded_of_since hrulings) hshallow hsourceWithin htargetWithin,
    hnone, htwice⟩

/-- Executing a request whose conflicts are settled for the source leaves a head that absorbs
the source. -/
theorem Step.absorbs {s' : Store} {id actor : String} {outcome : MergeOutcome}
    (step : s.Step r policy stamp (.execute id actor) (.ok (.outcome outcome)) r' s'.blobs)
    (sound : s.Sound r) (sound' : s'.Sound r') (fresh : stamp.Fresh s) (h : r.OpenedUnder policy)
    {details : MergeDetails} (hdetails : s.tables.mergeDetails id = .ok details) {source : Branch}
    (hsource : s.tables.branch details.request.sourceBranch details.request.plan = .ok source)
    (hunmoved : source.head = details.request.source)
    (hlabels : ∀ conflict ∈ details.conflicts,
      conflict.resolution?.map Resolution.ofLabel = some .sourceWins)
    (apart : ∀ merged source target, s.mergedContent details = .ok (merged, source, target) →
      Document.Apart merged target) :
    s'.Absorbs policy details.request.source outcome.head := by
  have hlonger := step.versions_longer
  have hkeeps := step.keeps sound sound' fresh
  obtain ⟨request, hmem, target, plan, rfl, htarget, hhead, hplan, planned, hreads, rfl, rfl⟩ :=
    step.of_execute
  obtain rfl := Except.ok.inj ((sound.mergeDetails_of_mem hmem).symm.trans hdetails)
  have hsourceHead : source.head = request.source := hunmoved
  have hsourceOwns := sound.merges.sources request hmem
  have htargetOwns := sound.merges.targets request hmem
  obtain ⟨sourceContent, targetContent, base?, merged, hsourceContent, htargetContent, hbase,
    hmerged, hwithin, hnone, hsame⟩ := sound.merged_for_source hmem hlabels
  have moved (hmoved : (MergePlan.moveHead request.source).Reads s.tables request) :
      s'.Absorbs policy request.source request.source :=
    sound'.absorbs_self policy (hsourceOwns.of_longer hlonger) (hkeeps.reads (hmoved _ rfl))
      (hkeeps.content hsourceContent)
  by_cases hforward : request.strategy = label Strategy.fastForward
  · have hsources : s.planMerge stamp (r.details request) actor = _ :=
      planMerge_of_fastForward hforward hsource
    obtain ⟨rfl, -⟩ := Prod.mk.inj (Except.ok.inj (hsources.symm.trans hplan))
    rw [hsourceHead] at hreads ⊢
    exact moved hreads
  have hmaterialize : policy.strategy ≠ .fastForward := fun hpolicy =>
    hforward ((h.strategies request hmem).trans (congrArg label hpolicy))
  -- Unless the head went to the source's version, it has the merged document, and the base of
  -- the request is still that of the two heads.
  have kept {head : String} (hbaseFor : s'.tables.baseFor policy.detection request.source head
        = .ok request.base?) (hcontent : Blobs.content head s'.blobs = .ok merged)
      (hne : Document.contentHash merged ≠ Document.contentHash sourceContent) :
      s'.Absorbs policy request.source head :=
    .intro hbaseFor (hkeeps.content hsourceContent) hcontent (hkeeps.baseContent hbase) hnone hsame
      fun hor => absurd hor (not_or.mpr ⟨hmaterialize, hne⟩)
  obtain ⟨valid, -⟩ := sound.valid_merged hmem hmerged
  have hrest : (r.details request).request.strategy ≠ label Strategy.fastForward := hforward
  rcases plan_of_materialize sound fresh hrest hmerged valid.accepted hplan with
    ⟨-, rfl, -⟩ | ⟨hne, hhash, rfl, -⟩ | ⟨hne, -, rfl, hblobs⟩
  · exact moved hreads
  · refine kept ?_ ?_ hne
    · rw [sound'.tables]
      exact (Records.baseFor_of_longer sound.versions hlonger hsourceOwns htargetOwns).trans
        (h.bases request hmem)
    · have hread := sound.versions.read?_of_owns htargetOwns htargetContent
      rw [← apart _ _ _ hmerged hhash] at hread
      exact hkeeps.content
        ((Blobs.content_of_read? hwithin.ordered hread).trans (if_pos hwithin.nesting))
  · refine kept ?_ ?_ hne
    · have hversion := version?_executed sound fresh hmem htarget planned
      have hparent := (Records.parent?_tables _).trans (congrArg _ hversion)
      rw [sound'.tables]
      exact (Records.baseFor_of_child sound.versions sound'.versions hlonger
        (sound.version?_eq_none fresh) (Records.owns_of_version? hversion) hparent hsourceOwns
        htargetOwns).trans (h.bases request hmem)
    · have hread : Blobs.read? stamp.id s'.blobs = some (Document.contentBytes merged) :=
        hblobs ▸ Blobs.read?_insert_self fresh.safe
      exact (Blobs.content_of_read? hwithin.ordered hread).trans (if_pos hwithin.nesting)

/-- Where executing a request leaves its two branches. -/
theorem Step.heads_of_execute {id actor : String} {outcome : MergeOutcome}
    (step : s.Step r policy stamp (.execute id actor) (.ok (.outcome outcome)) r' blobs)
    (sound : s.Sound r) (hattached : r.Attached) {details : MergeDetails}
    (hdetails : s.tables.mergeDetails id = .ok details) {source : Branch}
    (hsource : r.branch? details.request.sourceBranch details.request.plan = some source) :
    details.request.sourceBranch ≠ details.request.targetBranch
      ∧ (∃ branch, r'.branch? details.request.sourceBranch details.request.plan = some branch
        ∧ branch.head = source.head)
      ∧ ∃ branch, r'.branch? details.request.targetBranch details.request.plan = some branch
        ∧ branch.head = outcome.head := by
  obtain ⟨request, hmem, target, plan, rfl, htarget, hhead, -, planned, -, rfl, rfl⟩ :=
    step.of_execute
  obtain rfl := Except.ok.inj ((sound.mergeDetails_of_mem hmem).symm.trans hdetails)
  have hne : request.sourceBranch ≠ request.targetBranch := hattached.sidesDiffer request hmem
  have hends (name : String) :
      (r.executed request target.status actor stamp.time plan).ends? name request.plan = _ :=
    ends?_executed htarget planned target.status stamp.time
  refine ⟨hne, ?_, ?_⟩
  · have hkept := (hends request.sourceBranch).trans (if_neg fun hsame => hne hsame.1)
    obtain ⟨branch, hbranch, -, hbranchHead⟩ := Records.ends?_eq_some_iff.mp
      (hkept.trans (Records.ends?_eq_some_iff.mpr ⟨source, hsource, rfl, rfl⟩))
    exact ⟨branch, hbranch, hbranchHead⟩
  · obtain ⟨branch, hbranch, -, hbranchHead⟩ := Records.ends?_eq_some_iff.mp
      ((hends request.targetBranch).trans (if_pos ⟨rfl, rfl⟩))
    rw [hhead] at hbranchHead
    exact ⟨branch, hbranch, hbranchHead⟩

end Store

/-! ### Runs -/

namespace Repository

/-- Whether an operation leaves the policy as it is. -/
def LeavesPolicy (repository : Repository) (stamp : Stamp) (operation : Operation) : Prop :=
  (repository.perform stamp operation).2.policy = repository.policy

/-- The repositories that operations lead to from an empty store, all under one policy. -/
def ReachableUnder (policy : Policy) (repository : Repository) : Prop :=
  ∃ deeds, Run LeavesPolicy (empty policy) deeds repository

variable {policy : Policy} {repository : Repository}

theorem ReachableUnder.policy_eq (h : ReachableUnder policy repository) :
    repository.policy = policy := by
  obtain ⟨deeds, hrun⟩ := h
  induction hrun with
  | refl => rfl
  | perform _ _ _ _ _ hleaves ih => exact Eq.trans hleaves ih

/-- Every request of a run under one policy is between two branches and was opened under it. -/
theorem ReachableUnder.records (h : ReachableUnder policy repository) :
    ∃ r, repository.store.Sound r ∧ r.Attached ∧ r.OpenedUnder policy := by
  obtain ⟨deeds, hrun⟩ := h
  induction hrun with
  | refl => exact ⟨_, Store.sound_empty, Records.attached_empty, Records.openedUnder_empty policy⟩
  | perform stamp operation hbefore fresh given _ ih =>
    obtain ⟨r, sound, hattached, hopened⟩ := ih
    obtain ⟨r', sound', step⟩ := sound.step fresh given
    rw [ReachableUnder.policy_eq ⟨_, hbefore⟩] at step
    exact ⟨r', sound', step.attached sound hattached, step.openedUnder sound hopened⟩

theorem leavesPolicy_of_not_isReopening {operation : Operation}
    (h : operation.isReopening = false) (stamp : Stamp) :
    LeavesPolicy repository stamp operation := by
  cases operation with
  | reopen => simp [Operation.isReopening] at h
  | _ => rfl

/-- A request to merge what another was to merge. -/
def again (request : MergeRequest) (author : String) (description? : Option String) : NewMerge :=
  ⟨request.sourceBranch, request.targetBranch, request.plan, author, description?⟩

/-- **Merging a branch again after all conflicts were settled for it changes nothing.**  The
second request is opened without conflicts, and executing it makes no version and leaves the
head where the first request has put it. -/
theorem ReachableUnder.merge_again (h : ReachableUnder policy repository) {stamp : Stamp}
    (fresh : stamp.Fresh repository.store) {id actor : String} {details : MergeDetails}
    (hdetails : repository.store.tables.mergeDetails id = .ok details) {source : Branch}
    (hsource : repository.store.tables.branch details.request.sourceBranch details.request.plan
      = .ok source)
    (hunmoved : source.head = details.request.source)
    (hlabels : ∀ conflict ∈ details.conflicts,
      conflict.resolution?.map Resolution.ofLabel = some .sourceWins)
    (apart : ∀ merged source target,
      repository.store.mergedContent details = .ok (merged, source, target) →
        Document.Apart merged target)
    {outcome : MergeOutcome} {executed : Repository}
    (hexecuted : repository.perform stamp (.execute id actor)
      = (.ok (.outcome outcome), executed)) :
    (∃ branch, executed.store.tables.branch details.request.targetBranch details.request.plan
        = .ok branch ∧ branch.head = outcome.head)
      ∧ ∀ (stamp' : Stamp) (author : String) (description? : Option String),
        stamp'.Fresh executed.store → ∃ opened,
          executed.perform stamp' (.openMerge (again details.request author description?))
              = (.ok (.opened ⟨stamp'.id, .pending, []⟩), opened)
            ∧ ∀ (stamp'' : Stamp) (actor' : String), stamp''.Fresh opened.store → ∃ repeated,
              opened.perform stamp'' (.execute stamp'.id actor')
                  = (.ok (.outcome ⟨stamp'.id, outcome.head, false⟩), repeated)
                ∧ ∃ branch,
                  repeated.store.tables.branch details.request.targetBranch details.request.plan
                    = .ok branch ∧ branch.head = outcome.head := by
  obtain ⟨r, sound, hattached, hopened⟩ := h.records
  have given : (Operation.execute id actor).Ordered := trivial
  obtain ⟨r', sound', step⟩ := sound.step fresh given
  rw [hexecuted] at sound' step
  rw [h.policy_eq] at step
  obtain ⟨hne, ⟨newSource, hnewSource, hsourceHead⟩, newTarget, hnewTarget, htargetHead⟩ :=
    step.heads_of_execute sound hattached hdetails (sound.branch?_eq hsource)
  have habsorbs : executed.store.Absorbs policy newSource.head newTarget.head := by
    rw [hsourceHead, hunmoved, htargetHead]
    exact step.absorbs sound sound' fresh hopened hdetails hsource hunmoved hlabels apart
  refine ⟨⟨newTarget, sound'.branch_eq_ok hnewTarget, htargetHead⟩,
    fun stamp' author description? fresh' => ?_⟩
  obtain ⟨hopen, hexecute⟩ : (executed.store.openMerge stamp' policy
      (again details.request author description?)).1 = _ ∧ _ :=
    Store.merge_absorbed sound' fresh' hne hnewSource hnewTarget habsorbs
  -- Neither request changes the policy.
  have hpolicy : executed.policy = policy :=
    (congrArg (fun result => result.2.policy) hexecuted).symm.trans h.policy_eq
  obtain ⟨same, store⟩ := executed
  obtain rfl : same = policy := hpolicy
  refine ⟨_, Prod.ext (congrArg (Except.map Answer.opened) hopen) rfl,
    fun stamp'' actor' fresh'' => ?_⟩
  obtain ⟨after, hafter, branch, hbranch, hhead⟩ := hexecute stamp'' fresh'' actor'
  rw [htargetHead] at hafter hhead
  refine ⟨⟨same, after⟩, ?_, branch, hbranch, hhead⟩
  exact congrArg (fun done : Except Failure MergeOutcome × Store =>
    (done.1.map Answer.outcome, (⟨same, done.2⟩ : Repository))) hafter

/-! ### A hall and a desk -/

/-- A floor with a hall of a given size, and a desk. -/
def deskFloor (size : WideInt) : Json :=
  .object [("objects", .array [.object [("id", .string "hall"), ("size", .number (.whole size))],
    .object [("id", .string "desk")]])]

theorem ordered_deskFloor (size : WideInt) : (deskFloor size).Ordered := by
  simp [deskFloor, Keyed.Ascending, Json.Ordered, Json.OrderedItems, Json.OrderedMembers,
    -String.lt_iff_ltb]

/-- Both sides give the hall another size, the target gets a desk, and the conflict about the
size is settled for the source. -/
def deskSteps : List (String × Operation) :=
  hallSteps ++ [("other", drawHall "draft" Merge.largeSize),
    ("desk", .commit (deskFloor Merge.greatSize)
      ⟨hallPlan, "main", "desk", "clerk", none, .minor, []⟩),
    ("open", .openMerge mergeDraft), ("settle", .resolve "open" "source_wins" "clerk")]

theorem ordered_deskSteps : ∀ step ∈ deskSteps, step.2.Ordered := by
  have hdesk : Operation.Ordered (.commit (deskFloor Merge.greatSize)
      ⟨hallPlan, "main", "desk", "clerk", none, .minor, []⟩) :=
    ⟨ordered_deskFloor _, ordered_noMetadata⟩
  exact List.forall_mem_append.mpr ⟨ordered_hallSteps, List.forall_mem_cons.mpr
    ⟨ordered_drawHall _ _, List.forall_mem_cons.mpr ⟨hdesk, List.forall_mem_cons.mpr
      ⟨trivial, List.forall_mem_singleton.mpr trivial⟩⟩⟩⟩

theorem not_isReopening_deskSteps : ∀ step ∈ deskSteps, step.2.isReopening = false := by
  simp [deskSteps, hallSteps, drawHall, Operation.isReopening]

/-- What a request was opened on, and the labels of its conflicts. -/
def settledRequest (id : String) (repository : Repository) :
    Option ((String × String × PlanId × String) × List (Option String)) :=
  (repository.store.tables.mergeDetails id).toOption.map fun details =>
    ((details.request.sourceBranch, details.request.targetBranch, details.request.plan,
      details.request.source), details.conflicts.map fun conflict => conflict.resolution?)

/-- The hall and the desk come together in a new version, and the second request finds nothing
and leaves it. -/
theorem merge_again_desk :
    ReachableUnder threeWay ((empty threeWay).play deskSteps)
      ∧ ∃ outcome opened repeated, outcome.createdVersion = true
        ∧ (((empty threeWay).play deskSteps).perform (.named "run") (.execute "open" "clerk")).1
          = .ok (.outcome outcome)
        ∧ (((empty threeWay).play deskSteps).perform (.named "run")
            (.execute "open" "clerk")).2.perform (.named "again") (.openMerge mergeDraft)
          = (.ok (.opened ⟨"again", .pending, []⟩), opened)
        ∧ opened.perform (.named "rerun") (.execute "again" "clerk")
          = (.ok (.outcome ⟨"again", outcome.head, false⟩), repeated) := by
  have hruns : (empty threeWay).admits (deskSteps ++ [("run", .execute "open" "clerk"),
        ("again", .openMerge mergeDraft), ("rerun", .execute "again" "clerk")]) = true
      ∧ ((empty threeWay).play deskSteps).comesToVersion = true
      ∧ ((empty threeWay).play deskSteps).headOf "draft" = some "other"
      ∧ ((empty threeWay).play deskSteps).settledRequest "open"
        = some (("draft", "main", hallPlan, "other"), [some "source_wins"]) := by
    decide +kernel
  obtain ⟨hnew, hcomes, hdraft, hsettled⟩ := hruns
  rw [admits_append, Bool.and_eq_true] at hnew
  obtain ⟨hsteps, hmerges⟩ := hnew
  obtain ⟨hrun, hlater⟩ := Bool.and_eq_true_iff.mp hmerges
  obtain ⟨hagain, hlast⟩ := Bool.and_eq_true_iff.mp hlater
  obtain ⟨hrerun, -⟩ := Bool.and_eq_true_iff.mp hlast
  have hreachable : ReachableUnder threeWay ((empty threeWay).play deskSteps) :=
    ⟨_, Run.play hsteps ordered_deskSteps fun step hmem _ =>
      leavesPolicy_of_not_isReopening (not_isReopening_deskSteps step hmem) _⟩
  obtain ⟨details, outcome, hcomes⟩ := exists_comesToVersion hcomes
  obtain ⟨source, hsource, hsourceHead⟩ := exists_branch hdraft
  rw [settledRequest, hcomes.found] at hsettled
  obtain ⟨hopenedOn, hlabels⟩ := Prod.mk.inj (Option.some_inj.mp hsettled)
  simp only [Prod.mk.injEq] at hopenedOn
  obtain ⟨hbranch, htarget, hplan, hunmoved⟩ := hopenedOn
  have hrequest : again details.request "clerk" none = mergeDraft := by
    rw [again, hbranch, htarget, hplan]
    rfl
  have hsourceWins : ∀ conflict ∈ details.conflicts,
      conflict.resolution?.map Resolution.ofLabel = some .sourceWins := by
    intro conflict hmem
    have hlabel : conflict.resolution? ∈ [some "source_wins"] :=
      hlabels ▸ List.mem_map_of_mem hmem
    rw [List.mem_singleton.mp hlabel]
    rfl
  obtain ⟨-, hmerge⟩ := hreachable.merge_again (Stamp.fresh_named hrun) hcomes.found
    (by rw [hbranch, hplan]; exact hsource) (hsourceHead.trans hunmoved.symm) hsourceWins
    (fun merged source target hmerged hsame =>
      absurd hsame (hcomes.hashes merged source target hmerged).2)
    (Prod.ext hcomes.answer rfl)
  obtain ⟨opened, hopened, hexecute⟩ := hmerge (.named "again") "clerk" none
    (Stamp.fresh_named hagain)
  rw [hrequest] at hopened
  have hfresh : (Stamp.named "rerun").Fresh opened.store := by
    have hstore := congrArg (fun result => result.2.store) hopened
    exact hstore ▸ Stamp.fresh_named hrerun
  obtain ⟨repeated, hrepeated, -⟩ := hexecute (.named "rerun") "clerk" hfresh
  exact ⟨hreachable, outcome, opened, repeated, hcomes.created, hcomes.answer, hopened, hrepeated⟩

end Repository

end PlanHistory
