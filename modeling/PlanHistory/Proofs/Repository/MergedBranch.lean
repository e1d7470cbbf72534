/-
What a merged branch was merged at.

A branch is merged from the execution of a request out of it until a version is put on it.
The request merges the version that it recorded when it was opened, and by the fast-forward
strategy the one that the branch is at when it is executed (`MergeRequest.merged?`).  So the
version that a merged branch is at may be another: if it was another when the request was
executed, or a merge into the branch has brought it there since (`Deed.Brings`).

* **`Store.Step.heads`** — a step that puts no version on a branch leaves it where it is, or is
  a merge that brings it somewhere else;
* **`Repository.Run.heads`** — so does a run of such steps, for one of its deeds;
* **`Repository.Run.merged_head`** — what follows for the version that a merged branch is at.
-/
import PlanHistory.Proofs.Repository.BranchStatus
import PlanHistory.Proofs.Repository.Mirrors

namespace PlanHistory

/-- The version of the source branch that a completed request has merged: the one that it
recorded, or by the fast-forward strategy the one that the target branch came to. -/
def MergeRequest.merged? (request : MergeRequest) : Option String :=
  if request.strategy = label Strategy.fastForward then request.result? else some request.source

/-- Whether an operation sets the head of a branch by hand. -/
def Operation.setsHead : Operation → Bool
  | .updateHead .. => true
  | _ => false

/-- Whether a merge into a branch that made no version has brought the branch to a head, from
another. -/
def Deed.Brings (deed : Deed) (name : String) (plan : PlanId) (head : String) : Prop :=
  ∃ id outcome summary branch, deed.Executes id outcome
    ∧ deed.found.tables.merge id = .ok summary ∧ summary.request.targetBranch = name
    ∧ summary.request.plan = plan ∧ outcome.createdVersion = false ∧ outcome.head = head
    ∧ deed.found.tables.branch name plan = .ok branch ∧ branch.head ≠ head

/-- Whether a request was executed, as it and its source branch were then. -/
structure Deed.Merges (deed : Deed) (details : MergeDetails) (outcome : MergeOutcome)
    (source : Branch) : Prop where
  executes : deed.Executes details.request.id outcome
  request : deed.found.tables.mergeDetails details.request.id = .ok details
  source : deed.found.tables.branch details.request.sourceBranch details.request.plan = .ok source

/-! ### One step -/

namespace Store

variable {s s' : Store} {r r' : Records} {policy : Policy} {stamp : Stamp}
  {operation : Operation} {answer : Except Failure Answer} {blobs : Blobs} {name : String}
  {plan : PlanId} {id actor : String} {outcome : MergeOutcome} {details : MergeDetails}

/-- A step that neither merges a branch nor puts a version on it nor sets its head by hand leaves
it where it is, or is a merge into it that brings it somewhere else. -/
theorem Step.heads (step : s.Step r policy stamp operation answer r' blobs) (sound : s.Sound r)
    (attached : r.Attached)
    (byHand : operation.setsHead = false)
    (hcompletes : ¬ (Deed.mk s stamp operation answer).Completes name plan)
    (hrecords : ¬ (Deed.mk s stamp operation answer).Records name plan) {status : BranchStatus}
    {old : String} (h : r.standing? name plan = some (status, old)) :
    ∃ status' head, r'.standing? name plan = some (status', head)
      ∧ (head = old ∨ (Deed.mk s stamp operation answer).Brings name plan head) := by
  cases step.standingStep sound attached name plan with
  | kept _ hsame => exact ⟨status, old, hsame.trans h, Or.inl rfl⟩
  | written hversions =>
    refine absurd ((step.records_iff sound).mpr ?_) hrecords
    simp [hversions]
  | branched hnone => simp [hnone] at h
  | moved hoperation => simp [hoperation, Operation.setsHead] at byHand
  | @entered request actor head before _ hmem hoperation hname hplan hanswer _ hbefore hafter =>
    refine ⟨_, head, hafter, ?_⟩
    obtain ⟨branch, hbranch, -, rfl⟩ := Records.standing?_eq_some_iff.mp h
    -- A merge may also leave the head where it is.
    refine or_iff_not_imp_left.mpr fun hne => ⟨request.id, _, r.summary request, branch,
      ⟨actor, hoperation, hanswer⟩, sound.merge_of_mem hmem, hname, hplan, rfl, rfl,
      sound.branch_eq_ok hbranch, Ne.symm hne⟩
  | @left request actor head outcome status hmem hoperation hname hplan hanswer =>
    exact absurd ⟨request.id, outcome, r.summary request, ⟨actor, hoperation, hanswer⟩,
      sound.merge_of_mem hmem, hname, hplan⟩ hcompletes

/-- A request that is executed leaves its source branch merged where it is, and by the
fast-forward strategy the target branch comes there, too. -/
theorem Step.source_of_execute
    (step : s.Step r policy stamp (.execute id actor) (.ok (.outcome outcome)) r' blobs)
    (sound : s.Sound r) (attached : r.Attached)
    (hdetails : s.tables.mergeDetails id = .ok details) :
    ∃ source, s.tables.branch details.request.sourceBranch details.request.plan = .ok source
      ∧ r'.standing? details.request.sourceBranch details.request.plan
        = some (.merged, source.head)
      ∧ (details.request.strategy = label Strategy.fastForward → outcome.head = source.head) := by
  obtain ⟨request, hmem, target, mergePlan, rfl, htarget, -, hplan, planned, -, rfl, rfl⟩ :=
    step.of_execute
  obtain rfl := Except.ok.inj ((sound.mergeDetails_of_mem hmem).symm.trans hdetails)
  obtain ⟨source, hsource⟩ := Records.exists_branch? (sound.merges.sides request hmem).1
  have hstanding : (r.executed request target.status actor stamp.time mergePlan).standing?
      request.sourceBranch request.plan = _ :=
    standing?_executed htarget (attached.sidesDiffer request hmem) planned stamp.time
  rw [if_pos ⟨rfl, rfl⟩, hsource] at hstanding
  refine ⟨source, sound.branch_eq_ok hsource, hstanding, fun hforward => ?_⟩
  have hforwarded : s.planMerge stamp (r.details request) actor
      = .ok (.moveHead source.head, s.blobs) :=
    planMerge_of_fastForward hforward (sound.branch_eq_ok hsource)
  obtain ⟨rfl, -⟩ := Prod.mk.inj (Except.ok.inj (hplan.symm.trans hforwarded))
  rfl

/-- A request that is executed is completed with the head of the outcome. -/
theorem Step.completed_of_execute
    (step : s.Step r policy stamp (.execute id actor) (.ok (.outcome outcome)) r' s'.blobs)
    (sound : s.Sound r) (sound' : s'.Sound r') (fresh : stamp.Fresh s)
    (hdetails : s.tables.mergeDetails id = .ok details) :
    ∃ after, s'.tables.mergeDetails id = .ok after
      ∧ after.request.status = .completed ∧ after.request.result? = some outcome.head
      ∧ after.request.strategy = details.request.strategy
      ∧ after.request.source = details.request.source := by
  obtain ⟨request, hmem, target, mergePlan, rfl, htarget, hhead, -, planned, -, rfl, rfl⟩ :=
    step.of_execute
  obtain rfl := Except.ok.inj ((sound.mergeDetails_of_mem hmem).symm.trans hdetails)
  have hcompleted := (sound.completed fresh hmem htarget hhead planned).request
  rw [sound'.tables]
  exact ⟨_, hcompleted, rfl, rfl, rfl, rfl⟩

end Store

/-! ### Runs -/

namespace Repository

variable {policy : Policy} {repository first : Repository} {deeds : List Deed} {name : String}
  {plan : PlanId}

/-- Whether an operation sets no head by hand. -/
def SetsNoHead (_ : Repository) (_ : Stamp) (operation : Operation) : Prop :=
  operation.setsHead = false

/-- While a branch is neither merged nor gets a version, only merges into it bring it somewhere
else. -/
theorem Run.heads (h : Run SetsNoHead first deeds repository) {r : Records}
    (sound : first.store.Sound r) (attached : r.Attached) {status : BranchStatus} {old : String}
    (hold : r.standing? name plan = some (status, old))
    (hrests : ∀ deed ∈ deeds, ¬ deed.Completes name plan ∧ ¬ deed.Records name plan) :
    ∃ r', repository.store.Sound r' ∧ r'.Attached ∧ ∃ status' head,
      r'.standing? name plan = some (status', head)
        ∧ (head = old ∨ ∃ deed ∈ deeds, deed.Brings name plan head) := by
  induction h with
  | refl => exact ⟨r, sound, attached, status, old, hold, Or.inl rfl⟩
  | perform stamp operation _ fresh given byHand ih =>
    obtain ⟨hearlier, hlast⟩ := List.forall_mem_append.mp hrests
    obtain ⟨hcompletes, hrecords⟩ := hlast _ (List.mem_singleton_self _)
    obtain ⟨r', sound', attached', status', head, hstanding, hhead⟩ := ih hearlier
    obtain ⟨r'', sound'', step⟩ := sound'.step fresh given
    obtain ⟨status'', head', hafter, hstep⟩ :=
      step.heads sound' attached' byHand hcompletes hrecords hstanding
    refine ⟨r'', sound'', step.attached sound' attached', status'', head', hafter, ?_⟩
    rcases hstep with rfl | hbrings
    · exact hhead.imp_right fun ⟨deed, hmem, hdeed⟩ => ⟨deed, List.mem_append_left _ hmem, hdeed⟩
    · exact Or.inr ⟨_, List.mem_append_right _ (List.mem_singleton_self _), hbrings⟩

/-- A deed that completes a request merges its source branch where it is. -/
theorem Chronicle.merges (h : Chronicle first deeds) {stamp : Stamp} {operation : Operation}
    (fresh : stamp.Fresh first.store) (given : operation.Ordered)
    (hcompletes : (first.deed stamp operation).Completes name plan) :
    ∃ details outcome source after r, (first.deed stamp operation).Merges details outcome source
      ∧ details.request.sourceBranch = name ∧ details.request.plan = plan
      ∧ (first.perform stamp operation).2.store.Sound r ∧ r.Attached
      ∧ r.standing? name plan = some (.merged, source.head)
      ∧ (first.perform stamp operation).2.store.tables.mergeDetails details.request.id = .ok after
      ∧ after.request.status = .completed
      ∧ after.request.merged? = some (if details.request.strategy = label Strategy.fastForward
        then source.head else details.request.source) := by
  obtain ⟨id, outcome, summary, ⟨actor, hoperation, hanswer⟩, hsummary, rfl, rfl⟩ := hcompletes
  obtain rfl : operation = _ := hoperation
  obtain ⟨r, sound, told⟩ := h.statuses
  obtain ⟨r', sound', step⟩ := sound.step fresh given
  obtain ⟨request, hrequest, rfl⟩ := sound.merge?_eq hsummary
  obtain rfl := Records.id_of_merge? hrequest
  have hdetails := sound.mergeDetails_of_mem (List.mem_of_find?_eq_some hrequest)
  have hsame : (first.perform stamp (.execute request.id actor)).1 = .ok (.outcome outcome) :=
    hanswer
  rw [hsame] at step
  obtain ⟨source, hsource, hstanding, hforward⟩ :=
    step.source_of_execute sound told.attached hdetails
  obtain ⟨after, hafter, hcompleted, hresult, hstrategy, hrecorded⟩ :=
    step.completed_of_execute sound sound' fresh hdetails
  refine ⟨r.details request, outcome, source, after, r', ⟨⟨actor, rfl, hanswer⟩, hdetails, hsource⟩,
    rfl, rfl, sound', step.attached sound told.attached, hstanding, hafter, hcompleted, ?_⟩
  rw [MergeRequest.merged?, hresult, hstrategy, hrecorded]
  split
  next hfast => rw [hforward hfast]
  next => rfl

/-- **A branch that is merged was merged by a request that is completed, and got no version
since that was executed.**  It is at the version that the request merged, with two exceptions: by
another strategy than fast-forward it may be where it was when the request was executed, if this
was not the version that the request recorded, and it may be where a merge into it that made no
version has brought it since. -/
theorem Run.merged_head (h : Run SetsNoHead (empty policy) deeds repository) {branch : Branch}
    (hbranch : repository.store.tables.branch name plan = .ok branch)
    (hstatus : branch.status = .merged) :
    ∃ before deed since details outcome source completed, deeds = before ++ deed :: since
      ∧ deed.Merges details outcome source
      ∧ details.request.sourceBranch = name ∧ details.request.plan = plan
      ∧ (∀ later ∈ since, ¬ later.Completes name plan ∧ ¬ later.Records name plan)
      ∧ repository.store.tables.mergeDetails details.request.id = .ok completed
      ∧ completed.request.status = .completed
      ∧ (completed.request.merged? = some branch.head
        ∨ (details.request.strategy ≠ label Strategy.fastForward
          ∧ source.head ≠ details.request.source ∧ branch.head = source.head)
        ∨ ∃ later ∈ since, later.Brings name plan branch.head) := by
  obtain ⟨r, sound, told⟩ := Chronicle.statuses ⟨policy, h.anything⟩
  have hmerged : MergedLast deeds name plan := by
    refine (told.merged_iff name plan).mp ?_
    rw [Records.status?, sound.branch?_eq hbranch, Option.map_some, hstatus]
  obtain ⟨before, deed, since, rfl, hcompletes, hrests⟩ := hmerged
  -- The last request out of the branch was executed on a repository that operations lead to.
  rw [List.append_cons] at h
  obtain ⟨later, hexecuted, hsince⟩ := h.split
  obtain ⟨middle, stamp, operation, hbefore, fresh, given, -, rfl, rfl⟩ := hexecuted.of_concat
  obtain ⟨details, outcome, source, after, r', hmerges, rfl, rfl, sound', attached, hstanding,
    hafter, hcompleted, hmerged⟩ :=
    Chronicle.merges ⟨policy, hbefore.anything⟩ fresh given hcompletes
  -- A completed request stays as it is.
  obtain ⟨completed, hnow, hkept⟩ := Leads.kept
    (Chronicle.reachable ⟨policy, hexecuted.anything⟩) ⟨_, hsince.anything⟩ hafter
  obtain rfl := hkept.completed hcompleted
  refine ⟨before, _, since, details, outcome, source, completed, rfl, hmerges, rfl, rfl, hrests,
    hnow, hcompleted, ?_⟩
  obtain ⟨r'', sound'', -, status, head, hlast, hhead⟩ :=
    hsince.heads sound' attached hstanding hrests
  obtain ⟨found, hfound, -, rfl⟩ := Records.standing?_eq_some_iff.mp hlast
  obtain rfl := Option.some_inj.mp ((sound''.branch?_eq hbranch).symm.trans hfound)
  rcases hhead with hhead | hbrings
  · rw [hmerged, hhead]
    by_cases hfast : details.request.strategy = label Strategy.fastForward
    · exact Or.inl (congrArg some (if_pos hfast))
    · rw [if_neg hfast, Option.some_inj]
      exact (eq_or_ne details.request.source source.head).imp_right
        fun hne => Or.inl ⟨hfast, hne.symm, rfl⟩
  · exact Or.inr (Or.inr hbrings)

/-! ### A hall that is drawn again -/

/-- The rules by which merges only move heads. -/
def forwarding : Policy := ⟨.twoWay, .fastForward, 200⟩

theorem setsNoHead_of_all {steps : List (String × Operation)}
    (h : (steps.all fun step => !step.2.setsHead) = true) :
    ∀ step ∈ steps, ∀ middle, SetsNoHead middle (.named step.1) step.2 :=
  fun step hmem _ => (Bool.not_eq_true' _).mp (List.all_eq_true.mp h step hmem)

/-- The draft is merged at the size that it has got. -/
theorem merged_resized :
    ∃ deeds, Run SetsNoHead (empty forwarding) deeds
        ((empty forwarding).play (resizeSteps ++ settleSteps "source_wins"))
      ∧ ∃ branch before deed since details outcome source,
        ((empty forwarding).play (resizeSteps ++ settleSteps "source_wins")).store.tables.branch
            "draft" hallPlan = .ok branch
          ∧ branch.status = .merged ∧ deeds = before ++ deed :: since
          ∧ deed.Merges details outcome source := by
  have hruns : (empty forwarding).admits (resizeSteps ++ settleSteps "source_wins") = true
      ∧ (((empty forwarding).play (resizeSteps ++ settleSteps "source_wins")).store.tables.branch
        "draft" hallPlan).toOption.map (fun branch => branch.status) = some .merged := by
    decide +kernel
  obtain ⟨hnew, hmerged⟩ := hruns
  obtain ⟨branch, hbranch, hstatus⟩ := Option.map_eq_some_iff.mp hmerged
  have hrun := Run.play hnew
    (List.forall_mem_append.mpr ⟨ordered_resizeSteps, ordered_settleSteps "source_wins"⟩)
    (setsNoHead_of_all (by rfl))
  obtain ⟨before, deed, since, details, outcome, source, completed, hdeeds, hmerges, -⟩ :=
    hrun.merged_head (eq_ok_of_toOption hbranch) hstatus
  exact ⟨_, hrun, branch, before, deed, since, details, outcome, source,
    eq_ok_of_toOption hbranch, hstatus, hdeeds, hmerges⟩

/-- Whether a completed request out of a branch has merged the version that it is at. -/
def HeadMerged (repository : Repository) (branch : Branch) : Prop :=
  ∃ id details, repository.store.tables.mergeDetails id = .ok details
    ∧ details.request.status = .completed ∧ details.request.sourceBranch = branch.name
    ∧ details.request.plan = branch.plan ∧ details.request.merged? = some branch.head

/-- Whether a branch of the plan with the hall is merged at a version that no completed request
out of it is listed to have merged. -/
def overstates (name : String) (repository : Repository) : Bool :=
  match repository.store.tables.branch name hallPlan,
    repository.store.tables.mergesOf hallPlan (some .completed) with
  | .ok branch, .ok summaries =>
    branch.status == .merged && summaries.all fun summary =>
      summary.request.sourceBranch != name || summary.request.merged? != some branch.head
  | _, _ => false

theorem not_headMerged (h : Reachable repository)
    (hoverstates : repository.overstates name = true) :
    ∃ branch, repository.store.tables.branch name hallPlan = .ok branch
      ∧ branch.status = .merged ∧ ¬ repository.HeadMerged branch := by
  obtain ⟨r, sound⟩ := h.sound
  rw [overstates] at hoverstates
  split at hoverstates
  next branch summaries hbranch hsummaries =>
    obtain ⟨hstatus, hall⟩ := Bool.and_eq_true_iff.mp hoverstates
    refine ⟨branch, hbranch, beq_iff_eq.mp hstatus, ?_⟩
    obtain ⟨-, hname, hhall⟩ := Records.mem_of_branch? (sound.branch?_eq hbranch)
    rintro ⟨id, details, hdetails, hcompleted, hsource, hplan, hmerged⟩
    obtain ⟨request, hrequest, rfl⟩ := sound.of_mergeDetails hdetails
    have hsame : ∀ status ∈ some MergeStatus.completed, status = request.status :=
      fun status hsome => (Option.some_inj.mp hsome).symm.trans hcompleted.symm
    obtain ⟨listed, hlisted, hmem⟩ :=
      sound.mem_mergesOf (List.mem_of_find?_eq_some hrequest) hsame
    have hof : request.plan = hallPlan := hplan.trans hhall
    rw [hof] at hlisted
    obtain rfl := Except.ok.inj (hlisted.symm.trans hsummaries)
    have hother := List.all_eq_true.mp hall _ hmem
    rw [Bool.or_eq_true, bne_iff_ne, bne_iff_ne] at hother
    exact hother.elim (fun hne => hne (hsource.trans hname)) fun hne => hne hmerged
  next => simp at hoverstates

/-- The draft is redrawn before the request to merge it is executed. -/
def redrawnSteps : List (String × Operation) :=
  hallSteps ++
    [("open", .openMerge mergeDraft), ("late", drawHall "draft" Merge.largeSize),
      ("run", .execute "open" "clerk")]

/-- The hall is redrawn after the draft was merged, and merged into the draft. -/
def returnedSteps : List (String × Operation) :=
  hallSteps ++
    [("open", .openMerge mergeDraft), ("run", .execute "open" "clerk"),
      ("late", drawHall "main" Merge.largeSize),
      ("back", .openMerge ⟨"main", "draft", hallPlan, "clerk", none⟩),
      ("prefer", .resolve "back" "source_wins" "clerk"), ("return", .execute "back" "clerk")]

theorem ordered_redrawnSteps : ∀ step ∈ redrawnSteps, step.2.Ordered :=
  List.forall_mem_append.mpr ⟨ordered_hallSteps,
    List.forall_mem_cons.mpr ⟨trivial,
      List.forall_mem_cons.mpr ⟨ordered_drawHall _ _, List.forall_mem_singleton.mpr trivial⟩⟩⟩

theorem ordered_returnedSteps : ∀ step ∈ returnedSteps, step.2.Ordered :=
  List.forall_mem_append.mpr ⟨ordered_hallSteps,
    List.forall_mem_cons.mpr ⟨trivial, List.forall_mem_cons.mpr ⟨trivial,
      List.forall_mem_cons.mpr ⟨ordered_drawHall _ _, List.forall_mem_cons.mpr ⟨trivial,
        List.forall_mem_cons.mpr ⟨trivial, List.forall_mem_singleton.mpr trivial⟩⟩⟩⟩⟩⟩

/-- A branch may be merged at a version that no completed request has merged: at one that was
put on it before the request was executed, and at one that another merge brought it to. -/
theorem merged_beyond :
    ((∃ deeds, Run SetsNoHead (empty .standard) deeds ((empty .standard).play redrawnSteps))
        ∧ ∃ branch,
          ((empty .standard).play redrawnSteps).store.tables.branch "draft" hallPlan = .ok branch
            ∧ branch.status = .merged
            ∧ ¬ ((empty .standard).play redrawnSteps).HeadMerged branch)
      ∧ (∃ deeds, Run SetsNoHead (empty forwarding) deeds ((empty forwarding).play returnedSteps))
        ∧ ∃ branch,
          ((empty forwarding).play returnedSteps).store.tables.branch "draft" hallPlan = .ok branch
            ∧ branch.status = .merged
            ∧ ¬ ((empty forwarding).play returnedSteps).HeadMerged branch := by
  have hredrawn : (empty .standard).admits redrawnSteps = true
      ∧ ((empty .standard).play redrawnSteps).overstates "draft" = true := by
    decide +kernel
  have hreturned : (empty forwarding).admits returnedSteps = true
      ∧ ((empty forwarding).play returnedSteps).overstates "draft" = true := by
    decide +kernel
  have hrun := Run.play hredrawn.1 ordered_redrawnSteps (setsNoHead_of_all (by rfl))
  have hrun' := Run.play hreturned.1 ordered_returnedSteps (setsNoHead_of_all (by rfl))
  exact ⟨⟨⟨_, hrun⟩, not_headMerged (Chronicle.reachable ⟨_, hrun.anything⟩) hredrawn.2⟩,
    ⟨_, hrun'⟩, not_headMerged (Chronicle.reachable ⟨_, hrun'.anything⟩) hreturned.2⟩

end Repository

end PlanHistory
