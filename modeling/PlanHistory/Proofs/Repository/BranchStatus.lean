/-
The status of a branch follows the last event.

Two events tell the status of a branch: the completion of a merge request out of it
(`Deed.Completes`), and a version that is put on it by a commit, a restore or a merge
(`Deed.Records`).  A branch is merged if the last completion is later than the last version
(`MergedLast`), and otherwise active; nothing else that is done changes the status
(`Deed.Idle`), and no branch ever has another one.

* **`Store.Step.statusStep`** — what one step does to the status of a branch;
* **`Repository.Chronicle.statuses`** — the statuses that a run leaves;
* **`Repository.Chronicle.branch_status`** — the status of every branch by what was done.
-/
import PlanHistory.Proofs.Repository.Reachable
import PlanHistory.Proofs.Repository.History
import PlanHistory.Proofs.Repository.Outcome
import PlanHistory.Proofs.Repository.Standing

namespace PlanHistory

/-! ### Events -/

namespace Deed

/-- Whether a request was executed, with an outcome. -/
def Executes (deed : Deed) (id : String) (outcome : MergeOutcome) : Prop :=
  ∃ actor, deed.operation = .execute id actor ∧ deed.answer = .ok (.outcome outcome)

/-- Whether a request out of a branch was completed. -/
def Completes (deed : Deed) (name : String) (plan : PlanId) : Prop :=
  ∃ id outcome summary, deed.Executes id outcome ∧ deed.found.tables.merge id = .ok summary
    ∧ summary.request.sourceBranch = name ∧ summary.request.plan = plan

/-- Whether a version was put on a branch. -/
def Records (deed : Deed) (name : String) (plan : PlanId) : Prop :=
  ∃ version, deed.found.made? deed.operation deed.answer = some ⟨version, plan, name⟩

/-- Whether what was done tells nothing of the status of a branch: it failed, or it created a
branch, set a head, opened a request or settled a conflict, or it merged into the branch without
a version of its own. -/
inductive Idle (deed : Deed) (name : String) (plan : PlanId) : Prop where
  | failed {failure : Failure} : deed.answer = .error failure → Idle deed name plan
  | branched {request : NewBranch} : deed.operation = .createBranch request →
      Idle deed name plan
  | moved {other expected head : String} {otherPlan : PlanId} :
      deed.operation = .updateHead other otherPlan expected head → Idle deed name plan
  | opened {request : NewMerge} : deed.operation = .openMerge request → Idle deed name plan
  | settled {id resolution actor : String} : deed.operation = .resolve id resolution actor →
      Idle deed name plan
  | entered {id : String} {outcome : MergeOutcome} {summary : MergeSummary} :
      deed.Executes id outcome → outcome.createdVersion = false →
      deed.found.tables.merge id = .ok summary → summary.request.targetBranch = name →
      summary.request.plan = plan → Idle deed name plan

end Deed

variable {deeds : List Deed} {deed : Deed} {name : String} {plan : PlanId}

/-- Whether a request out of a branch was completed, and since the last time no version was put
on the branch. -/
def MergedLast (deeds : List Deed) (name : String) (plan : PlanId) : Prop :=
  ∃ before deed since, deeds = before ++ deed :: since ∧ deed.Completes name plan
    ∧ ∀ later ∈ since, ¬ later.Completes name plan ∧ ¬ later.Records name plan

theorem not_mergedLast_nil : ¬ MergedLast [] name plan := by
  rintro ⟨before, deed, since, hsplit, -⟩
  simp at hsplit

theorem mergedLast_of_completes (h : deed.Completes name plan) :
    MergedLast (deeds ++ [deed]) name plan :=
  ⟨deeds, deed, [], rfl, h, by simp⟩

theorem mergedLast_concat_iff (h : ¬ deed.Completes name plan) :
    MergedLast (deeds ++ [deed]) name plan
      ↔ MergedLast deeds name plan ∧ ¬ deed.Records name plan := by
  constructor
  · rintro ⟨before, first, since, hsplit, hfirst, hsince⟩
    rcases List.eq_nil_or_concat since with rfl | ⟨rest, last, rfl⟩
    · -- The deed itself does not complete a request.
      obtain ⟨-, hsame⟩ := List.append_inj' hsplit rfl
      obtain rfl := List.singleton_inj.mp hsame
      exact absurd hfirst h
    · rw [List.concat_eq_append, ← List.cons_append, ← List.append_assoc] at hsplit
      obtain ⟨rfl, hsame⟩ := List.append_inj' hsplit rfl
      obtain rfl := List.singleton_inj.mp hsame
      rw [List.concat_eq_append] at hsince
      obtain ⟨hrest, hlast⟩ := List.forall_mem_append.mp hsince
      exact ⟨⟨before, first, rest, rfl, hfirst, hrest⟩,
        (hlast deed (List.mem_singleton_self deed)).2⟩
  · rintro ⟨⟨before, first, since, rfl, hfirst, hsince⟩, hrecords⟩
    refine ⟨before, first, since ++ [deed], by simp, hfirst, ?_⟩
    exact List.forall_mem_append.mpr ⟨hsince, List.forall_mem_singleton.mpr ⟨h, hrecords⟩⟩

/-! ### One step -/

/-- The status of a branch, if it is there. -/
def Records.status? (r : Records) (name : String) (plan : PlanId) : Option BranchStatus :=
  (r.branch? name plan).map fun branch => branch.status

theorem Records.status?_of_standing? {r : Records} {status : BranchStatus} {head : String}
    (h : r.standing? name plan = some (status, head)) : r.status? name plan = some status := by
  obtain ⟨branch, hbranch, rfl, -⟩ := standing?_eq_some_iff.mp h
  rw [status?, hbranch]
  rfl

theorem Records.status?_eq_standing? (r : Records) (name : String) (plan : PlanId) :
    r.status? name plan = (r.standing? name plan).map Prod.fst := by
  rw [standing?, Option.map_map]
  rfl

namespace Store

variable {s : Store} {r r' : Records} {policy : Policy} {stamp : Stamp} {operation : Operation}
  {answer : Except Failure Answer} {blobs : Blobs}

theorem map_entry_versionsOn (versions : List Version) (plan : PlanId) (name : String) :
    (versionsOn versions plan name).map VersionEntry.entry
      = (versions.map VersionEntry.entry).filter fun entry =>
          entry.plan == plan && entry.branch == name := by
  rw [versionsOn, List.filter_map]
  rfl

/-- A version is put on a branch by a step that makes the list of its versions longer. -/
theorem Step.records_iff (step : s.Step r policy stamp operation answer r' blobs)
    (sound : s.Sound r) :
    (Deed.mk s stamp operation answer).Records name plan
      ↔ (versionsOn r'.versions plan name).length ≠ (versionsOn r.versions plan name).length := by
  have hentries := congrArg (List.filter fun entry : Entry =>
    entry.plan == plan && entry.branch == name) (step.entries sound)
  rw [List.filter_append, ← map_entry_versionsOn, ← map_entry_versionsOn] at hentries
  have hlength := congrArg List.length hentries
  rw [List.length_append, List.length_map, List.length_map] at hlength
  rw [hlength, ne_eq, Nat.add_eq_left, List.length_eq_zero_iff, List.filter_eq_nil_iff,
    Deed.Records]
  dsimp only
  constructor
  · rintro ⟨version, hmade⟩ hnone
    rw [hmade] at hnone
    simp at hnone
  · intro hsome
    by_contra hnone
    refine hsome fun entry hmem hhere => hnone ?_
    rw [Bool.and_eq_true, beq_iff_eq, beq_iff_eq] at hhere
    obtain ⟨rfl, rfl⟩ := hhere
    exact ⟨entry.version, Option.mem_toList.mp hmem⟩

/-- A request that is executed leaves its source branch merged. -/
theorem Step.of_completes (step : s.Step r policy stamp operation answer r' blobs)
    (sound : s.Sound r) (attached : r.Attached)
    (h : (Deed.mk s stamp operation answer).Completes name plan) :
    r'.status? name plan = some .merged := by
  obtain ⟨id, outcome, summary, ⟨actor, hoperation, hanswer⟩, hsummary, rfl, rfl⟩ := h
  dsimp only at hoperation hanswer hsummary
  subst hoperation hanswer
  obtain ⟨request, hmem, target, mergePlan, rfl, htarget, -, -, planned, -, -, rfl⟩ :=
    step.of_execute
  obtain rfl := Except.ok.inj ((sound.merge_of_mem hmem).symm.trans hsummary)
  obtain ⟨source, hsource⟩ := Records.exists_branch? (sound.merges.sides request hmem).1
  have hstanding : (r.executed request target.status actor stamp.time mergePlan).standing?
      request.sourceBranch request.plan = _ :=
    standing?_executed htarget (attached.sidesDiffer request hmem) planned stamp.time
  rw [if_pos ⟨rfl, rfl⟩, hsource] at hstanding
  exact Records.status?_of_standing? hstanding

/-- What a step may do to the status of a branch. -/
inductive StatusStep (r r' : Records) (deed : Deed) (name : String) (plan : PlanId) : Prop where
  | completed : deed.Completes name plan → r'.status? name plan = some .merged →
      StatusStep r r' deed name plan
  | recorded : ¬ deed.Completes name plan → deed.Records name plan →
      r'.status? name plan = some .active → StatusStep r r' deed name plan
  /-- The branch is created. -/
  | begun : ¬ deed.Completes name plan → ¬ deed.Records name plan →
      r.status? name plan = none → r'.status? name plan = some .active →
      StatusStep r r' deed name plan
  | kept : ¬ deed.Completes name plan → ¬ deed.Records name plan →
      r'.status? name plan = r.status? name plan → StatusStep r r' deed name plan

/-- Only a completed request and a version tell the status of a branch. -/
theorem Step.statusStep (step : s.Step r policy stamp operation answer r' blobs)
    (sound : s.Sound r) (attached : r.Attached) (name : String) (plan : PlanId) :
    StatusStep r r' ⟨s, stamp, operation, answer⟩ name plan := by
  by_cases hcompletes : (Deed.mk s stamp operation answer).Completes name plan
  · exact .completed hcompletes (step.of_completes sound attached hcompletes)
  have hrecords := @Step.records_iff name plan _ _ _ _ _ _ _ _ step sound
  -- Where the branch has the versions that it had, none was put on it.
  have hidle (h : versionsOn r'.versions plan name = versionsOn r.versions plan name) :
      ¬ (Deed.mk s stamp operation answer).Records name plan :=
    fun hmade => hrecords.mp hmade (congrArg List.length h)
  cases step.standingStep sound attached name plan with
  | kept hversions hsame =>
    refine .kept hcompletes (hidle hversions) ?_
    rw [Records.status?_eq_standing?, Records.status?_eq_standing?, hsame]
  | written hversions hafter =>
    refine .recorded hcompletes (hrecords.mpr ?_) (Records.status?_of_standing? hafter)
    simp [hversions]
  | branched hnone hversions hafter =>
    refine .begun hcompletes (hidle (congrArg (versionsOn · plan name) hversions)) ?_
      (Records.status?_of_standing? hafter)
    rw [Records.status?_eq_standing?, hnone, Option.map_none]
  | moved _ hversions hbefore hafter =>
    refine .kept hcompletes (hidle (congrArg (versionsOn · plan name) hversions)) ?_
    rw [Records.status?_of_standing? hbefore, Records.status?_of_standing? hafter]
  | entered _ _ _ _ _ hversions hbefore hafter =>
    refine .kept hcompletes (hidle (congrArg (versionsOn · plan name) hversions)) ?_
    rw [Records.status?_of_standing? hbefore, Records.status?_of_standing? hafter]
  | @left request actor head outcome status hmem hoperation hname hplan hanswer =>
    -- A merge out of the branch completes a request out of it.
    exact absurd ⟨request.id, outcome, r.summary request, ⟨actor, hoperation, hanswer⟩,
      sound.merge_of_mem hmem, hname, hplan⟩ hcompletes

/-- A step that is idle for a branch neither completes a request out of it nor puts a version
on it. -/
theorem Sound.not_of_idle (sound : s.Sound r) (attached : r.Attached)
    (h : (Deed.mk s stamp operation answer).Idle name plan) :
    ¬ (Deed.mk s stamp operation answer).Completes name plan
      ∧ ¬ (Deed.mk s stamp operation answer).Records name plan := by
  -- Only requests are completed, and only commits, restores and requests make versions.
  have others (hnot : ∀ id actor, operation ≠ .execute id actor)
      (hmade : s.made? operation answer = none) :
      ¬ (Deed.mk s stamp operation answer).Completes name plan
        ∧ ¬ (Deed.mk s stamp operation answer).Records name plan := by
    constructor
    · rintro ⟨id, _, _, ⟨actor, hoperation, -⟩, -⟩
      exact hnot id actor hoperation
    · rintro ⟨version, hversion⟩
      cases hmade.symm.trans hversion
  cases h with
  | failed hanswer =>
    obtain rfl : answer = _ := hanswer
    constructor
    · rintro ⟨_, _, _, ⟨_, -, hok⟩, -⟩
      cases hok
    · rintro ⟨version, hversion⟩
      cases (made?_error s operation _).symm.trans hversion
  | branched hoperation | moved hoperation | opened hoperation | settled hoperation =>
    obtain rfl : operation = _ := hoperation
    exact others (by simp) rfl
  | @entered id outcome summary hexecutes hcreated hsummary htarget hplan =>
    obtain ⟨actor, hoperation, hanswer⟩ := hexecutes
    dsimp only at hoperation hanswer hsummary
    subst hoperation hanswer
    constructor
    · rintro ⟨other, _, found, ⟨_, hsame, -⟩, hfound, hsource, -⟩
      obtain ⟨rfl, -⟩ := Operation.execute.inj hsame
      obtain rfl := Except.ok.inj (hsummary.symm.trans hfound)
      -- No request is of a branch into itself.
      obtain ⟨request, hrequest, rfl⟩ := sound.merge?_eq hsummary
      exact attached.sidesDiffer request (List.mem_of_find?_eq_some hrequest)
        (hsource.trans htarget.symm)
    · rintro ⟨version, hversion⟩
      rw [made?] at hversion
      simp [hcreated] at hversion

/-- A request that is marked failed is not completed, and was not. -/
theorem exists_completed_fail {id other : String} :
    (∃ request ∈ (r.fail other).merges, request.id = id ∧ request.status = .completed)
      ↔ ∃ request ∈ r.merges, request.id = id ∧ request.status = .completed := by
  constructor
  · rintro ⟨request, hmem, hid, hcompleted⟩
    obtain ⟨old, hold, rfl⟩ := List.mem_map.mp hmem
    split at hcompleted
    next => cases hcompleted
    next hother =>
      rw [if_neg hother] at hid
      exact ⟨old, hold, hid, hcompleted⟩
  · rintro ⟨request, hmem, hid, hcompleted⟩
    refine ⟨request, List.mem_map.mpr ⟨request, hmem, if_neg ?_⟩, hid, hcompleted⟩
    rw [hcompleted, Bool.and_eq_true]
    exact fun hover => absurd hover.2 (by decide)

/-- A step completes the request that it executes, and no other. -/
theorem Step.completed_iff (step : s.Step r policy stamp operation answer r' blobs) (id : String) :
    (∃ request ∈ r'.merges, request.id = id ∧ request.status = .completed)
      ↔ (∃ request ∈ r.merges, request.id = id ∧ request.status = .completed)
        ∨ ∃ outcome, (Deed.mk s stamp operation answer).Executes id outcome := by
  have hnot {operation : Operation} {answer : Except Failure Answer}
      (h : ∀ actor, operation ≠ .execute id actor) :
      ¬ ∃ outcome, (Deed.mk s stamp operation answer).Executes id outcome := by
    rintro ⟨outcome, actor, hoperation, -⟩
    exact h actor hoperation
  induction step with
  | failed failure =>
    refine (or_iff_left ?_).symm
    rintro ⟨outcome, actor, -, ⟨⟩⟩
  | asked answer hquestion =>
    refine (or_iff_left (hnot ?_)).symm
    rintro actor rfl
    simp [Operation.isQuestion] at hquestion
  | committed =>
    rw [Records.merges_record]
    exact (or_iff_left (hnot (by simp))).symm
  | restored _ _ _ ih => exact ih.trans ((or_iff_left (hnot (by simp))).trans
      (or_iff_left (hnot (by simp))).symm)
  | opened =>
    rw [or_iff_left (hnot (by simp))]
    simp only [Records.addMerge, List.mem_append, List.mem_singleton, or_and_right, exists_or,
      exists_eq_left]
    refine or_iff_left ?_
    rintro ⟨-, hcompleted⟩
    -- A new request is pending or in conflict.
    simp only [NewMerge.opened, MergeStatus.opened] at hcompleted
    split at hcompleted <;> cases hcompleted
  | @executed request target actor plan blobs hmem =>
    rw [merges_executed]
    simp only [Records.mem_complete]
    constructor
    · rintro ⟨other, ⟨hother, -⟩ | ⟨old, -, hold, rfl⟩, hid, hcompleted⟩
      · exact Or.inl ⟨other, hother, hid, hcompleted⟩
      · obtain rfl : request.id = id := hold.symm.trans hid
        exact Or.inr ⟨_, actor, rfl, rfl⟩
    · rintro (⟨other, hother, hid, hcompleted⟩ | ⟨outcome, _, hoperation, -⟩)
      · by_cases hsame : other.id = request.id
        · exact ⟨_, Or.inr ⟨other, hother, hsame, rfl⟩, hid, rfl⟩
        · exact ⟨other, Or.inl ⟨hother, hsame⟩, hid, hcompleted⟩
      · obtain ⟨hid, -⟩ := Operation.execute.inj hoperation
        exact ⟨_, Or.inr ⟨request, hmem, rfl, rfl⟩, hid, rfl⟩
  | abandoned =>
    refine Iff.trans ?_ (or_iff_left ?_).symm
    · exact exists_completed_fail
    · rintro ⟨outcome, actor, -, ⟨⟩⟩
  | _ => exact (or_iff_left (hnot (by simp))).symm

end Store

/-! ### Runs -/

namespace Repository

variable {repository : Repository}

/-- Whether records have the statuses that what was done calls for. -/
structure Told (deeds : List Deed) (r : Records) : Prop where
  attached : r.Attached
  activeOrMerged : ∀ name plan, ∀ status ∈ r.status? name plan, status = .active ∨ status = .merged
  merged_iff : ∀ name plan, r.status? name plan = some .merged ↔ MergedLast deeds name plan
  completed_iff : ∀ id, (∃ request ∈ r.merges, request.id = id ∧ request.status = .completed)
    ↔ ∃ deed ∈ deeds, ∃ outcome, deed.Executes id outcome

theorem told_empty : Told [] Records.empty where
  attached := Records.attached_empty
  activeOrMerged := by simp [Records.status?, Records.branch?, Records.empty]
  merged_iff name plan := by
    refine iff_of_false ?_ not_mergedLast_nil
    simp [Records.status?, Records.branch?, Records.empty]
  completed_iff := by simp [Records.empty]

theorem Told.step {s : Store} {r r' : Records} {policy : Policy} {stamp : Stamp}
    {operation : Operation} {answer : Except Failure Answer} {blobs : Blobs}
    (told : Told deeds r) (sound : s.Sound r)
    (step : s.Step r policy stamp operation answer r' blobs) :
    Told (deeds ++ [⟨s, stamp, operation, answer⟩]) r' where
  attached := step.attached sound told.attached
  activeOrMerged name plan := by
    cases step.statusStep sound told.attached name plan with
    | completed _ hafter => simp [hafter]
    | recorded _ _ hafter => simp [hafter]
    | begun _ _ _ hafter => simp [hafter]
    | kept _ _ hsame =>
      rw [hsame]
      exact told.activeOrMerged name plan
  merged_iff name plan := by
    cases step.statusStep sound told.attached name plan with
    | completed hcompletes hafter => exact iff_of_true hafter (mergedLast_of_completes hcompletes)
    | recorded hcompletes hrecords hafter =>
      rw [mergedLast_concat_iff hcompletes]
      exact iff_of_false (by simp [hafter]) fun h => h.2 hrecords
    | begun hcompletes hrecords hbefore hafter =>
      rw [mergedLast_concat_iff hcompletes, ← told.merged_iff]
      exact iff_of_false (by simp [hafter]) (by simp [hbefore])
    | kept hcompletes hrecords hsame =>
      rw [mergedLast_concat_iff hcompletes, ← told.merged_iff, hsame, and_iff_left hrecords]
  completed_iff id := by
    rw [step.completed_iff, told.completed_iff]
    simp only [List.mem_append, List.mem_singleton, or_and_right, exists_or, exists_eq_left]

/-- The statuses that a run leaves are those that what was done calls for. -/
theorem Chronicle.statuses (h : Chronicle repository deeds) :
    ∃ r, repository.store.Sound r ∧ Told deeds r :=
  h.invariant told_empty fun sound _ step told => told.step sound step

/-- What is idle for a branch leaves its status. -/
theorem Chronicle.status_of_idle (h : Chronicle repository deeds) {stamp : Stamp}
    {operation : Operation} (fresh : stamp.Fresh repository.store) (given : operation.Ordered)
    {branch : Branch} (hbranch : repository.store.tables.branch name plan = .ok branch)
    (hidle : (repository.deed stamp operation).Idle name plan) :
    ∃ after, (repository.perform stamp operation).2.store.tables.branch name plan = .ok after
      ∧ after.status = branch.status := by
  obtain ⟨r, sound, told⟩ := h.statuses
  obtain ⟨r', sound', step⟩ := sound.step fresh given
  obtain ⟨hcompletes, hrecords⟩ := sound.not_of_idle told.attached hidle
  have hbefore : r.status? name plan = some branch.status := by
    rw [Records.status?, sound.branch?_eq hbranch]
    rfl
  have hafter : r'.status? name plan = some branch.status := by
    cases step.statusStep sound told.attached name plan with
    | completed hcompleted => exact absurd hcompleted hcompletes
    | recorded _ hrecorded => exact absurd hrecorded hrecords
    | begun _ _ hnone => cases hnone.symm.trans hbefore
    | kept _ _ hsame => exact hsame.trans hbefore
  obtain ⟨after, hfound, hstatus⟩ := Option.map_eq_some_iff.mp hafter
  exact ⟨after, sound'.branch_eq_ok hfound, hstatus⟩

/-- **The status of a branch follows the last event.**  Every branch is active or merged.  It is
merged exactly if a request out of it was completed and no version has been put on it since the
last completion; the requests that are completed are those that were executed.  What is neither
a completion nor a version leaves the status. -/
theorem Chronicle.branch_status (h : Chronicle repository deeds) :
    (∀ row ∈ repository.store.tables.branches, ∃ branch, row = BranchRow.store branch
        ∧ repository.store.tables.branch row.name row.plan = .ok branch
        ∧ (branch.status = .active ∨ branch.status = .merged)
        ∧ (branch.status = .merged ↔ MergedLast deeds row.name row.plan))
      ∧ (∀ id, (∃ summary, repository.store.tables.merge id = .ok summary
            ∧ summary.request.status = .completed)
          ↔ ∃ deed ∈ deeds, ∃ outcome, deed.Executes id outcome)
      ∧ ∀ stamp operation, stamp.Fresh repository.store → operation.Ordered →
        ∀ name plan branch, repository.store.tables.branch name plan = .ok branch →
          (repository.deed stamp operation).Idle name plan →
            ∃ after,
              (repository.perform stamp operation).2.store.tables.branch name plan = .ok after
                ∧ after.status = branch.status := by
  obtain ⟨r, sound, told⟩ := h.statuses
  refine ⟨fun row hrow => ?_, fun id => ?_, fun stamp operation fresh given name plan branch
    hbranch hidle => h.status_of_idle fresh given hbranch hidle⟩
  · rw [sound.tables] at hrow
    obtain ⟨branch, hmem, rfl⟩ := List.mem_map.mp hrow
    have hfound := sound.branches.branch?_of_mem hmem
    have hstatus : r.status? branch.name branch.plan = some branch.status := by
      rw [Records.status?, hfound]
      rfl
    refine ⟨branch, rfl, sound.branch_eq_ok hfound, told.activeOrMerged _ _ _ hstatus, ?_⟩
    have hmerged := told.merged_iff branch.name branch.plan
    rwa [hstatus, Option.some_inj] at hmerged
  · rw [← told.completed_iff]
    constructor
    · rintro ⟨summary, hsummary, hcompleted⟩
      obtain ⟨request, hrequest, rfl⟩ := sound.merge?_eq hsummary
      exact ⟨request, List.mem_of_find?_eq_some hrequest, Records.id_of_merge? hrequest, hcompleted⟩
    · rintro ⟨request, hmem, rfl, hcompleted⟩
      exact ⟨r.summary request, sound.merge_of_mem hmem, hcompleted⟩

/-! ### A draft that is merged and goes on -/

/-- The status in the row of a branch of the plan with the hall. -/
def statusOf (name : String) (repository : Repository) : Option String :=
  (repository.store.tables.branches.find? (Tables.isBranch name hallPlan)).map fun row => row.status

theorem exists_row {status : String} (h : repository.statusOf name = some status) :
    ∃ row ∈ repository.store.tables.branches, row.name = name ∧ row.plan = hallPlan
      ∧ row.status = status := by
  obtain ⟨row, hrow, hstatus⟩ := Option.map_eq_some_iff.mp h
  have hkey := List.find?_some hrow
  rw [Tables.isBranch, Bool.and_eq_true, beq_iff_eq, beq_iff_eq] at hkey
  exact ⟨row, List.mem_of_find?_eq_some hrow, hkey.1, hkey.2, hstatus⟩

/-- The draft is merged as it was begun. -/
def foldedSteps : List (String × Operation) :=
  hallSteps ++ [("open", .openMerge mergeDraft), ("run", .execute "open" "clerk")]

/-- The draft is merged, and redrawn after that. -/
def resumedSteps : List (String × Operation) :=
  foldedSteps ++ [("late", drawHall "draft" Merge.largeSize)]

theorem ordered_foldedSteps : ∀ step ∈ foldedSteps, step.2.Ordered :=
  List.forall_mem_append.mpr ⟨ordered_hallSteps,
    List.forall_mem_cons.mpr ⟨trivial, List.forall_mem_singleton.mpr trivial⟩⟩

theorem ordered_resumedSteps : ∀ step ∈ resumedSteps, step.2.Ordered :=
  List.forall_mem_append.mpr
    ⟨ordered_foldedSteps, List.forall_mem_singleton.mpr (ordered_drawHall _ _)⟩

/-- The draft is merged last once it is merged, and no longer when it is redrawn. -/
theorem branch_status_draft :
    MergedLast ((empty .standard).deeds foldedSteps) "draft" hallPlan
      ∧ ¬ MergedLast ((empty .standard).deeds resumedSteps) "draft" hallPlan := by
  have hruns : (empty .standard).admits resumedSteps = true
      ∧ ((empty .standard).play foldedSteps).statusOf "draft" = some "merged"
      ∧ ((empty .standard).play resumedSteps).statusOf "draft" = some "active" := by
    decide +kernel
  obtain ⟨hnew, hmerged, hresumed⟩ := hruns
  have hearlier : (empty .standard).admits foldedSteps = true := by
    rw [resumedSteps, admits_append] at hnew
    exact (Bool.and_eq_true_iff.mp hnew).1
  constructor
  · obtain ⟨row, hmem, hname, hplan, hstatus⟩ := exists_row hmerged
    obtain ⟨branch, rfl, -, hcases, hiff⟩ :=
      (chronicle_play .standard hearlier ordered_foldedSteps).branch_status.1 row hmem
    rw [hname, hplan] at hiff
    have hlabel : label branch.status = "merged" := hstatus
    refine hiff.mp (hcases.resolve_left fun hactive => ?_)
    rw [hactive] at hlabel
    exact absurd hlabel (by decide)
  · obtain ⟨row, hmem, hname, hplan, hstatus⟩ := exists_row hresumed
    obtain ⟨branch, rfl, -, -, hiff⟩ :=
      (chronicle_play .standard hnew ordered_resumedSteps).branch_status.1 row hmem
    rw [hname, hplan] at hiff
    have hlabel : label branch.status = "active" := hstatus
    refine mt hiff.mpr fun hmerged => ?_
    rw [hmerged] at hlabel
    exact absurd hlabel (by decide)

end Repository

end PlanHistory
