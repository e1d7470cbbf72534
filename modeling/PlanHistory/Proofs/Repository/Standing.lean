/-
What one step does to the standing of a branch.

The standing of a branch is its status with its head.  A step puts a version on a branch, or
creates the branch, or moves its head by hand or by a merge into it, or merges it into another
branch, or leaves how it stands (`Store.StandingStep`):

* **`Store.Step.standingStep`** — every step is one of these, for every branch.

Of these only a version makes a branch active, and only a merge out of it makes it merged.
-/
import PlanHistory.Proofs.Repository.BranchStep
import PlanHistory.Proofs.Repository.Integrity

namespace PlanHistory

namespace Records

variable {r r' : Records} {name : String} {plan : PlanId}

/-- The status of a branch, with the version that it has come to. -/
def standing? (r : Records) (name : String) (plan : PlanId) : Option (BranchStatus × String) :=
  (r.branch? name plan).map fun branch => (branch.status, branch.head)

theorem standing?_congr (h : r'.branches = r.branches) :
    r'.standing? name plan = r.standing? name plan := by
  rw [standing?, standing?, branch?, branch?, h]

theorem standing?_eq_some_iff {status : BranchStatus} {head : String} :
    r.standing? name plan = some (status, head)
      ↔ ∃ branch, r.branch? name plan = some branch ∧ branch.status = status
        ∧ branch.head = head := by
  simp [standing?, Prod.ext_iff]

theorem standing?_changeBranch {change : Branch → Branch}
    (hsame : ∀ branch, (change branch).name = branch.name ∧ (change branch).plan = branch.plan)
    (other : String) (otherPlan : PlanId) :
    (r.changeBranch other otherPlan change).standing? name plan
      = if name = other ∧ plan = otherPlan then
          (r.branch? name plan).map fun branch => ((change branch).status, (change branch).head)
        else r.standing? name plan := by
  rw [standing?, branch?_changeBranch_ite hsame]
  split
  · exact Option.map_map ..
  · rfl

theorem standing?_setHead (other : String) (otherPlan : PlanId) (head : String)
    (status : BranchStatus) (now : Timestamp) :
    (r.setHead other otherPlan head status now).standing? name plan
      = if name = other ∧ plan = otherPlan then
          (r.branch? name plan).map fun _ => (status, head)
        else r.standing? name plan := by
  rw [setHead, standing?_changeBranch]
  exact fun _ => ⟨rfl, rfl⟩

theorem standing?_setBranchStatus (other : String) (otherPlan : PlanId) (status : BranchStatus)
    (now : Timestamp) :
    (r.setBranchStatus other otherPlan status now).standing? name plan
      = if name = other ∧ plan = otherPlan then
          (r.branch? name plan).map fun branch => (status, branch.head)
        else r.standing? name plan := by
  rw [setBranchStatus, standing?_changeBranch]
  exact fun _ => ⟨rfl, rfl⟩

theorem standing?_addBranch {branch : Branch} (fresh : r.branch? branch.name branch.plan = none) :
    (r.addBranch branch).standing? name plan
      = if name = branch.name ∧ plan = branch.plan then some (branch.status, branch.head)
        else r.standing? name plan := by
  rw [standing?, branch?_addBranch fresh]
  split <;> rfl

/-- A version at the end makes its branch active. -/
theorem standing?_record (version : Version) (now : Timestamp) :
    (r.record version now).standing? name plan
      = if name = version.branch ∧ plan = version.plan then some (.active, version.id)
        else r.standing? name plan := by
  rw [record]
  cases hbranch : r.branch? version.branch version.plan with
  | some branch =>
    refine (standing?_setHead ..).trans ?_
    split
    next hat =>
      obtain ⟨rfl, rfl⟩ := hat
      show (r.branch? version.branch version.plan).map _ = _
      rw [hbranch]
      rfl
    next => rfl
  | none =>
    have hfirst : (r.addVersion version).branch? (firstBranch version).name
        (firstBranch version).plan = none := hbranch
    exact standing?_addBranch hfirst

end Records

namespace Store

variable {s : Store} {r r' : Records} {policy : Policy} {stamp : Stamp} {operation : Operation}
  {answer : Except Failure Answer} {blobs : Blobs} {name : String} {plan : PlanId}

/-- An executed request makes its source branch merged where it is, and its target branch
active if it adds a version there. -/
theorem standing?_executed {request : MergeRequest} {target : Branch} {actor : String}
    {mergePlan : MergePlan} (htarget : r.branch? request.targetBranch request.plan = some target)
    (hsides : request.sourceBranch ≠ request.targetBranch)
    (planned : Planned s r stamp request actor mergePlan blobs) (now : Timestamp) :
    (r.executed request target.status actor now mergePlan).standing? name plan
      = if name = request.sourceBranch ∧ plan = request.plan then
          (r.branch? name plan).map fun branch => (.merged, branch.head)
        else if name = request.targetBranch ∧ plan = request.plan then
          some (if mergePlan.creates then .active else target.status, mergePlan.head target.head)
        else r.standing? name plan := by
  rw [Records.standing?_congr (branches_executed htarget planned target.status now),
    Records.standing?_setBranchStatus,
    Records.standing?_changeBranch (mergePlan.key_retarget target.status now),
    Records.branch?_changeBranch_ite (mergePlan.key_retarget target.status now)]
  split
  next hat =>
    rw [if_neg]
    exact fun hother => hsides (hat.1.symm.trans hother.1)
  next =>
    split
    next hat =>
      obtain ⟨rfl, rfl⟩ := hat
      rw [htarget]
      cases planned <;> rfl
    next => rfl

/-- What a step may do to the standing of a branch. -/
inductive StandingStep (r r' : Records) (operation : Operation)
    (answer : Except Failure Answer) (name : String) (plan : PlanId) : Prop where
  | kept : versionsOn r'.versions plan name = versionsOn r.versions plan name →
      r'.standing? name plan = r.standing? name plan →
      StandingStep r r' operation answer name plan
  /-- A version is put on the branch, which is active at it. -/
  | written {version : Version} :
      versionsOn r'.versions plan name = versionsOn r.versions plan name ++ [version] →
      r'.standing? name plan = some (.active, version.id) →
      StandingStep r r' operation answer name plan
  /-- The branch is created at a version that is there. -/
  | branched {base : String} : r.standing? name plan = none → r'.versions = r.versions →
      r'.standing? name plan = some (.active, base) →
      StandingStep r r' operation answer name plan
  /-- The head is set by hand, and the status stays. -/
  | moved {expected head : String} {status : BranchStatus} :
      operation = .updateHead name plan expected head → r'.versions = r.versions →
      r.standing? name plan = some (status, expected) →
      r'.standing? name plan = some (status, head) →
      StandingStep r r' operation answer name plan
  /-- A merge into the branch adds no version, and the status stays. -/
  | entered {request : MergeRequest} {actor head old : String} {status : BranchStatus} :
      request ∈ r.merges → operation = .execute request.id actor → request.targetBranch = name →
      request.plan = plan → answer = .ok (.outcome ⟨request.id, head, false⟩) →
      r'.versions = r.versions → r.standing? name plan = some (status, old) →
      r'.standing? name plan = some (status, head) →
      StandingStep r r' operation answer name plan
  /-- The branch is merged into another one, and its head stays.  By the fast-forward strategy
  the other branch comes to it. -/
  | left {request : MergeRequest} {actor head : String} {outcome : MergeOutcome}
      {status : BranchStatus} :
      request ∈ r.merges → operation = .execute request.id actor → request.sourceBranch = name →
      request.plan = plan → answer = .ok (.outcome outcome) →
      (request.strategy = label Strategy.fastForward → outcome.head = head) →
      versionsOn r'.versions plan name = versionsOn r.versions plan name →
      r.standing? name plan = some (status, head) →
      r'.standing? name plan = some (.merged, head) →
      StandingStep r r' operation answer name plan

/-- A commit makes its branch active, and leaves all others. -/
theorem standingStep_record (version : Version) (now : Timestamp) (operation : Operation)
    (answer : Except Failure Answer) (name : String) (plan : PlanId) :
    StandingStep r (r.record version now) operation answer name plan := by
  have hversions : (r.record version now).versions = r.versions ++ [version] :=
    Records.versions_record _ _
  have hstanding : (r.record version now).standing? name plan = _ :=
    Records.standing?_record version now
  by_cases hat : name = version.branch ∧ plan = version.plan
  · obtain ⟨rfl, rfl⟩ := hat
    exact .written (hversions ▸ versionsOn_append_self ..)
      (hstanding.trans (if_pos ⟨rfl, rfl⟩))
  · refine .kept (hversions ▸ versionsOn_append_of_ne ?_) (hstanding.trans (if_neg hat))
    rintro ⟨rfl, rfl⟩
    exact hat ⟨rfl, rfl⟩

/-- An executed request merges its source branch, and makes its target branch active or leaves
its status. -/
theorem standingStep_executed {request : MergeRequest} {target : Branch} {actor : String}
    {mergePlan : MergePlan} (sound : s.Sound r) (hmem : request ∈ r.merges)
    (hsides : request.sourceBranch ≠ request.targetBranch)
    (htarget : r.branch? request.targetBranch request.plan = some target)
    (hhead : target.head = request.target)
    (hplan : s.planMerge stamp (r.details request) actor = .ok (mergePlan, blobs))
    (planned : Planned s r stamp request actor mergePlan blobs) (name : String) (plan : PlanId) :
    StandingStep r (r.executed request target.status actor stamp.time mergePlan)
      (.execute request.id actor)
      (.ok (.outcome ⟨request.id, mergePlan.head request.target, mergePlan.creates⟩)) name plan := by
  have hversions : (r.executed request target.status actor stamp.time mergePlan).versions = _ :=
    versions_carriedOut target.status stamp.time mergePlan
  have hstanding : (r.executed request target.status actor stamp.time mergePlan).standing? name plan
      = _ := standing?_executed htarget hsides planned stamp.time
  -- Only the target branch gets a version.
  have others (hnot : ¬ (name = request.targetBranch ∧ plan = request.plan)) :
      versionsOn (r.executed request target.status actor stamp.time mergePlan).versions plan name
        = versionsOn r.versions plan name := by
    rw [hversions]
    cases planned with
    | moveHead => rfl
    | keepHead => rfl
    | commit =>
      refine versionsOn_append_of_ne ?_
      rintro ⟨rfl, rfl⟩
      exact hnot ⟨rfl, rfl⟩
  by_cases hsource : name = request.sourceBranch ∧ plan = request.plan
  · obtain ⟨rfl, rfl⟩ := hsource
    rw [if_pos ⟨rfl, rfl⟩] at hstanding
    obtain ⟨source, hbranch⟩ := Records.exists_branch? (sound.merges.sides request hmem).1
    rw [hbranch] at hstanding
    refine .left hmem rfl rfl rfl rfl ?_ (others fun hat => hsides hat.1)
      (Records.standing?_eq_some_iff.mpr ⟨source, hbranch, rfl, rfl⟩) hstanding
    intro hforward
    have hforwarded : s.planMerge stamp (r.details request) actor
        = .ok (.moveHead source.head, s.blobs) :=
      planMerge_of_fastForward hforward (sound.branch_eq_ok hbranch)
    obtain ⟨rfl, -⟩ := Prod.mk.inj (Except.ok.inj (hplan.symm.trans hforwarded))
    rfl
  rw [if_neg hsource] at hstanding
  by_cases hat : name = request.targetBranch ∧ plan = request.plan
  · obtain ⟨rfl, rfl⟩ := hat
    rw [if_pos ⟨rfl, rfl⟩] at hstanding
    have hbefore := Records.standing?_eq_some_iff.mpr ⟨target, htarget, rfl, rfl⟩
    cases planned with
    | moveHead => exact .entered hmem rfl rfl rfl rfl hversions hbefore hstanding
    | keepHead => exact .entered hmem rfl rfl rfl (hhead ▸ rfl) hversions hbefore hstanding
    | @commit merged =>
      refine @StandingStep.written _ _ _ _ _ _
        (r.newVersion (merging request actor) (stamp.prepared merged) (some request.target)) ?_
        hstanding
      rw [hversions]
      exact versionsOn_append_self ..
  · exact .kept (others hat) (hstanding.trans (if_neg hat))

/-- Every step puts a version on a branch, or creates it, or moves it, or merges it, or leaves
how it stands. -/
theorem Step.standingStep (step : s.Step r policy stamp operation answer r' blobs)
    (sound : s.Sound r) (attached : r.Attached) (name : String) (plan : PlanId) :
    StandingStep r r' operation answer name plan := by
  cases step with
  | failed failure => exact .kept rfl rfl
  | asked answer => exact .kept rfl rfl
  | committed => exact standingStep_record _ _ _ _ name plan
  | restored hsource hcontent hcommit =>
    -- What is restored is committed.
    cases hcommit with
    | failed failure => exact .kept rfl rfl
    | asked answer hquestion => simp [Operation.isQuestion] at hquestion
    | committed => exact standingStep_record _ _ _ _ name plan
  | @branched request hfresh howns =>
    have hstanding : (r.addBranch (request.created stamp.time)).standing? name plan = _ :=
      Records.standing?_addBranch hfresh
    by_cases hat : name = request.name ∧ plan = request.plan
    · obtain ⟨rfl, rfl⟩ := hat
      exact .branched (congrArg (Option.map _) hfresh) rfl
        (hstanding.trans (if_pos ⟨rfl, rfl⟩))
    · exact .kept rfl (hstanding.trans (if_neg hat))
  | @moved other head otherPlan branch hbranch howns =>
    have hstanding : (r.setHead other otherPlan head branch.status stamp.time).standing? name plan
        = _ := Records.standing?_setHead ..
    by_cases hat : name = other ∧ plan = otherPlan
    · obtain ⟨rfl, rfl⟩ := hat
      rw [if_pos ⟨rfl, rfl⟩, hbranch] at hstanding
      have hbefore := Records.standing?_eq_some_iff.mpr ⟨branch, hbranch, rfl, rfl⟩
      exact .moved rfl rfl hbefore hstanding
    · exact .kept rfl (hstanding.trans (if_neg hat))
  | executed hmem _ _ htarget hhead hplan planned =>
    exact standingStep_executed sound hmem (attached.sidesDiffer _ hmem) htarget hhead hplan planned
      name plan
  | opened => exact .kept rfl (Records.standing?_congr rfl)
  | settled => exact .kept rfl (Records.standing?_congr rfl)
  | repeated => exact .kept rfl rfl
  | abandoned => exact .kept rfl (Records.standing?_congr rfl)
  | noted => exact .kept rfl (Records.standing?_congr rfl)
  | commented => exact .kept rfl (Records.standing?_congr rfl)

end Store

end PlanHistory
