/-
What one step does to one branch.

A branch is told by its two ends, the version that it began at and the version that it has
come to.  A step extends a branch by a version on top of its head, or begins it, or sets its
head to a version that is there, or leaves it (`Store.BranchStep`):

* **`Store.Step.branchStep`** — every step is one of these, for every branch.
-/
import PlanHistory.Proofs.Repository.Growth

namespace PlanHistory

theorem MergePlan.base_retarget (plan : MergePlan) (status : BranchStatus) (now : Timestamp)
    (branch : Branch) : (plan.retarget status now branch).base = branch.base := by
  cases plan <;> rfl

namespace Records

variable {r r' : Records} {name : String} {plan : PlanId}

/-- The version that a branch began at, and the one that it has come to. -/
def ends? (r : Records) (name : String) (plan : PlanId) : Option (String × String) :=
  (r.branch? name plan).map fun branch => (branch.base, branch.head)

theorem ends?_congr (h : r'.branches = r.branches) : r'.ends? name plan = r.ends? name plan := by
  rw [ends?, ends?, branch?, branch?, h]

theorem ends?_eq_some_iff {base head : String} :
    r.ends? name plan = some (base, head)
      ↔ ∃ branch, r.branch? name plan = some branch ∧ branch.base = base ∧ branch.head = head := by
  simp [ends?, Prod.ext_iff]

/-- Only the branch of a name of a plan is changed. -/
theorem branch?_changeBranch_ite {change : Branch → Branch}
    (hsame : ∀ branch, (change branch).name = branch.name ∧ (change branch).plan = branch.plan)
    (other : String) (otherPlan : PlanId) :
    (r.changeBranch other otherPlan change).branch? name plan
      = if name = other ∧ plan = otherPlan then (r.branch? name plan).map change
        else r.branch? name plan := by
  rw [branch?_changeBranch hsame]
  split
  next hat =>
    refine Option.map_congr fun branch hbranch => ?_
    obtain ⟨-, rfl, rfl⟩ := mem_of_branch? hbranch
    rw [if_pos]
    rwa [Bool.and_eq_true, beq_iff_eq, beq_iff_eq]
  next hat =>
    refine (Option.map_congr fun branch hbranch => ?_).trans Option.map_id'
    obtain ⟨-, rfl, rfl⟩ := mem_of_branch? hbranch
    rw [if_neg]
    rwa [Bool.and_eq_true, beq_iff_eq, beq_iff_eq]

/-- A branch at the end is found unless it was there. -/
theorem branch?_addBranch {branch : Branch} (fresh : r.branch? branch.name branch.plan = none) :
    (r.addBranch branch).branch? name plan
      = if name = branch.name ∧ plan = branch.plan then some branch else r.branch? name plan := by
  rw [branch?, addBranch, List.find?_append, ← branch?, List.find?_singleton]
  by_cases hat : name = branch.name ∧ plan = branch.plan
  · obtain ⟨rfl, rfl⟩ := hat
    rw [fresh, beq_self_eq_true, beq_self_eq_true]
    simp
  · have hbeq : (branch.name == name && branch.plan == plan) = false := by
      rw [Bool.eq_false_iff, ne_eq, Bool.and_eq_true, beq_iff_eq, beq_iff_eq]
      rintro ⟨rfl, rfl⟩
      exact hat ⟨rfl, rfl⟩
    rw [hbeq, if_neg hat]
    simp

/-- A change of a branch that leaves its base sets its head. -/
theorem ends?_changeBranch {change : Branch → Branch}
    (hsame : ∀ branch, (change branch).name = branch.name ∧ (change branch).plan = branch.plan)
    (hbase : ∀ branch, (change branch).base = branch.base) (other : String) (otherPlan : PlanId) :
    (r.changeBranch other otherPlan change).ends? name plan
      = (r.branch? name plan).map fun branch =>
          (branch.base, if name = other ∧ plan = otherPlan then (change branch).head
            else branch.head) := by
  rw [ends?, branch?_changeBranch_ite hsame]
  split
  · rw [Option.map_map]
    exact Option.map_congr fun branch _ => by rw [Function.comp_apply, hbase]
  · rfl

theorem ends?_setHead (other : String) (otherPlan : PlanId) (head : String)
    (status : BranchStatus) (now : Timestamp) :
    (r.setHead other otherPlan head status now).ends? name plan
      = if name = other ∧ plan = otherPlan then
          (r.branch? name plan).map fun branch => (branch.base, head)
        else r.ends? name plan := by
  have hends := @ends?_changeBranch r name plan
    (fun branch => { branch with head, status, updatedAt := now })
    (fun _ => ⟨rfl, rfl⟩) (fun _ => rfl) other otherPlan
  refine hends.trans ?_
  split <;> rfl

theorem ends?_setBranchStatus (other : String) (otherPlan : PlanId) (status : BranchStatus)
    (now : Timestamp) :
    (r.setBranchStatus other otherPlan status now).ends? name plan = r.ends? name plan := by
  have hends := @ends?_changeBranch r name plan
    (fun branch => { branch with status, updatedAt := now })
    (fun _ => ⟨rfl, rfl⟩) (fun _ => rfl) other otherPlan
  refine hends.trans (Option.map_congr fun branch _ => ?_)
  split <;> rfl

theorem ends?_addBranch {branch : Branch} (fresh : r.branch? branch.name branch.plan = none) :
    (r.addBranch branch).ends? name plan
      = if name = branch.name ∧ plan = branch.plan then some (branch.base, branch.head)
        else r.ends? name plan := by
  rw [ends?, branch?_addBranch fresh]
  split <;> rfl

/-- A version at the end becomes the head of its branch. -/
theorem ends?_record (version : Version) (now : Timestamp) :
    (r.record version now).ends? name plan
      = if name = version.branch ∧ plan = version.plan then
          match r.branch? name plan with
          | some branch => some (branch.base, version.id)
          | none => some (version.parent?.getD version.id, version.id)
        else r.ends? name plan := by
  rw [record]
  cases hbranch : r.branch? version.branch version.plan with
  | some branch =>
    refine (ends?_setHead _ _ _ _ _).trans ?_
    split
    next hat =>
      obtain ⟨rfl, rfl⟩ := hat
      show (r.branch? version.branch version.plan).map _ = _
      rw [hbranch, Option.map_some]
    next => rfl
  | none =>
    dsimp only
    have hfirst : (r.addVersion version).branch? (firstBranch version).name
        (firstBranch version).plan = none := hbranch
    rw [ends?_addBranch hfirst]
    show (if name = version.branch ∧ plan = version.plan then _ else _) = _
    split
    next hat =>
      obtain ⟨rfl, rfl⟩ := hat
      rw [hbranch]
      rfl
    next => rfl

end Records

namespace Store

variable {s : Store} {r r' : Records} {policy : Policy} {stamp : Stamp} {operation : Operation}
  {answer : Except Failure Answer} {blobs : Blobs} {name : String} {plan : PlanId}

theorem ends?_executed {request : MergeRequest} {target : Branch} {actor : String}
    {mergePlan : MergePlan} (htarget : r.branch? request.targetBranch request.plan = some target)
    (planned : Planned s r stamp request actor mergePlan blobs) (status : BranchStatus)
    (now : Timestamp) :
    (r.executed request status actor now mergePlan).ends? name plan
      = if name = request.targetBranch ∧ plan = request.plan then
          some (target.base, mergePlan.head target.head)
        else r.ends? name plan := by
  have hstatus : (r.executed request status actor now mergePlan).ends? name plan
      = (r.changeBranch request.targetBranch request.plan
          (mergePlan.retarget status now)).ends? name plan := by
    rw [Records.ends?_congr (branches_executed htarget planned status now),
      Records.ends?_setBranchStatus]
  rw [hstatus, Records.ends?_changeBranch (mergePlan.key_retarget status now)
    (mergePlan.base_retarget status now)]
  split
  next hat =>
    obtain ⟨rfl, rfl⟩ := hat
    rw [htarget, Option.map_some, MergePlan.head_retarget]
  next => rfl

/-- What a step may do to a branch. -/
inductive BranchStep (r r' : Records) (operation : Operation) (answer : Except Failure Answer)
    (name : String) (plan : PlanId) : Prop where
  | kept : versionsOn r'.versions plan name = versionsOn r.versions plan name →
      r'.ends? name plan = r.ends? name plan → BranchStep r r' operation answer name plan
  /-- A version is put on top of the head. -/
  | extended {branch : Branch} {version : Version} : r.branch? name plan = some branch →
      r'.versions = r.versions ++ [version] → version.plan = plan → version.branch = name →
      version.parent? = some branch.head →
      r'.ends? name plan = some (branch.base, version.id) →
      BranchStep r r' operation answer name plan
  /-- The branch begins with a version, at its parent or at itself. -/
  | begun {version : Version} : r.branch? name plan = none →
      r'.versions = r.versions ++ [version] → version.plan = plan → version.branch = name →
      (∀ parent ∈ version.parent?, Owns r.versions plan parent) →
      r'.ends? name plan = some (version.parent?.getD version.id, version.id) →
      BranchStep r r' operation answer name plan
  /-- The branch begins at a version that is there. -/
  | branched {base : String} : r.branch? name plan = none → r'.versions = r.versions →
      Owns r.versions plan base → r'.ends? name plan = some (base, base) →
      BranchStep r r' operation answer name plan
  /-- The head is set by hand. -/
  | moved {expected head : String} : operation = .updateHead name plan expected head →
      BranchStep r r' operation answer name plan
  /-- The head is set to that of the source branch of a merge. -/
  | merged {request : MergeRequest} {actor head : String} {branch : Branch} :
      request ∈ r.merges → operation = .execute request.id actor → request.targetBranch = name →
      request.plan = plan → answer = .ok (.outcome ⟨request.id, head, false⟩) →
      r'.versions = r.versions → r.branch? name plan = some branch →
      r'.ends? name plan = some (branch.base, head) →
      BranchStep r r' operation answer name plan

/-- A commit extends its branch or begins it, and leaves all others. -/
theorem branchStep_record (branches : BranchesSound r.versions r.branches) {request : NewVersion}
    {parent? : Option String} (hparent : r.parentFor request = .ok parent?) (prepared : Prepared)
    (now : Timestamp) (operation : Operation) (answer : Except Failure Answer) (name : String)
    (plan : PlanId) :
    BranchStep r (r.record (r.newVersion request prepared parent?) now) operation answer name
      plan := by
  have hversions : (r.record (r.newVersion request prepared parent?) now).versions
      = r.versions ++ [r.newVersion request prepared parent?] := Records.versions_record _ _
  have hends : (r.record (r.newVersion request prepared parent?) now).ends? name plan
      = if name = request.branch ∧ plan = request.plan then
          match r.branch? name plan with
          | some branch => some (branch.base, prepared.id)
          | none => some (parent?.getD prepared.id, prepared.id)
        else r.ends? name plan := Records.ends?_record _ _
  by_cases hat : name = request.branch ∧ plan = request.plan
  · obtain ⟨rfl, rfl⟩ := hat
    rw [if_pos ⟨rfl, rfl⟩] at hends
    cases hbranch : r.branch? request.branch request.plan with
    | some branch =>
      rw [hbranch] at hends
      exact .extended hbranch hversions rfl rfl (Records.parentFor_of_branch hparent hbranch) hends
    | none =>
      rw [hbranch] at hends
      exact .begun hbranch hversions rfl rfl (Records.owns_of_parentFor branches hparent) hends
  · rw [if_neg hat] at hends
    refine .kept ?_ hends
    rw [hversions, versionsOn_append_of_ne]
    rintro ⟨rfl, rfl⟩
    exact hat ⟨rfl, rfl⟩

/-- Every step extends a branch, or begins it, or sets its head, or leaves it. -/
theorem Step.branchStep (step : s.Step r policy stamp operation answer r' blobs)
    (sound : s.Sound r) (name : String) (plan : PlanId) :
    BranchStep r r' operation answer name plan := by
  cases step with
  | failed failure => exact .kept rfl rfl
  | asked answer => exact .kept rfl rfl
  | committed hcheck hparent hversion =>
    subst hversion
    exact branchStep_record sound.branches hparent _ _ _ _ name plan
  | restored hsource hcontent hcommit =>
    -- What is restored is committed.
    cases hcommit with
    | failed failure => exact .kept rfl rfl
    | asked answer hquestion => simp [Operation.isQuestion] at hquestion
    | committed hcheck hparent hversion =>
      subst hversion
      exact branchStep_record sound.branches hparent _ _ _ _ name plan
  | @branched request hfresh howns =>
    have hends : (r.addBranch (request.created stamp.time)).ends? name plan = _ :=
      Records.ends?_addBranch hfresh
    by_cases hat : name = request.name ∧ plan = request.plan
    · obtain ⟨rfl, rfl⟩ := hat
      exact .branched hfresh rfl howns (hends.trans (if_pos ⟨rfl, rfl⟩))
    · exact .kept rfl (hends.trans (if_neg hat))
  | @moved other head otherPlan branch hbranch howns =>
    by_cases hat : name = other ∧ plan = otherPlan
    · obtain ⟨rfl, rfl⟩ := hat
      exact .moved rfl
    · exact .kept rfl ((Records.ends?_setHead _ _ _ _ _).trans (if_neg hat))
  | opened => exact .kept rfl (Records.ends?_congr rfl)
  | settled => exact .kept rfl (Records.ends?_congr rfl)
  | repeated => exact .kept rfl rfl
  | abandoned => exact .kept rfl (Records.ends?_congr rfl)
  | @executed request target actor mergePlan blobs hmem hopen hsettled htarget hhead hplan
      planned =>
    have hversions : (r.executed request target.status actor stamp.time mergePlan).versions = _ :=
      versions_carriedOut target.status stamp.time mergePlan
    have hends : (r.executed request target.status actor stamp.time mergePlan).ends? name plan
        = _ := ends?_executed htarget planned target.status stamp.time
    by_cases hat : name = request.targetBranch ∧ plan = request.plan
    · obtain ⟨rfl, rfl⟩ := hat
      rw [if_pos ⟨rfl, rfl⟩] at hends
      cases planned with
      | moveHead => exact .merged hmem rfl rfl rfl rfl hversions htarget hends
      | keepHead => exact .merged hmem rfl rfl rfl (hhead ▸ rfl) hversions htarget hends
      | commit =>
        exact .extended htarget hversions rfl rfl (congrArg some hhead.symm) hends
    · rw [if_neg hat] at hends
      refine .kept ?_ hends
      rw [hversions]
      cases planned with
      | moveHead => rfl
      | keepHead => rfl
      | commit =>
        refine versionsOn_append_of_ne ?_
        rintro ⟨rfl, rfl⟩
        exact hat ⟨rfl, rfl⟩
  | noted => exact .kept rfl (Records.ends?_congr rfl)
  | commented => exact .kept rfl (Records.ends?_congr rfl)

end Store

end PlanHistory
