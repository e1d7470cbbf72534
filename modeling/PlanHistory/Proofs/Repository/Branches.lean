/-
Branches, notes and comments.

Other branches, heads, notes and comments for the same versions keep a store sound:
**`Store.Sound.withBranches`**, **`Store.Sound.setHead`** and **`Store.Sound.withNotes`**.
-/
import PlanHistory.Proofs.Repository.Versions
import PlanHistory.Repository.Operation

namespace PlanHistory

/-- The branch that a request creates. -/
def NewBranch.created (request : NewBranch) (now : Timestamp) : Branch where
  name := request.name
  plan := request.plan
  base := request.base
  head := request.base
  status := .active
  createdBy := request.author
  createdAt := now
  updatedAt := now
  description := request.description?.getD ""

/-- The note that a request attaches. -/
def NewNote.attached (request : NewNote) (id : String) (now : Timestamp) : Note where
  id := id
  version := request.version
  plan := request.plan
  object? := request.object?
  x? := request.x?
  y? := request.y?
  kind := request.kind
  title := request.title
  content := request.content
  author := request.author
  createdAt := now
  updatedAt := now

/-- The comment that a request attaches. -/
def NewComment.attached (request : NewComment) (id : String) (now : Timestamp) : Comment where
  id := id
  parent := request.parent
  parentKind := request.parentKind
  author := request.author
  content := request.content
  createdAt := now
  updatedAt := now

namespace Store

variable {s : Store} {r : Records} {stamp : Stamp}

theorem Sound.branch?_eq (sound : s.Sound r) {name : String} {plan : PlanId} {branch : Branch}
    (h : s.tables.branch name plan = .ok branch) : r.branch? name plan = some branch := by
  rw [sound.tables, Records.branch_tables sound.storable] at h
  cases hfound : r.branch? name plan with
  | none => simp [hfound] at h
  | some found =>
    rw [hfound] at h
    exact congrArg some (Except.ok.inj h)

theorem Sound.branch_eq_ok (sound : s.Sound r) {name : String} {plan : PlanId} {branch : Branch}
    (h : r.branch? name plan = some branch) : s.tables.branch name plan = .ok branch := by
  rw [sound.tables, Records.branch_tables sound.storable, h]

/-- A version is read exactly if it is there and its metadata are legible. -/
theorem Sound.version_eq_ok_iff (sound : s.Sound r) {id : String} {version : Version} :
    s.tables.version id = .ok version
      ↔ r.version? id = some version ∧ Legible version.metadata := by
  rw [sound.tables, Records.version_tables sound.storable, Records.readVersion_eq_ok_iff]

/-- The row of a version is read exactly if its metadata are legible. -/
theorem Sound.reads_iff (sound : s.Sound r) {version : Version} (hmem : version ∈ r.versions) :
    s.tables.Reads version.id ↔ Legible version.metadata := by
  have hself := Records.version?_of_mem sound.versions.idsDiffer hmem
  rw [sound.tables, Records.reads_tables sound.storable, hself]
  simp

theorem Sound.version?_eq (sound : s.Sound r) {id : String} {version : Version}
    (h : s.tables.version id = .ok version) : r.version? id = some version :=
  (sound.version_eq_ok_iff.mp h).1

/-- Other branches for the same versions, as long as none goes. -/
theorem Sound.withBranches (sound : s.Sound r) {branches : List Branch}
    (fitting : BranchesSound r.versions branches)
    (kept : ∀ name plan, (∃ branch ∈ r.branches, branch.name = name ∧ branch.plan = plan) →
      ∃ branch ∈ branches, branch.name = name ∧ branch.plan = plan) :
    Sound ⟨{ r with branches }.tables, s.blobs⟩ { r with branches } where
  tables := rfl
  versions := sound.versions
  branches := fitting
  merges := sound.merges.extend (fun _ _ howns => howns) kept (fun _ _ _ => rfl)

theorem Sound.changeBranch (sound : s.Sound r) (name : String) (plan : PlanId)
    {change : Branch → Branch}
    (hsame : ∀ branch, (change branch).name = branch.name ∧ (change branch).plan = branch.plan
      ∧ (change branch).base = branch.base)
    (hstorable : ∀ branch, branch.Storable → (change branch).Storable)
    (hheads : ∀ branch ∈ r.branches, branch.plan = plan →
      Owns r.versions plan (change branch).head) :
    Sound ⟨(r.changeBranch name plan change).tables, s.blobs⟩
      (r.changeBranch name plan change) := by
  have hfitting := sound.branches.change (fun branch => branch.name == name && branch.plan == plan)
    change hsame hstorable fun branch hmem happlies => by
      rw [Bool.and_eq_true, beq_iff_eq, beq_iff_eq] at happlies
      rw [happlies.2]
      exact hheads branch hmem happlies.2
  refine sound.withBranches hfitting ?_
  rintro other otherPlan ⟨branch, hmem, hbranch⟩
  refine ⟨_, List.mem_map_of_mem hmem, ?_⟩
  split
  · rwa [(hsame branch).1, (hsame branch).2.1]
  · exact hbranch

theorem Sound.setHead (sound : s.Sound r) (name : String) {plan : PlanId} {head : String}
    (howns : Owns r.versions plan head) (status : BranchStatus) {now : Timestamp}
    (hnow : now.Writable) :
    Sound ⟨(r.setHead name plan head status now).tables, s.blobs⟩
      (r.setHead name plan head status now) :=
  sound.changeBranch name plan (fun _ => ⟨rfl, rfl, rfl⟩) (fun _ h => ⟨h.createdAt, hnow⟩)
    fun _ _ _ => howns

theorem Sound.setBranchStatus (sound : s.Sound r) (name : String) (plan : PlanId)
    (status : BranchStatus) {now : Timestamp} (hnow : now.Writable) :
    Sound ⟨(r.setBranchStatus name plan status now).tables, s.blobs⟩
      (r.setBranchStatus name plan status now) :=
  sound.changeBranch name plan (fun _ => ⟨rfl, rfl, rfl⟩) (fun _ h => ⟨h.createdAt, hnow⟩)
    fun branch hmem hplan => hplan ▸ sound.branches.heads branch hmem

/-! ### Operations -/

theorem owns_of_requireOwner {role : VersionRole} {version : Version} {id : String} {plan : PlanId}
    (h : r.version? id = some version) (howner : requireOwner role id version.plan plan = .ok ()) :
    Owns r.versions plan id := by
  rw [requireOwner] at howner
  split at howner
  next hplan =>
    rw [← hplan]
    exact Records.owns_of_version? h
  next => simp at howner

/-- Notes and comments are beside all else. -/
theorem Sound.withNotes (sound : s.Sound r) (notes : List NoteRow) (comments : List CommentRow) :
    Sound ⟨{ r with notes, comments }.tables, s.blobs⟩ { r with notes, comments } :=
  ⟨rfl, sound.versions, sound.branches, sound.merges⟩

end Store

end PlanHistory
