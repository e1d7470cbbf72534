/-
What holds of every store that only operations of the repository have changed.

A store is *sound* if its tables are those of records that fit together, and its blobs
the canonical forms of accepted documents (`Store.Sound`).  The parts of this are on
separate lists, so that an operation has to do with the lists that it changes:

* **`VersionsSound`** — versions with their blobs: ids and places are given once, and a
  parent comes before its children, in the same plan;
* **`BranchesSound`** — branches: names differ, and bases and heads are versions of the
  plan;
* **`MergesSound`** — merge requests with their conflicts: these are the divergences
  between the versions that the request recorded.
-/
import PlanHistory.Proofs.Conflict.Merge
import PlanHistory.Proofs.Store.Blobs
import PlanHistory.Proofs.Store.Records

namespace PlanHistory

/-! ### Steps that all succeed -/

theorem bind_eq_ok_iff {ε α β : Type} {x : Except ε α} {f : α → Except ε β} {b : β} :
    (x >>= f) = .ok b ↔ ∃ a, x = .ok a ∧ f a = .ok b := by
  cases x <;> simp [bind, Except.bind]

theorem mapError_eq_ok_iff {ε δ α : Type} {x : Except ε α} {f : ε → δ} {a : α} :
    x.mapError f = .ok a ↔ x = .ok a := by
  cases x <;> simp [Except.mapError]

/-! ### What fits together -/

/-- Whether a version of an id is among some versions, of the given plan. -/
def Owns (versions : List Version) (plan : PlanId) (id : String) : Prop :=
  ∃ version ∈ versions, version.id = id ∧ version.plan = plan

/-- The versions of a branch, in the order they were written. -/
def versionsOn (versions : List Version) (plan : PlanId) (branch : String) : List Version :=
  versions.filter fun version => version.plan == plan && version.branch == branch

/-- The blob of a version is the canonical form of an accepted document, which the
version records. -/
structure Holds (blobs : Blobs) (version : Version) (document : Json) : Prop where
  valid : Document.Valid document
  blob : Blobs.read? version.id blobs = some (Document.contentBytes document)
  hash : version.contentHash = Document.contentHash document
  size : version.contentSize = (Document.contentBytes document).size

/-- Versions with their blobs fit together. -/
structure VersionsSound (versions : List Version) (blobs : Blobs) : Prop where
  storable : ∀ version ∈ versions, version.Storable
  idsDiffer : (versions.map fun version => version.id).Nodup
  /-- The places on a branch are 1, 2 and so on. -/
  sequences : ∀ plan branch, (versionsOn versions plan branch).map (fun version => version.sequence)
    = (List.range (versionsOn versions plan branch).length).map fun i : Nat => (i : Int) + 1
  parents : ∀ earlier version later, versions = earlier ++ version :: later →
    ∀ parent ∈ version.parent?, Owns earlier version.plan parent
  contents : ∀ version ∈ versions, ∃ document, Holds blobs version document
  ascending : Keyed.Ascending blobs
  /-- No blob is without a version. -/
  owned : ∀ id, (Keyed.get? id blobs).isSome → ∃ version ∈ versions, version.id = id

/-- Branches fit the versions. -/
structure BranchesSound (versions : List Version) (branches : List Branch) : Prop where
  storable : ∀ branch ∈ branches, branch.Storable
  namesDiffer : (branches.map fun branch => (branch.name, branch.plan)).Nodup
  bases : ∀ branch ∈ branches, Owns versions branch.plan branch.base
  heads : ∀ branch ∈ branches, Owns versions branch.plan branch.head
  /-- No branch has a blank name or is of a plan with one. -/
  named : ∀ branch ∈ branches,
    require .branchName branch.name = .ok () ∧ requirePlan branch.plan = .ok ()
  homes : ∀ version ∈ versions, ∃ branch ∈ branches,
    branch.name = version.branch ∧ branch.plan = version.plan

/-- The divergences between two versions, against a third if there is one. -/
def divergencesIn (blobs : Blobs) (base? : Option String) (source target : String) :
    Except Failure (List Divergence) :=
  Store.divergencesSince base? source target ⟨Tables.empty, blobs⟩

/-- Merge requests with their conflicts fit the versions and the branches. -/
structure MergesSound (versions : List Version) (branches : List Branch) (blobs : Blobs)
    (merges : List MergeRequest) (conflicts : List Conflict) : Prop where
  storable : ∀ request ∈ merges, request.Storable
  conflictsStorable : ∀ conflict ∈ conflicts, conflict.Storable
  idsDiffer : (merges.map fun request => request.id).Nodup
  conflictIdsDiffer : (conflicts.map fun conflict => conflict.id).Nodup
  sources : ∀ request ∈ merges, Owns versions request.plan request.source
  targets : ∀ request ∈ merges, Owns versions request.plan request.target
  bases : ∀ request ∈ merges, ∀ base ∈ request.base?, Owns versions request.plan base
  results : ∀ request ∈ merges, ∀ result ∈ request.result?, Owns versions request.plan result
  sides : ∀ request ∈ merges,
    (∃ branch ∈ branches, branch.name = request.sourceBranch ∧ branch.plan = request.plan)
      ∧ ∃ branch ∈ branches, branch.name = request.targetBranch ∧ branch.plan = request.plan
  /-- The conflicts of a request are the divergences found when it was opened. -/
  compared : ∀ request ∈ merges,
    divergencesIn blobs request.base? request.source request.target
      = .ok ((conflicts.filter fun conflict => conflict.merge == request.id).map
          Conflict.divergence)
  owners : ∀ conflict ∈ conflicts, ∃ request ∈ merges, request.id = conflict.merge

/-- No label that settles one of some conflicts spells JSON that nests deeper than some
levels. -/
def ShallowLabels (levels : Nat) (conflicts : List Conflict) : Prop :=
  ∀ conflict ∈ conflicts, ∀ label ∈ conflict.resolution?,
    (Resolution.ofLabel label).Spells levels

/-- How many levels of nesting are left for a property of an object of a document. -/
def propertyLimit : Nat := Json.nestingLimit - 3

/-- A store is that of records that fit together. -/
structure Store.Sound (s : Store) (r : Records) : Prop where
  tables : s.tables = r.tables
  versions : VersionsSound r.versions s.blobs
  branches : BranchesSound r.versions r.branches
  merges : MergesSound r.versions r.branches s.blobs r.merges r.conflicts

namespace Store

variable {s : Store} {r : Records}

theorem Sound.storable (sound : s.Sound r) : r.Storable :=
  ⟨sound.versions.storable, sound.branches.storable, sound.merges.storable,
    sound.merges.conflictsStorable⟩

theorem sound_empty : Store.empty.Sound Records.empty where
  tables := rfl
  versions :=
    { storable := by simp [Records.empty]
      idsDiffer := List.nodup_nil
      sequences := fun _ _ => rfl
      parents := by simp [Records.empty]
      contents := by simp [Records.empty]
      ascending := Keyed.ascending_nil
      owned := by simp [Store.empty] }
  branches :=
    { storable := by simp [Records.empty]
      namesDiffer := List.nodup_nil
      bases := by simp [Records.empty]
      heads := by simp [Records.empty]
      named := by simp [Records.empty]
      homes := by simp [Records.empty] }
  merges :=
    { storable := by simp [Records.empty]
      conflictsStorable := by simp [Records.empty]
      idsDiffer := List.nodup_nil
      conflictIdsDiffer := List.nodup_nil
      sources := by simp [Records.empty]
      targets := by simp [Records.empty]
      bases := by simp [Records.empty]
      results := by simp [Records.empty]
      sides := by simp [Records.empty]
      compared := by simp [Records.empty]
      owners := by simp [Records.empty] }

end Store

/-- What an operation may rely on from outside: the years of the time have four digits,
the ids were never given out, and the tables have numbers left. -/
structure Stamp.Fresh (stamp : Stamp) (s : Store) : Prop where
  time : stamp.time.Writable
  safe : Blobs.isSafeId stamp.id
  version : s.tables.hasVersion stamp.id = false
  merge : s.tables.hasMerge stamp.id = false
  conflicts : ∀ i, ∀ row ∈ s.tables.conflicts, row.id ≠ some (stamp.conflictId i)
  conflictsDiffer : Function.Injective stamp.conflictId
  versionsLeft : s.tables.versions.greatest < greatestWord
  mergesLeft : s.tables.merges.greatest < greatestWord

/-! ### Versions among others -/

section Owns

variable {versions more : List Version} {plan : PlanId} {id : String}

theorem Owns.append (h : Owns versions plan id) : Owns (versions ++ more) plan id := by
  obtain ⟨version, hmem, hid, hplan⟩ := h
  exact ⟨version, List.mem_append_left _ hmem, hid, hplan⟩

theorem owns_of_mem {version : Version} (h : version ∈ versions) :
    Owns versions version.plan version.id :=
  ⟨version, h, rfl, rfl⟩

variable {r : Records}

theorem Records.exists_version? (ids : (r.versions.map fun version => version.id).Nodup)
    (h : Owns r.versions plan id) :
    ∃ version, r.version? id = some version ∧ version.plan = plan := by
  obtain ⟨version, hmem, hid, hplan⟩ := h
  cases hfind : r.version? id with
  | none => exact absurd hid (Records.version?_eq_none_iff.mp hfind version hmem)
  | some found =>
    have hfound := List.find?_some hfind
    rw [beq_iff_eq] at hfound
    have hsame : found = version := List.inj_on_of_nodup_map ids
      (List.mem_of_find?_eq_some hfind) hmem (hfound.trans hid.symm)
    exact ⟨found, rfl, by rw [hsame, hplan]⟩

theorem Records.isSome_version? (h : Owns r.versions plan id) : (r.version? id).isSome := by
  obtain ⟨version, hmem, hid, -⟩ := h
  cases hfind : r.version? id with
  | none => exact absurd hid (Records.version?_eq_none_iff.mp hfind version hmem)
  | some found => rfl

theorem Records.mem_of_version? {version : Version} (h : r.version? id = some version) :
    version ∈ r.versions ∧ version.id = id := by
  have hid := List.find?_some h
  rw [beq_iff_eq] at hid
  exact ⟨List.mem_of_find?_eq_some h, hid⟩

theorem Records.owns_of_version? {version : Version} (h : r.version? id = some version) :
    Owns r.versions version.plan id := by
  obtain ⟨hmem, rfl⟩ := Records.mem_of_version? h
  exact owns_of_mem hmem

theorem Records.mem_of_branch? {branch : Branch} {name : String}
    (h : r.branch? name plan = some branch) :
    branch ∈ r.branches ∧ branch.name = name ∧ branch.plan = plan := by
  have hfound := List.find?_some h
  rw [Bool.and_eq_true, beq_iff_eq, beq_iff_eq] at hfound
  exact ⟨List.mem_of_find?_eq_some h, hfound⟩

theorem BranchesSound.owns_head (sound : BranchesSound r.versions r.branches) {name : String}
    {branch : Branch} (h : r.branch? name plan = some branch) :
    Owns r.versions plan branch.head := by
  obtain ⟨hmem, -, rfl⟩ := Records.mem_of_branch? h
  exact sound.heads branch hmem

theorem Records.exists_branch? {name : String}
    (h : ∃ branch ∈ r.branches, branch.name = name ∧ branch.plan = plan) :
    ∃ branch, r.branch? name plan = some branch := by
  obtain ⟨branch, hmem, hbranch⟩ := h
  cases hfind : r.branch? name plan with
  | none => exact absurd hbranch (Records.branch?_eq_none_iff.mp hfind branch hmem)
  | some found => exact ⟨found, rfl⟩

theorem BranchesSound.branch?_of_mem (sound : BranchesSound r.versions r.branches)
    {branch : Branch} (h : branch ∈ r.branches) :
    r.branch? branch.name branch.plan = some branch := by
  obtain ⟨found, hfound⟩ := Records.exists_branch? ⟨branch, h, rfl, rfl⟩
  rw [hfound, Records.eq_of_branch? sound.namesDiffer hfound h rfl rfl]

end Owns

/-! ### Contents -/

section Contents

variable {versions : List Version} {blobs : Blobs} {version : Version} {document : Json}

theorem Holds.content (h : Holds blobs version document) :
    Blobs.content version.id blobs
      = if document.nesting ≤ Json.nestingLimit then .ok document
        else .error (.storage .unreadableContent) :=
  Blobs.content_of_read? h.valid.ordered h.blob

/-- What is read of a version is the document that its blob holds. -/
theorem VersionsSound.holds_of_content (sound : VersionsSound versions blobs)
    (hmem : version ∈ versions) (h : Blobs.content version.id blobs = .ok document) :
    Holds blobs version document ∧ document.nesting ≤ Json.nestingLimit := by
  obtain ⟨held, hheld⟩ := sound.contents version hmem
  rw [hheld.content] at h
  split at h
  next hle =>
    obtain rfl := Except.ok.inj h
    exact ⟨hheld, hle⟩
  next => simp at h

theorem VersionsSound.holds_of_owns {plan : PlanId} {id : String}
    (sound : VersionsSound versions blobs) (hid : Owns versions plan id)
    (h : Blobs.content id blobs = .ok document) :
    Document.Valid document ∧ document.nesting ≤ Json.nestingLimit := by
  obtain ⟨version, hmem, rfl, -⟩ := hid
  obtain ⟨hheld, hle⟩ := sound.holds_of_content hmem h
  exact ⟨hheld.valid, hle⟩

theorem VersionsSound.read?_of_owns {plan : PlanId} {id : String}
    (sound : VersionsSound versions blobs) (hid : Owns versions plan id)
    (h : Blobs.content id blobs = .ok document) :
    Blobs.read? id blobs = some (Document.contentBytes document) := by
  obtain ⟨version, hmem, rfl, -⟩ := hid
  exact (sound.holds_of_content hmem h).1.blob

end Contents

end PlanHistory
