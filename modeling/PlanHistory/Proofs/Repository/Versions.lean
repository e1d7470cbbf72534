/-
New versions, and the operations that write one.

On the tables of sound records every step of `Tables.recordVersion` has a known answer:

* **`Records.advanceHead_tables`** — the head moves if the row of the version is read and the
  head is where it was seen;
* **`Records.nextSequence_tables`** — the next place is after all those on the branch;
* **`Records.recordVersion_tables`** — the version is recorded unless its parent or its place
  is refused (`Records.parentFor`).

A commit has a known answer with them (**`Store.commit_eq`**), and a version that is
recorded keeps the store sound (**`Store.Sound.record`**).
-/
import PlanHistory.Proofs.Repository.Changes

namespace PlanHistory

theorem requireOwner_eq_ok_iff {role : VersionRole} {id : String} {found plan : PlanId} :
    requireOwner role id found plan = .ok () ↔ found = plan := by
  rw [requireOwner]
  split <;> simp [*]

namespace Records

variable {r : Records}

/-! ### Moving a head -/

theorem advanceHead_tables (storable : r.Storable) (names : r.NamesDiffer) {name : String}
    {plan : PlanId} {branch : Branch} (hbranch : r.branch? name plan = some branch)
    (expected : String) {head : String} {version : Version}
    (hversion : r.version? head = some version) (hplan : version.plan = plan)
    (status : BranchStatus) (now : Timestamp) :
    r.tables.advanceHead name plan expected head status now
      = if Legible version.metadata then
          if branch.head = expected then .ok (r.setHead name plan head status now).tables
          else .error (Failure.headMoved name expected branch.head)
        else .error .illegible := by
  rw [Tables.advanceHead, version_tables storable]
  by_cases hlegible : Legible version.metadata
  swap
  · rw [if_neg hlegible, readVersion_of_illegible hversion hlegible]
    rfl
  have howner : requireOwner .newHead head version.plan plan = .ok () := by
    rw [requireOwner, if_pos hplan]
  rw [if_pos hlegible, readVersion_of_legible hversion hlegible]
  dsimp only [bind, Except.bind]
  rw [howner]
  dsimp only
  by_cases hsame : branch.head = expected
  · obtain ⟨changed, hchanged, hswap⟩ := swapHead_of_head names hbranch head status now
      (by rw [hversion]; rfl)
    rw [if_pos hsame, ← hsame, hswap]
    dsimp only
    rw [if_neg hchanged]
    rfl
  · rw [if_neg hsame, swapHead_of_moved names hbranch hsame]
    dsimp only
    rw [if_pos rfl, branch_tables storable, hbranch]
    rfl

/-! ### The place on a branch -/

theorem foldl_max_range (n : Nat) (last : Int) (h : last ≤ 1) :
    ((List.range n).map fun i : Nat => IntegerCell.whole ((i : Int) + 1)).foldl IntegerCell.max
        (.whole last)
      = .whole (if n = 0 then last else n) := by
  induction n with
  | zero => rfl
  | succ n ih =>
    rw [List.range_succ, List.map_append, List.map_singleton, List.foldl_append, ih]
    rw [List.foldl_cons, List.foldl_nil, IntegerCell.max]
    have hle : IntegerCell.le (.whole (if n = 0 then last else n)) (.whole ((n : Int) + 1))
        = true := by
      rw [IntegerCell.le, decide_eq_true_eq]
      split <;> omega
    rw [hle]
    simp

theorem sequences_tables {blobs : Blobs} (sound : VersionsSound r.versions blobs) (plan : PlanId)
    (branch : String) :
    (r.tables.versions.rows.filter (Tables.isOnBranch plan branch)).map (fun row => row.sequence)
      = (List.range (versionsOn r.versions plan branch).length).map
          fun i : Nat => IntegerCell.whole ((i : Int) + 1) := by
  rw [tables, Roll.rows_ofRows, List.filter_map, List.map_map]
  have hwhole := congrArg (List.map IntegerCell.whole) (sound.sequences plan branch)
  rw [List.map_map, List.map_map] at hwhole
  exact hwhole

theorem nextSequence_tables {blobs : Blobs} (sound : VersionsSound r.versions blobs)
    (hleft : r.tables.versions.greatest < greatestWord) (plan : PlanId) (branch : String) :
    r.tables.nextSequence plan branch
      = .ok ((versionsOn r.versions plan branch).length + 1) := by
  have hfew : ((versionsOn r.versions plan branch).length : Int) < greatestWord := by
    have hle : (versionsOn r.versions plan branch).length ≤ r.versions.length :=
      List.length_filter_le _ _
    rw [tables, Roll.greatest_ofRows, List.length_map] at hleft
    omega
  have hsequences := sequences_tables sound plan branch
  rw [Tables.nextSequence]
  generalize (versionsOn r.versions plan branch).length = n at hsequences hfew
  cases n with
  | zero =>
    rw [hsequences]
    rfl
  | succ n =>
    -- The first place is 1, and taking it twice does not change the greatest.
    have hmax := foldl_max_range (n + 1) 1 (Int.le_refl 1)
    rw [List.range_succ_eq_map, List.map_cons] at hsequences hmax
    rw [hsequences]
    have hone : IntegerCell.max (.whole 1) (.whole (((0 : Nat) : Int) + 1)) = .whole 1 := rfl
    rw [List.foldl_cons, hone] at hmax
    dsimp only
    rw [show IntegerCell.whole (((0 : Nat) : Int) + 1) = .whole 1 from rfl, hmax, if_neg (by omega)]
    dsimp only [Cell.integer]
    rw [if_neg (by omega)]

/-! ### Recording a version -/

/-- A parent that is asked for is read, and must be a version of the plan. -/
def checkParent (r : Records) (request : NewVersion) : Except Failure Unit :=
  match request.parent? with
  | some parent => do
    let version ← r.readVersion parent
    requireOwner .parent parent version.plan request.plan
  | none => .ok ()

/-- A branch that is there goes to a new version only once its row was read. -/
def checkPlace (r : Records) (request : NewVersion) : Except Failure Unit :=
  if (r.branch? request.branch request.plan).isSome ∧ ¬ Legible request.metadata then
    .error .illegible
  else .ok ()

/-- The parent that a new version gets, unless it is refused. -/
def parentFor (r : Records) (request : NewVersion) : Except Failure (Option String) := do
  r.checkParent request
  let parent? ← Tables.newParent? request.branch (r.branch? request.branch request.plan)
    request.parent?
  r.checkPlace request
  return parent?

/-- The version that a request makes of what is prepared. -/
def newVersion (r : Records) (request : NewVersion) (prepared : Prepared)
    (parent? : Option String) : Version where
  id := prepared.id
  plan := request.plan
  branch := request.branch
  parent?
  kind := request.kind
  number := versionNumber request.branch request.kind prepared.createdAt
  sequence := (versionsOn r.versions request.plan request.branch).length + 1
  message := request.message
  author := request.author
  createdAt := prepared.createdAt
  contentHash := prepared.contentHash
  contentSize := prepared.contentSize
  metadata := request.metadata

/-- The branch that begins with a version. -/
def firstBranch (version : Version) : Branch where
  name := version.branch
  plan := version.plan
  base := version.parent?.getD version.id
  head := version.id
  status := .active
  createdBy := version.author
  createdAt := version.createdAt
  updatedAt := version.createdAt
  description := ""

/-- Put a version at the end and make it the head of its branch, which begins with it if
it is not there. -/
def record (r : Records) (version : Version) (now : Timestamp) : Records :=
  match r.branch? version.branch version.plan with
  | some _ => (r.addVersion version).setHead version.branch version.plan version.id .active now
  | none => (r.addVersion version).addBranch (firstBranch version)

theorem checkParent_eq_ok_iff {request : NewVersion} :
    r.checkParent request = .ok ()
      ↔ ∀ asked ∈ request.parent?, ∃ version, r.readVersion asked = .ok version
          ∧ version.plan = request.plan := by
  rw [checkParent]
  cases request.parent? with
  | none => simp
  | some asked => simp [bind_eq_ok_iff, requireOwner_eq_ok_iff]

theorem checkPlace_eq_ok_iff {request : NewVersion} :
    r.checkPlace request = .ok ()
      ↔ ((r.branch? request.branch request.plan).isSome → Legible request.metadata) := by
  rw [checkPlace]
  by_cases hsome : (r.branch? request.branch request.plan).isSome = true <;>
    by_cases hlegible : Legible request.metadata <;> simp [hsome, hlegible]

/-- What a new version needs to get its parent. -/
theorem parentFor_eq_ok_iff {request : NewVersion} {parent? : Option String} :
    r.parentFor request = .ok parent?
      ↔ (∀ asked ∈ request.parent?, ∃ version, r.readVersion asked = .ok version
          ∧ version.plan = request.plan)
        ∧ Tables.newParent? request.branch (r.branch? request.branch request.plan)
          request.parent? = .ok parent?
        ∧ ((r.branch? request.branch request.plan).isSome → Legible request.metadata) := by
  rw [← checkParent_eq_ok_iff, ← checkPlace_eq_ok_iff, parentFor]
  simp only [bind_eq_ok_iff]
  constructor
  · rintro ⟨⟨⟩, hparent, found?, hnew, ⟨⟩, hplace, hfound⟩
    obtain rfl := Except.ok.inj hfound
    exact ⟨hparent, hnew, hplace⟩
  · rintro ⟨hparent, hnew, hplace⟩
    exact ⟨(), hparent, parent?, hnew, (), hplace, rfl⟩

/-- A new version that names its parent has it. -/
theorem newParent?_of_asked {name asked : String} {branch? : Option Branch}
    {parent? : Option String} (h : Tables.newParent? name branch? (some asked) = .ok parent?) :
    parent? = some asked := by
  rw [Tables.newParent?.eq_def] at h
  cases branch? with
  | none => exact (Except.ok.inj h).symm
  | some branch =>
    dsimp only at h
    split at h
    next => exact (Except.ok.inj h).symm
    next => cases h

/-- A new version on a branch that is there is put on top of its head. -/
theorem newParent?_of_branch {name : String} {branch : Branch} {asked? parent? : Option String}
    (h : Tables.newParent? name (some branch) asked? = .ok parent?) :
    parent? = some branch.head := by
  cases asked? with
  | none => exact (Except.ok.inj h).symm
  | some asked =>
    rw [Tables.newParent?] at h
    split at h
    next hhead =>
      rw [hhead]
      exact (Except.ok.inj h).symm
    next => cases h

theorem owns_of_newParent? (branches : BranchesSound r.versions r.branches) {request : NewVersion}
    {parent? : Option String} (hparent : r.checkParent request = .ok ())
    (h : Tables.newParent? request.branch (r.branch? request.branch request.plan) request.parent?
      = .ok parent?) :
    ∀ parent ∈ parent?, Owns r.versions request.plan parent := by
  rintro parent rfl
  cases hasked : request.parent? with
  | some asked =>
    obtain ⟨version, hread, hplan⟩ := checkParent_eq_ok_iff.mp hparent asked hasked
    rw [hasked] at h
    rw [Option.some_inj.mp (newParent?_of_asked h), ← hplan]
    exact owns_of_version? (readVersion_eq_ok_iff.mp hread).1
  | none =>
    rw [hasked] at h
    -- A commit that names no parent goes on top of the head of its branch.
    cases hbranch : r.branch? request.branch request.plan with
    | some branch =>
      rw [hbranch] at h
      rw [Option.some_inj.mp (newParent?_of_branch h)]
      exact branches.owns_head hbranch
    | none => simp [hbranch, Tables.newParent?] at h

theorem owns_of_parentFor (branches : BranchesSound r.versions r.branches) {request : NewVersion}
    {parent? : Option String} (h : r.parentFor request = .ok parent?) :
    ∀ parent ∈ parent?, Owns r.versions request.plan parent := by
  obtain ⟨hparent, hnew, -⟩ := parentFor_eq_ok_iff.mp h
  exact owns_of_newParent? branches (checkParent_eq_ok_iff.mpr hparent) hnew

theorem parentFor_of_asked {request : NewVersion} {parent? : Option String} {asked : String}
    (h : r.parentFor request = .ok parent?) (hasked : request.parent? = some asked) :
    parent? = some asked :=
  newParent?_of_asked (hasked ▸ (parentFor_eq_ok_iff.mp h).2.1)

theorem parentFor_of_branch {request : NewVersion} {parent? : Option String} {branch : Branch}
    (h : r.parentFor request = .ok parent?)
    (hbranch : r.branch? request.branch request.plan = some branch) :
    parent? = some branch.head :=
  newParent?_of_branch (hbranch ▸ (parentFor_eq_ok_iff.mp h).2.1)

theorem storable_addVersion (storable : r.Storable) {version : Version} (h : version.Storable) :
    (r.addVersion version).Storable where
  versions := forall_mem_concat storable.versions h
  branches := storable.branches
  merges := storable.merges
  conflicts := storable.conflicts

theorem nodup_addVersion (ids : (r.versions.map fun version => version.id).Nodup)
    {version : Version} (h : r.version? version.id = none) :
    ((r.addVersion version).versions.map fun version => version.id).Nodup :=
  nodup_map_concat ids (version?_eq_none_iff.mp h)

/-- A version whose place is after all those on its branch is recorded. -/
theorem insertVersion_newVersion {blobs : Blobs} (versions : VersionsSound r.versions blobs)
    (hleft : r.tables.versions.greatest < greatestWord) {request : NewVersion}
    {prepared : Prepared} (fresh : r.version? prepared.id = none) (parent? : Option String) :
    r.tables.insertVersion (r.newVersion request prepared parent?)
      = .ok (r.addVersion (r.newVersion request prepared parent?)).tables := by
  refine insertVersion_tables hleft fresh fun other hmem hplan hbranch hsame => ?_
  -- No other version of the branch has the place, since theirs are 1 to their number.
  have hon : other ∈ versionsOn r.versions request.plan request.branch := by
    rw [versionsOn, List.mem_filter, Bool.and_eq_true, beq_iff_eq, beq_iff_eq]
    exact ⟨hmem, hplan, hbranch⟩
  have hplace := List.mem_map_of_mem (f := fun version : Version => version.sequence) hon
  rw [versions.sequences] at hplace
  obtain ⟨i, hi, hsequence⟩ := List.mem_map.mp hplace
  rw [List.mem_range] at hi
  have hsame : other.sequence
      = (versionsOn r.versions request.plan request.branch).length + 1 := hsame
  omega

/-- A version that was put at the end becomes the head of its branch, if its row is read where
the branch is there. -/
theorem place_tables {blobs : Blobs} (storable : r.Storable)
    (versions : VersionsSound r.versions blobs) (branches : BranchesSound r.versions r.branches)
    (version : Version) (fresh : r.version? version.id = none) (hstorable : version.Storable)
    (hparent : ∀ parent ∈ version.parent?, Owns r.versions version.plan parent) (now : Timestamp) :
    (match r.branch? version.branch version.plan with
      | some branch =>
        (r.addVersion version).tables.advanceHead version.branch version.plan branch.head version.id
          .active now
      | none =>
        ((r.addVersion version).tables.insertBranch (firstBranch version)).mapError
          Failure.ofTable)
      = if (r.branch? version.branch version.plan).isSome ∧ ¬ Legible version.metadata then
          .error .illegible
        else .ok (r.record version now).tables := by
  have hmem : version ∈ (r.addVersion version).versions :=
    List.mem_append_right _ (List.mem_singleton_self version)
  have hself : (r.addVersion version).version? version.id = some version :=
    version?_of_mem (nodup_addVersion versions.idsDiffer fresh) hmem
  rw [record]
  cases hbranch : r.branch? version.branch version.plan with
  | some branch =>
    dsimp only [Option.isSome_some]
    rw [advanceHead_tables (storable_addVersion storable hstorable) branches.namesDiffer hbranch
      branch.head hself rfl, if_pos rfl]
    by_cases hlegible : Legible version.metadata
    · rw [if_pos hlegible, if_neg (by simp [hlegible])]
    · rw [if_neg hlegible, if_pos (by simp [hlegible])]
  | none =>
    -- A branch begins at the parent of its first version, or at the version if it has none.
    have hbase : ((r.addVersion version).version? (firstBranch version).base).isSome := by
      rw [firstBranch]
      cases hparent? : version.parent? with
      | none => exact isSome_version? (owns_of_mem hmem)
      | some parent => exact isSome_version? (hparent parent hparent?).append
    dsimp only [Option.isSome_none]
    rw [insertBranch_tables hbranch hbase (isSome_version? (owns_of_mem hmem)),
      if_neg (by simp)]
    rfl

/-- Add a version whose parent is known, and make it the head of its branch. -/
def place (version : Version) (branch? : Option Branch) (now : Timestamp) (tables : Tables) :
    Except Failure (Version × Tables) := do
  let tables ← (tables.insertVersion version).mapError Failure.ofTable
  match branch? with
  | some branch =>
    let tables ←
      tables.advanceHead version.branch version.plan branch.head version.id .active now
    return (version, tables)
  | none =>
    let tables ← (tables.insertBranch (firstBranch version)).mapError Failure.ofTable
    return (version, tables)

/-- Once it is known which parent it gets, a version is put in its place. -/
theorem recordVersion_eq_bind {blobs : Blobs} (storable : r.Storable)
    (versions : VersionsSound r.versions blobs)
    (hleft : r.tables.versions.greatest < greatestWord) (request : NewVersion)
    (prepared : Prepared) (now : Timestamp) :
    r.tables.recordVersion request prepared now
      = r.checkParent request >>= fun _ =>
          Tables.newParent? request.branch (r.branch? request.branch request.plan)
              request.parent? >>= fun parent? =>
            place (r.newVersion request prepared parent?)
              (r.branch? request.branch request.plan) now r.tables := by
  rw [Tables.recordVersion, checkParent]
  simp only [branch?_tables storable, nextSequence_tables versions hleft, version_tables storable]
  -- The tables look for the parent step by step as the records do.
  cases request.parent? with
  | none =>
    dsimp only [bind, Except.bind, pure, Except.pure, Except.mapError]
    cases Tables.newParent? request.branch (r.branch? request.branch request.plan) none <;> rfl
  | some asked =>
    dsimp only [bind, Except.bind, Except.mapError]
    cases r.readVersion asked with
    | error failure => rfl
    | ok version =>
      dsimp only
      cases requireOwner .parent asked version.plan request.plan with
      | error failure => rfl
      | ok =>
        dsimp only
        cases Tables.newParent? request.branch (r.branch? request.branch request.plan)
          (some asked) <;> rfl

/-- A version on top of one of its plan is recorded, unless its branch is there and its row is
not read. -/
theorem place_newVersion {blobs : Blobs} (storable : r.Storable)
    (versions : VersionsSound r.versions blobs) (branches : BranchesSound r.versions r.branches)
    (hleft : r.tables.versions.greatest < greatestWord) {request : NewVersion}
    {prepared : Prepared} (fresh : r.version? prepared.id = none) {parent? : Option String}
    (hstorable : (r.newVersion request prepared parent?).Storable)
    (howns : ∀ parent ∈ parent?, Owns r.versions request.plan parent) (now : Timestamp) :
    place (r.newVersion request prepared parent?) (r.branch? request.branch request.plan) now
        r.tables
      = if (r.branch? request.branch request.plan).isSome ∧ ¬ Legible request.metadata then
          .error .illegible
        else .ok (r.newVersion request prepared parent?,
          (r.record (r.newVersion request prepared parent?) now).tables) := by
  have hend := place_tables storable versions branches (r.newVersion request prepared parent?)
    fresh hstorable howns now
  rw [place, insertVersion_newVersion versions hleft fresh]
  change _ = if (r.branch? request.branch request.plan).isSome ∧ ¬ Legible request.metadata then
    _ else _ at hend
  cases hbranch : r.branch? request.branch request.plan with
  | some branch =>
    have hfound : r.branch? (r.newVersion request prepared parent?).branch
        (r.newVersion request prepared parent?).plan = some branch := hbranch
    rw [hfound, hbranch] at hend
    dsimp only [bind, Except.bind, Except.mapError] at hend ⊢
    rw [hend]
    by_cases hrefused : (some branch).isSome = true ∧ ¬ Legible request.metadata
    · rw [if_pos hrefused, if_pos hrefused]
    · rw [if_neg hrefused, if_neg hrefused]
      rfl
  | none =>
    have hnone : r.branch? (r.newVersion request prepared parent?).branch
        (r.newVersion request prepared parent?).plan = none := hbranch
    rw [hnone, hbranch] at hend
    dsimp only [bind, Except.bind, Except.mapError] at hend ⊢
    rw [hend, if_neg (by simp), if_neg (by simp)]
    rfl

theorem recordVersion_tables {blobs : Blobs} (storable : r.Storable)
    (versions : VersionsSound r.versions blobs) (branches : BranchesSound r.versions r.branches)
    (hleft : r.tables.versions.greatest < greatestWord) (request : NewVersion)
    {prepared : Prepared} (fresh : r.version? prepared.id = none)
    (hstorable : ∀ parent?, (r.newVersion request prepared parent?).Storable) (now : Timestamp) :
    r.tables.recordVersion request prepared now
      = (r.parentFor request).map fun parent? =>
          (r.newVersion request prepared parent?,
            (r.record (r.newVersion request prepared parent?) now).tables) := by
  rw [recordVersion_eq_bind storable versions hleft, parentFor]
  cases hparent : r.checkParent request with
  | error failure => rfl
  | ok =>
    dsimp only [bind, Except.bind]
    cases hnew : Tables.newParent? request.branch (r.branch? request.branch request.plan)
      request.parent? with
    | error failure => rfl
    | ok parent? =>
      dsimp only
      rw [place_newVersion storable versions branches hleft fresh (hstorable parent?)
        (owns_of_newParent? branches hparent hnew), checkPlace]
      split <;> rfl

theorem versions_record (version : Version) (now : Timestamp) :
    (r.record version now).versions = r.versions ++ [version] := by
  rw [record]
  split <;> rfl

theorem version?_record (version : Version) (fresh : r.version? version.id = none)
    (ids : (r.versions.map fun version => version.id).Nodup) (now : Timestamp) :
    (r.record version now).version? version.id = some version := by
  have hmem : version ∈ (r.addVersion version).versions :=
    List.mem_append_right _ (List.mem_singleton_self version)
  have hversion := version?_of_mem (nodup_addVersion ids fresh) hmem
  rw [version?, versions_record]
  exact hversion

theorem merges_record (version : Version) (now : Timestamp) :
    (r.record version now).merges = r.merges := by
  rw [record]
  split <;> rfl

theorem conflicts_record (version : Version) (now : Timestamp) :
    (r.record version now).conflicts = r.conflicts := by
  rw [record]
  split <;> rfl

/-- The names of the branches of a plan stay. -/
theorem exists_branch_record {version : Version} {now : Timestamp} {name : String} {plan : PlanId}
    (h : ∃ branch ∈ r.branches, branch.name = name ∧ branch.plan = plan) :
    ∃ branch ∈ (r.record version now).branches, branch.name = name ∧ branch.plan = plan := by
  obtain ⟨branch, hmem, hbranch⟩ := h
  rw [record]
  split
  · refine ⟨_, List.mem_map_of_mem hmem, ?_⟩
    split <;> exact hbranch
  · exact ⟨branch, List.mem_append_left _ hmem, hbranch⟩

end Records

/-- What is prepared of a document under a stamp. -/
def Stamp.prepared (stamp : Stamp) (content : Json) : Prepared :=
  ⟨stamp.id, stamp.time, Document.contentHash content, (Document.contentBytes content).size⟩

namespace Store

variable {s : Store} {r : Records} {stamp : Stamp}

/-! ### Soundness -/

theorem Sound.version?_eq_none (sound : s.Sound r) (fresh : stamp.Fresh s) :
    r.version? stamp.id = none := by
  have hversion := fresh.version
  rw [sound.tables, Records.hasVersion_tables] at hversion
  exact Option.not_isSome_iff_eq_none.mp (by rw [hversion]; decide)

/-- An id that no version has is no blob's either. -/
theorem Sound.blob_eq_none (sound : s.Sound r) (fresh : stamp.Fresh s) :
    Keyed.get? stamp.id s.blobs = none := by
  cases hblob : Keyed.get? stamp.id s.blobs with
  | none => rfl
  | some bytes =>
    obtain ⟨version, hmem, hid⟩ := sound.versions.owned stamp.id (by rw [hblob]; rfl)
    exact absurd hid (Records.version?_eq_none_iff.mp (sound.version?_eq_none fresh) version hmem)

theorem record_branches (sound : BranchesSound r.versions r.branches) {version : Version}
    (storable : version.Storable)
    (parent : ∀ parent ∈ version.parent?, Owns r.versions version.plan parent)
    (named : require .branchName version.branch = .ok () ∧ requirePlan version.plan = .ok ())
    {now : Timestamp} (hnow : now.Writable) :
    BranchesSound (r.record version now).versions (r.record version now).branches := by
  have hself : Owns (r.versions ++ [version]) version.plan version.id :=
    owns_of_mem (List.mem_append_right _ (List.mem_singleton_self version))
  rw [Records.record]
  cases hbranch : r.branch? version.branch version.plan with
  | some branch =>
    obtain ⟨hmem, hname, hplan⟩ := Records.mem_of_branch? hbranch
    refine (sound.addVersion ⟨branch, hmem, hname, hplan⟩).change _ _
      (fun other => ⟨rfl, rfl, rfl⟩) (fun other h => ⟨h.createdAt, hnow⟩) ?_
    intro other _ hsame
    rw [Bool.and_eq_true, beq_iff_eq, beq_iff_eq] at hsame
    rw [hsame.2]
    exact hself
  | none =>
    refine sound.add [version] ⟨storable.createdAt, storable.createdAt⟩
      (Records.branch?_eq_none_iff.mp hbranch) ?_ hself named ?_
    · show Owns (r.versions ++ [version]) version.plan (version.parent?.getD version.id)
      cases hparent? : version.parent? with
      | none => exact hself
      | some id => exact (parent id hparent?).append
    · intro other hmem
      rw [List.mem_singleton.mp hmem]
      exact ⟨rfl, rfl⟩

/-- A new version with the next place on its branch and a parent in its plan keeps the store
sound. -/
theorem Sound.record (sound : s.Sound r) (version : Version) {document : Json}
    (storable : version.Storable) (fresh : r.version? version.id = none)
    (place : version.sequence = (versionsOn r.versions version.plan version.branch).length + 1)
    (parent : ∀ parent ∈ version.parent?, Owns r.versions version.plan parent)
    (safe : Blobs.isSafeId version.id) (valid : Document.Valid document)
    (hash : version.contentHash = Document.contentHash document)
    (size : version.contentSize = (Document.contentBytes document).size)
    (named : require .branchName version.branch = .ok () ∧ requirePlan version.plan = .ok ())
    {now : Timestamp} (hnow : now.Writable) :
    Sound ⟨(r.record version now).tables,
      Keyed.insert version.id (Document.contentBytes document) s.blobs⟩ (r.record version now) := by
  have hfresh := Records.version?_eq_none_iff.mp fresh
  have hversions := sound.versions.add storable hfresh place parent safe valid hash size
  refine
    { tables := rfl
      versions := by rwa [Records.versions_record]
      branches := record_branches sound.branches storable parent named hnow
      merges := ?merges }
  case merges =>
    rw [Records.merges_record, Records.conflicts_record]
    refine sound.merges.extend ?_ (fun _ _ => Records.exists_branch_record) ?_
    · rw [Records.versions_record]
      exact fun _ _ howns => howns.append
    · rintro plan id ⟨other, hmem, rfl, -⟩
      exact Blobs.content_insert_of_ne (hfresh other hmem)

/-! ### Commits -/

/-- A blob under a fresh id is written. -/
theorem prepare_eq (sound : s.Sound r) (fresh : stamp.Fresh s) (content : Json) :
    prepare stamp content s.blobs
      = .ok (stamp.prepared content,
          Keyed.insert stamp.id (Document.contentBytes content) s.blobs) := by
  rw [prepare, Blobs.write_of_fresh fresh.safe (sound.blob_eq_none fresh)]
  rfl

theorem check_eq_ok {request : NewVersion} {content : Json} (h : request.check content = .ok ()) :
    (require .branchName request.branch = .ok () ∧ requirePlan request.plan = .ok ())
      ∧ Document.validate content = .ok () := by
  obtain ⟨⟨⟩, hplan, h⟩ := bind_eq_ok_iff.mp h
  obtain ⟨⟨⟩, hbranch, h⟩ := bind_eq_ok_iff.mp h
  exact ⟨⟨hbranch, hplan⟩, mapError_eq_ok_iff.mp h⟩

/-- A commit is refused before anything is written, or for its parent, or recorded. -/
theorem commit_eq (sound : s.Sound r) (fresh : stamp.Fresh s) (content : Json)
    {request : NewVersion} (metadata : (Json.object request.metadata).Ordered) :
    s.commit stamp content request
      = match request.check content, r.parentFor request with
        | .error failure, _ => (.error failure, s)
        | .ok (), .error failure => (.error failure, s)
        | .ok (), .ok parent? =>
          let version := r.newVersion request (stamp.prepared content) parent?
          (.ok ⟨version.id, version.number, version.contentHash⟩,
            ⟨(r.record version stamp.time).tables,
              Keyed.insert stamp.id (Document.contentBytes content) s.blobs⟩) := by
  have hleft : r.tables.versions.greatest < greatestWord := sound.tables ▸ fresh.versionsLeft
  have hid : r.version? (stamp.prepared content).id = none := sound.version?_eq_none fresh
  have hrecord := Records.recordVersion_tables sound.storable sound.versions sound.branches hleft
    request hid (fun _ => ⟨fresh.time, metadata⟩) stamp.time
  have hdiscard : Blobs.discard stamp.id
      (Keyed.insert stamp.id (Document.contentBytes content) s.blobs) = s.blobs :=
    Blobs.discard_insert fresh.safe (sound.blob_eq_none fresh)
  rw [commit, prepare_eq sound fresh]
  cases hcheck : request.check content with
  | error failure => rfl
  | ok =>
    dsimp only
    rw [sound.tables, hrecord]
    cases r.parentFor request with
    | error failure =>
      dsimp only [Except.map, Stamp.prepared]
      rw [hdiscard, ← sound.tables]
    | ok parent? => rfl

end Store

end PlanHistory
