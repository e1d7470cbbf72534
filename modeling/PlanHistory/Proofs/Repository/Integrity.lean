/-
What rows refer to is there.

The tables themselves guard few references.  The rest is kept by the checks of the
operations: in the tables of a reachable repository every row that names a version, a
branch, a request or a note names one that is there, and of its own plan if it has one
(`Tables.Integral`).

* **`Store.Step.attached`** — what one step preserves, beyond a sound store
  (`Records.Attached`);
* **`Repository.Reachable.integral`** — what every run preserves.
-/
import PlanHistory.Proofs.Repository.Growth

namespace PlanHistory

/-! ### Rows -/

namespace Tables

/-- Whether a version of an id is there, of the given plan. -/
def OwnsVersion (tables : Tables) (plan : PlanId) (id : String) : Prop :=
  ∃ row ∈ tables.versions.rows, row.id = id ∧ row.plan = plan

/-- Whether a plan has a branch of a name. -/
def OwnsBranch (tables : Tables) (plan : PlanId) (name : String) : Prop :=
  ∃ row ∈ tables.branches, row.name = name ∧ row.plan = plan

/-- Whether a version or a note of an id is there. -/
def HasParent (tables : Tables) (id : String) : ParentKind → Prop
  | .version => ∃ row ∈ tables.versions.rows, row.id = id
  | .note => ∃ row ∈ tables.notes, row.id = id

/-- Whether all that rows refer to is there, and of their plan. -/
structure Integral (tables : Tables) : Prop where
  /-- An id tells which version is meant. -/
  versionIds : (tables.versions.rows.map fun row => row.id).Nodup
  /-- A plan has no two branches of one name. -/
  branchNames : (tables.branches.map fun row => (row.name, row.plan)).Nodup
  branchBases : ∀ row ∈ tables.branches, tables.OwnsVersion row.plan row.base
  branchHeads : ∀ row ∈ tables.branches, tables.OwnsVersion row.plan row.head
  /-- A parent is of the same plan and was written before. -/
  parents : ∀ earlier row later, tables.versions.rows = earlier ++ row :: later →
    ∀ parent ∈ row.parent?, ∃ other ∈ earlier, other.id = parent ∧ other.plan = row.plan
  homes : ∀ row ∈ tables.versions.rows, tables.OwnsBranch row.plan row.branch
  mergeVersions : ∀ row ∈ tables.merges.rows, tables.OwnsVersion row.plan row.source
    ∧ tables.OwnsVersion row.plan row.target
    ∧ (∀ base ∈ row.base?, tables.OwnsVersion row.plan base)
    ∧ ∀ result ∈ row.result?, tables.OwnsVersion row.plan result
  mergeBranches : ∀ row ∈ tables.merges.rows, tables.OwnsBranch row.plan row.sourceBranch
    ∧ tables.OwnsBranch row.plan row.targetBranch ∧ row.sourceBranch ≠ row.targetBranch
  conflicts : ∀ row ∈ tables.conflicts, ∃ request ∈ tables.merges.rows, request.id = row.merge
  notes : ∀ row ∈ tables.notes, tables.OwnsVersion row.plan row.version
  comments : ∀ row ∈ tables.comments, tables.HasParent row.parent row.parentKind

end Tables

/-! ### What a sound store leaves open -/

namespace Records

variable {r r' : Records}

/-- Whether a version or a note of an id is among the records. -/
def HasParent (r : Records) (id : String) : ParentKind → Prop
  | .version => ∃ version ∈ r.versions, version.id = id
  | .note => ∃ note ∈ r.notes, note.id = id

theorem HasParent.of_longer {id : String} {kind : ParentKind} (h : r.HasParent id kind)
    (versions : r.versions <+: r'.versions) (notes : r.notes <+: r'.notes) :
    r'.HasParent id kind := by
  cases kind with
  | version =>
    obtain ⟨version, hmem, hid⟩ := h
    exact ⟨version, versions.subset hmem, hid⟩
  | note =>
    obtain ⟨note, hmem, hid⟩ := h
    exact ⟨note, notes.subset hmem, hid⟩

/-- The parent of a comment that is taken is there. -/
theorem hasParent_of_requireParent (storable : r.Storable) {id : String} {kind : ParentKind}
    (h : r.tables.requireParent id kind = .ok ()) : r.HasParent id kind := by
  cases kind with
  | version =>
    have hversion : (r.tables.version id).map (fun _ => ()) = .ok () := h
    rw [version_tables storable] at hversion
    cases hread : r.readVersion id with
    | error failure => simp [hread, Except.map] at hversion
    | ok version => exact ⟨version, mem_of_version? (readVersion_eq_ok_iff.mp hread).1⟩
  | note =>
    have hnote : (if r.tables.hasNote id then .ok () else .error (.notFound .note id))
        = (.ok () : Except Failure Unit) := h
    split at hnote
    next hhas =>
      obtain ⟨note, hmem, hid⟩ := List.any_eq_true.mp hhas
      exact ⟨note, hmem, beq_iff_eq.mp hid⟩
    next => simp at hnote

/-- Whether requests are between two branches, and notes and comments on what is there. -/
structure Attached (r : Records) : Prop where
  sidesDiffer : ∀ request ∈ r.merges, request.sourceBranch ≠ request.targetBranch
  notes : ∀ note ∈ r.notes, Owns r.versions note.plan note.version
  comments : ∀ comment ∈ r.comments, r.HasParent comment.parent comment.parentKind

theorem attached_empty : Attached Records.empty := by
  constructor <;> simp [Records.empty]

/-- Versions at the end leave notes and comments where they are. -/
theorem Attached.mono (h : r.Attached) (versions : r.versions <+: r'.versions)
    (sidesDiffer : ∀ request ∈ r'.merges, request.sourceBranch ≠ request.targetBranch)
    (notes : r'.notes = r.notes) (comments : r'.comments = r.comments) : r'.Attached where
  sidesDiffer := sidesDiffer
  notes := notes ▸ fun note hmem => (h.notes note hmem).of_longer versions
  comments := comments ▸ fun comment hmem =>
    (h.comments comment hmem).of_longer versions (notes ▸ List.prefix_refl _)

end Records

theorem NewMerge.sides_of_check {request : NewMerge} (h : request.check = .ok ()) :
    request.sourceBranch ≠ request.targetBranch := by
  obtain ⟨⟨⟩, -, h⟩ := bind_eq_ok_iff.mp h
  obtain ⟨⟨⟩, -, h⟩ := bind_eq_ok_iff.mp h
  obtain ⟨⟨⟩, -, h⟩ := bind_eq_ok_iff.mp h
  intro hsame
  rw [if_pos hsame] at h
  simp [throw, throwThe, MonadExceptOf.throw] at h

namespace Store

variable {s : Store} {r r' : Records} {policy : Policy} {stamp : Stamp} {operation : Operation}
  {answer : Except Failure Answer} {blobs : Blobs}

/-- One step keeps requests between two branches, and notes and comments on what is there. -/
theorem Step.attached (step : s.Step r policy stamp operation answer r' blobs) (sound : s.Sound r)
    (h : r.Attached) : r'.Attached := by
  have hversions := step.versions_longer
  have hnotes := step.notes_longer
  induction step with
  | failed failure => exact h
  | asked answer => exact h
  | repeated => exact h
  | @abandoned request actor =>
    refine h.mono hversions (fun other hmem => ?_) rfl rfl
    -- The requests keep their branches.
    obtain ⟨old, hold, rfl⟩ := List.mem_map.mp hmem
    split
    · exact h.sidesDiffer old hold
    · exact h.sidesDiffer old hold
  | restored _ _ _ ih => exact ih hversions hnotes
  | @committed content request parent? version =>
    have hmerges : (r.record version stamp.time).merges = r.merges := Records.merges_record _ _
    refine h.mono hversions (hmerges ▸ h.sidesDiffer) ?_ ?_
    all_goals
      rw [Records.record]
      split <;> rfl
  | branched => exact h.mono hversions h.sidesDiffer rfl rfl
  | moved => exact h.mono hversions h.sidesDiffer rfl rfl
  | settled => exact h.mono hversions h.sidesDiffer rfl rfl
  | opened hcheck =>
    exact h.mono hversions (forall_mem_concat h.sidesDiffer (NewMerge.sides_of_check hcheck)) rfl
      rfl
  | @executed request target actor plan blobs =>
    obtain ⟨-, hsameNotes, hsameComments⟩ :
        (r.executed request target.status actor stamp.time plan).conflicts = r.conflicts
          ∧ (r.executed request target.status actor stamp.time plan).notes = r.notes
          ∧ (r.executed request target.status actor stamp.time plan).comments = r.comments :=
      others_executed target.status stamp.time
    refine h.mono hversions ?_ hsameNotes hsameComments
    rw [merges_executed]
    intro other hmem
    -- Completing a request leaves its branches.
    rcases Records.mem_complete.mp hmem with ⟨hother, -⟩ | ⟨old, hold, -, rfl⟩
    · exact h.sidesDiffer other hother
    · exact h.sidesDiffer old hold
  | noted howns =>
    exact
      { sidesDiffer := h.sidesDiffer
        notes := forall_mem_concat h.notes howns
        comments := fun comment hmem => (h.comments comment hmem).of_longer hversions hnotes }
  | commented hparent =>
    refine
      { sidesDiffer := h.sidesDiffer
        notes := h.notes
        comments := forall_mem_concat
          (fun comment hmem => (h.comments comment hmem).of_longer hversions hnotes) ?_ }
    exact (Records.hasParent_of_requireParent sound.storable hparent).of_longer hversions hnotes

/-! ### Rows of records -/

theorem Sound.ownsVersion (sound : s.Sound r) {plan : PlanId} {id : String}
    (h : Owns r.versions plan id) : s.tables.OwnsVersion plan id := by
  obtain ⟨version, hmem, hversion⟩ := h
  exact ⟨VersionRow.store version, sound.versionRows ▸ List.mem_map_of_mem hmem, hversion⟩

theorem Sound.ownsBranch (sound : s.Sound r) {plan : PlanId} {name : String}
    (h : ∃ branch ∈ r.branches, branch.name = name ∧ branch.plan = plan) :
    s.tables.OwnsBranch plan name := by
  obtain ⟨branch, hmem, hbranch⟩ := h
  exact ⟨BranchRow.store branch, sound.tables ▸ List.mem_map_of_mem hmem, hbranch⟩

theorem Sound.hasParent (sound : s.Sound r) {id : String} {kind : ParentKind}
    (h : r.HasParent id kind) : s.tables.HasParent id kind := by
  cases kind with
  | version =>
    obtain ⟨version, hmem, hid⟩ := h
    exact ⟨VersionRow.store version, sound.versionRows ▸ List.mem_map_of_mem hmem, hid⟩
  | note => exact sound.tables ▸ h

/-- The tables of records that fit together refer to what is there. -/
theorem Sound.tables_integral (sound : s.Sound r) (h : r.Attached) : s.tables.Integral := by
  have hversions := sound.versionRows
  have hmerges : s.tables.merges.rows = r.merges.map MergeRow.store := by
    rw [sound.tables, Records.tables, Roll.rows_ofRows]
  have hbranches : s.tables.branches = r.branches.map BranchRow.store := by
    rw [sound.tables, Records.tables]
  have hconflicts : s.tables.conflicts = r.conflicts.map ConflictRow.store := by
    rw [sound.tables, Records.tables]
  have hnotes : s.tables.notes = r.notes := by
    rw [sound.tables, Records.tables]
  have hcomments : s.tables.comments = r.comments := by
    rw [sound.tables, Records.tables]
  refine
    { versionIds := ?versionIds
      branchNames := ?branchNames
      branchBases := hbranches ▸ List.forall_mem_map.mpr fun branch hmem =>
        sound.ownsVersion (sound.branches.bases branch hmem)
      branchHeads := hbranches ▸ List.forall_mem_map.mpr fun branch hmem =>
        sound.ownsVersion (sound.branches.heads branch hmem)
      parents := ?parents
      homes := hversions ▸ List.forall_mem_map.mpr fun version hmem =>
        sound.ownsBranch (sound.branches.homes version hmem)
      mergeVersions := hmerges ▸ List.forall_mem_map.mpr fun request hmem =>
        ⟨sound.ownsVersion (sound.merges.sources request hmem),
          sound.ownsVersion (sound.merges.targets request hmem),
          fun base hbase => sound.ownsVersion (sound.merges.bases request hmem base hbase),
          fun result hresult =>
            sound.ownsVersion (sound.merges.results request hmem result hresult)⟩
      mergeBranches := hmerges ▸ List.forall_mem_map.mpr fun request hmem =>
        ⟨sound.ownsBranch (sound.merges.sides request hmem).1,
          sound.ownsBranch (sound.merges.sides request hmem).2, h.sidesDiffer request hmem⟩
      conflicts := ?conflicts
      notes := fun note hmem => sound.ownsVersion (h.notes note (hnotes ▸ hmem))
      comments := fun comment hmem => sound.hasParent (h.comments comment (hcomments ▸ hmem)) }
  case versionIds =>
    rw [hversions, List.map_map]
    exact sound.versions.idsDiffer
  case branchNames =>
    rw [hbranches, List.map_map]
    exact sound.branches.namesDiffer
  case parents =>
    intro earlier row later hrows parent hparent
    rw [hversions] at hrows
    -- The rows before one are those of the versions before its version.
    obtain ⟨before, rest, hsplit, rfl, hrest⟩ := List.map_eq_append_iff.mp hrows
    obtain ⟨version, after, rfl, rfl, rfl⟩ := List.map_eq_cons_iff.mp hrest
    obtain ⟨other, hmem, hother⟩ :=
      sound.versions.parents before version after hsplit parent hparent
    exact ⟨VersionRow.store other, List.mem_map_of_mem hmem, hother⟩
  case conflicts =>
    rw [hconflicts]
    refine List.forall_mem_map.mpr fun conflict hmem => ?_
    obtain ⟨request, hrequest, hid⟩ := sound.merges.owners conflict hmem
    exact ⟨MergeRow.store request, hmerges ▸ List.mem_map_of_mem hrequest, hid⟩

end Store

/-! ### Runs -/

namespace Repository

variable {repository : Repository}

theorem Reachable.attached (h : Reachable repository) :
    ∃ r, repository.store.Sound r ∧ r.Attached :=
  h.invariant Records.attached_empty fun sound _ step hr => step.attached sound hr

/-- **All that the rows of a reachable repository refer to is there, and of their own
plan.** -/
theorem Reachable.integral (h : Reachable repository) : repository.store.tables.Integral := by
  obtain ⟨r, sound, hr⟩ := h.attached
  exact sound.tables_integral hr

/-- The draft is merged, and the hall gets a note, and the note a comment. -/
def notedSteps : List (String × Operation) :=
  resizeSteps ++ settleSteps "source_wins" ++
    [("note", .addNote ⟨"first", hallPlan, some "hall", none, none, "todo", "Hall", "", "clerk"⟩),
      ("remark", .addComment ⟨"note", .note, "Done", "clerk"⟩)]

theorem ordered_notedSteps : ∀ step ∈ notedSteps, step.2.Ordered :=
  List.forall_mem_append.mpr
    ⟨List.forall_mem_append.mpr ⟨ordered_resizeSteps, ordered_settleSteps "source_wins"⟩,
      List.forall_mem_cons.mpr ⟨trivial, List.forall_mem_singleton.mpr trivial⟩⟩

theorem integral_noted :
    Reachable ((empty .standard).play notedSteps)
      ∧ ((empty .standard).play notedSteps).store.tables.comments.length = 1
      ∧ ((empty .standard).play notedSteps).store.tables.Integral := by
  have hruns : (empty .standard).admits notedSteps = true
      ∧ ((empty .standard).play notedSteps).store.tables.comments.length = 1 := by
    decide +kernel
  obtain ⟨hnew, hcomments⟩ := hruns
  have hreachable : Reachable ((empty .standard).play notedSteps) :=
    (Reachable.empty .standard).play hnew ordered_notedSteps
  exact ⟨hreachable, hcomments, hreachable.integral⟩

end Repository

end PlanHistory
