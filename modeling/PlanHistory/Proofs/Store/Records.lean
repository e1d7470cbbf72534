/-
The records behind the rows.

`Records` are what the tables of a repository stand for: versions, branches, merge
requests and conflicts as they are read, and `Records.tables` the tables that hold
them.  Every function of the tables has a lemma that says what it does to the tables
of storable records:

* reading finds the record (**`Records.version_tables`**, **`Records.branch_tables`**,
  **`Records.mergeDetails_tables`**, **`Records.conflict_tables`**);
* a change leaves the tables of changed records (**`Records.insertVersion_tables`**,
  **`Records.swapHead_of_head`** and others).
-/
import Mathlib.Data.List.Nodup
import PlanHistory.Proofs.Store.Row
import PlanHistory.Repository.Merges
import PlanHistory.Repository.Notes

namespace PlanHistory

namespace Roll

variable {ρ : Type}

/-- The table of rows that were written one after the other. -/
def ofRows (rows : List ρ) : Roll ρ :=
  ⟨rows.mapIdx fun i row => ⟨i + 1, row⟩, rows.length⟩

@[simp] theorem rows_ofRows (rows : List ρ) : (ofRows rows).rows = rows := by
  rw [Roll.rows, ofRows]
  exact List.ext_getElem (by simp) (by simp)

theorem greatest_ofRows (rows : List ρ) : (ofRows rows).greatest = rows.length := by
  have all : ∀ (entries : List (Numbered ρ)) (last : Int),
      (∀ entry ∈ entries, entry.number ≤ last) →
        entries.foldl (fun greatest entry => max greatest entry.number) last = last := by
    intro entries
    induction entries with
    | nil => intro last _; rfl
    | cons entry entries ih =>
      intro last h
      rw [List.foldl_cons, Int.max_eq_left (h entry List.mem_cons_self),
        ih last fun other hmem => h other (List.mem_cons_of_mem _ hmem)]
  rw [greatest, ofRows]
  refine all _ _ fun entry hmem => ?_
  obtain ⟨i, hi, rfl⟩ := List.mem_mapIdx.mp hmem
  dsimp only
  omega

theorem append_ofRows {rows : List ρ} (row : ρ) (h : (ofRows rows).greatest < greatestWord) :
    (ofRows rows).append row = .ok (ofRows (rows ++ [row])) := by
  rw [append, if_neg (by omega), greatest_ofRows, ofRows, ofRows]
  simp

theorem update_ofRows (rows : List ρ) (applies : ρ → Bool) (change : ρ → ρ) :
    (ofRows rows).update applies change
      = (rows.countP applies,
          ofRows (rows.map fun row => if applies row then change row else row)) := by
  rw [update, rows_ofRows, ofRows, ofRows]
  simp only [List.length_map]
  congr 2
  refine List.ext_getElem (by simp) fun i hi hi' => ?_
  simp only [List.getElem_map, List.getElem_mapIdx]
  split <;> rfl

end Roll

/-- Whether the row of a version is there and read. -/
def Tables.Reads (tables : Tables) (id : String) : Prop :=
  ∃ version, tables.version id = .ok version

instance (tables : Tables) (id : String) : Decidable (tables.Reads id) :=
  match h : tables.version id with
  | .ok version => .isTrue ⟨version, h⟩
  | .error _ => .isFalse fun ⟨_, hok⟩ => nomatch h.symm.trans hok

/-- Which versions are read is told by their rows alone. -/
theorem Tables.reads_congr {tables tables' : Tables} (h : tables'.versions = tables.versions)
    (id : String) : tables'.Reads id ↔ tables.Reads id := by
  rw [Reads, Reads, version, version, version?, version?, versionRow?, versionRow?, h]

/-- The rows of the versions of a plan, or of those of one branch of it, newest first. -/
def Tables.rowsOf (tables : Tables) (plan : PlanId) (branch? : Option String) :
    List VersionRow :=
  (tables.versions.rows.filter fun row =>
    row.plan == plan && (branch?.isNone || branch? == some row.branch)).reverse

theorem Tables.mem_of_rowsOf {tables : Tables} {plan : PlanId} {branch? : Option String}
    {row : VersionRow} (h : row ∈ tables.rowsOf plan branch?) : row ∈ tables.versions.rows :=
  (List.mem_filter.mp (List.mem_reverse.mp h)).1

/-- What the tables of a repository stand for.  Notes and comments are kept as their
rows. -/
structure Records where
  versions : List Version
  branches : List Branch
  merges : List MergeRequest
  conflicts : List Conflict
  notes : List NoteRow
  comments : List CommentRow

namespace Records

/-- No records. -/
def empty : Records := ⟨[], [], [], [], [], []⟩

/-- The tables that hold the records. -/
def tables (r : Records) : Tables where
  versions := Roll.ofRows (r.versions.map VersionRow.store)
  branches := r.branches.map BranchRow.store
  merges := Roll.ofRows (r.merges.map MergeRow.store)
  conflicts := r.conflicts.map ConflictRow.store
  notes := r.notes
  comments := r.comments

/-- Whether all records can be written down and read back. -/
structure Storable (r : Records) : Prop where
  versions : ∀ version ∈ r.versions, version.Storable
  branches : ∀ branch ∈ r.branches, branch.Storable
  merges : ∀ request ∈ r.merges, request.Storable
  conflicts : ∀ conflict ∈ r.conflicts, conflict.Storable

variable {r : Records}

/-! ### Finding records -/

/-- The version of an id. -/
def version? (r : Records) (id : String) : Option Version :=
  r.versions.find? fun version => version.id == id

/-- The branch of a name of a plan. -/
def branch? (r : Records) (name : String) (plan : PlanId) : Option Branch :=
  r.branches.find? fun branch => branch.name == name && branch.plan == plan

/-- The merge request of an id. -/
def merge? (r : Records) (id : String) : Option MergeRequest :=
  r.merges.find? fun request => request.id == id

/-- The conflict of an id. -/
def conflict? (r : Records) (id : String) : Option Conflict :=
  r.conflicts.find? fun conflict => conflict.id == id

/-- The conflicts of a merge request, in order. -/
def conflictsOf (r : Records) (merge : String) : List Conflict :=
  (r.conflicts.filter fun conflict => conflict.merge == merge).mergeSort
    fun a b => Tables.conflictLe (ConflictRow.store a) (ConflictRow.store b)

theorem versionRow?_tables (id : String) :
    r.tables.versionRow? id = (r.version? id).map VersionRow.store := by
  rw [Tables.versionRow?, tables, Roll.rows_ofRows, List.find?_map]
  rfl

theorem hasVersion_tables (id : String) : r.tables.hasVersion id = (r.version? id).isSome := by
  rw [Tables.hasVersion, tables, Roll.rows_ofRows, List.any_map, version?, List.isSome_find?]
  rfl

/-- The version of an id, as it is read. -/
def readVersion (r : Records) (id : String) : Except Failure Version :=
  match r.version? id with
  | some version => if Legible version.metadata then .ok version else .error .illegible
  | none => .error (.notFound .version id)

theorem version_tables (storable : r.Storable) (id : String) :
    r.tables.version id = r.readVersion id := by
  rw [Tables.version, Tables.version?, versionRow?_tables, readVersion]
  cases h : r.version? id with
  | none => rfl
  | some version =>
    have hread := VersionRow.read_store (storable.versions version (List.mem_of_find?_eq_some h))
    dsimp only [Option.map_some]
    by_cases hlegible : Legible version.metadata
    · rw [if_pos hlegible] at hread
      rw [if_pos hlegible, Tables.readRow?, Tables.readRow_store hread]
      rfl
    · rw [if_neg hlegible] at hread
      rw [if_neg hlegible, Tables.readRow?, Tables.readRow, hread]
      rfl

theorem readVersion_of_none {id : String} (h : r.version? id = none) :
    r.readVersion id = .error (.notFound .version id) := by
  rw [readVersion, h]

theorem readVersion_of_legible {id : String} {version : Version} (h : r.version? id = some version)
    (hlegible : Legible version.metadata) : r.readVersion id = .ok version := by
  rw [readVersion, h]
  exact if_pos hlegible

theorem readVersion_of_illegible {id : String} {version : Version}
    (h : r.version? id = some version) (hillegible : ¬ Legible version.metadata) :
    r.readVersion id = .error .illegible := by
  rw [readVersion, h]
  exact if_neg hillegible

theorem readVersion_eq_ok_iff {id : String} {version : Version} :
    r.readVersion id = .ok version ↔ r.version? id = some version ∧ Legible version.metadata := by
  rw [readVersion]
  cases r.version? id with
  | none => simp
  | some found =>
    by_cases h : Legible found.metadata
    · simp only [if_pos h, Except.ok.injEq, Option.some.injEq]
      exact ⟨fun hsame => ⟨hsame, hsame ▸ h⟩, fun hboth => hboth.1⟩
    · simp only [if_neg h, Option.some.injEq, reduceCtorEq, false_iff, not_and]
      exact fun hsame hlegible => h (hsame ▸ hlegible)

theorem reads_tables (storable : r.Storable) (id : String) :
    r.tables.Reads id ↔ ∃ version, r.version? id = some version ∧ Legible version.metadata := by
  simp only [Tables.Reads, version_tables storable, readVersion_eq_ok_iff]

/-- The versions of a plan, or those of one branch of it, newest first. -/
def versionsOf (r : Records) (plan : PlanId) (branch? : Option String) : List Version :=
  (r.versions.filter fun version => version.plan == plan
    && (branch?.isNone || branch? == some version.branch)).reverse

theorem mem_of_versionsOf {plan : PlanId} {branch? : Option String} {version : Version}
    (h : version ∈ r.versionsOf plan branch?) : version ∈ r.versions :=
  (List.mem_filter.mp (List.mem_reverse.mp h)).1

theorem rowsOf_tables (plan : PlanId) (branch? : Option String) :
    r.tables.rowsOf plan branch? = (r.versionsOf plan branch?).map VersionRow.store := by
  rw [Tables.rowsOf, tables, Roll.rows_ofRows, List.filter_map, versionsOf, List.map_reverse]
  rfl

/-- The versions of a plan, or those of one branch of it, are listed if all are legible. -/
theorem versionsOf_tables (storable : r.Storable) (plan : PlanId) (branch? : Option String) :
    r.tables.versionsOf plan branch?
      = if ∀ version ∈ r.versionsOf plan branch?, Legible version.metadata then
          .ok (r.versionsOf plan branch?)
        else .error (.badCell ⟨13, .json⟩) := by
  have hrows : r.tables.versionsOf plan branch?
      = Tables.readRows VersionRow.read (r.tables.rowsOf plan branch?) := rfl
  rw [hrows, rowsOf_tables]
  exact Tables.readRows_ite fun version hmem =>
    VersionRow.read_store (storable.versions version (mem_of_versionsOf hmem))

theorem branch?_tables (storable : r.Storable) (name : String) (plan : PlanId) :
    r.tables.branch? name plan = .ok (r.branch? name plan) := by
  rw [Tables.branch?, tables]
  dsimp only
  rw [List.find?_map]
  refine Tables.readRow?_store fun branch hmem => ?_
  exact BranchRow.read_store (storable.branches branch (List.mem_of_find?_eq_some hmem))

theorem branch_tables (storable : r.Storable) (name : String) (plan : PlanId) :
    r.tables.branch name plan
      = match r.branch? name plan with
        | some branch => .ok branch
        | none => .error (Failure.noBranch name plan) := by
  rw [Tables.branch, branch?_tables storable]
  cases r.branch? name plan <;> rfl

theorem conflictRows_tables (merge : String) :
    r.tables.conflictRows merge = (r.conflictsOf merge).map ConflictRow.store := by
  rw [Tables.conflictRows, tables]
  dsimp only
  rw [List.filter_map]
  have hsort : (r.conflictsOf merge).map ConflictRow.store
      = ((r.conflicts.filter fun conflict => conflict.merge == merge).map
          ConflictRow.store).mergeSort Tables.conflictLe :=
    List.map_mergeSort fun _ _ _ _ => rfl
  exact hsort.symm

theorem mem_conflictsOf {conflict : Conflict} {merge : String} :
    conflict ∈ r.conflictsOf merge ↔ conflict ∈ r.conflicts ∧ conflict.merge = merge := by
  rw [conflictsOf, List.mem_mergeSort, List.mem_filter, beq_iff_eq]

/-- Where the keys differ, a record is found by its key. -/
theorem find?_key_of_mem {α : Type} {key : α → String} {records : List α}
    (keys : (records.map key).Nodup) {record : α} (h : record ∈ records) :
    (records.find? fun other => key other == key record) = some record := by
  cases hfind : records.find? fun other => key other == key record with
  | none => exact absurd (beq_self_eq_true _) (List.find?_eq_none.mp hfind record h)
  | some found =>
    have hkey := List.find?_some hfind
    rw [beq_iff_eq] at hkey
    rw [List.inj_on_of_nodup_map keys (List.mem_of_find?_eq_some hfind) h hkey]

theorem version?_of_mem (ids : (r.versions.map fun version => version.id).Nodup)
    {version : Version} (h : version ∈ r.versions) : r.version? version.id = some version :=
  find?_key_of_mem ids h

/-- A version is found as before where others are put at the end. -/
theorem version?_of_longer {r' : Records} (h : r.versions <+: r'.versions) {id : String}
    {version : Version} (hversion : r.version? id = some version) :
    r'.version? id = some version := by
  obtain ⟨added, hadded⟩ := h
  have hfind : r.versions.find? (fun version => version.id == id) = some version := hversion
  rw [version?, ← hadded, List.find?_append, hfind, Option.some_or]

theorem merge?_of_mem (ids : (r.merges.map fun request => request.id).Nodup)
    {request : MergeRequest} (h : request ∈ r.merges) : r.merge? request.id = some request :=
  find?_key_of_mem ids h

theorem conflict?_of_mem (ids : (r.conflicts.map fun conflict => conflict.id).Nodup)
    {conflict : Conflict} (h : conflict ∈ r.conflicts) :
    r.conflict? conflict.id = some conflict :=
  find?_key_of_mem ids h

theorem conflictsOf_tables (storable : r.Storable) (merge : String) :
    r.tables.conflictsOf merge = .ok (r.conflictsOf merge) := by
  rw [Tables.conflictsOf, conflictRows_tables]
  refine Tables.readRows_store fun conflict hmem => ?_
  exact ConflictRow.read_store (storable.conflicts conflict (mem_conflictsOf.mp hmem).1)

theorem readIds_tables (merge : String) :
    Tables.readRows ConflictRow.readId (r.tables.conflictRows merge)
      = .ok ((r.conflictsOf merge).map fun conflict => conflict.id) := by
  rw [conflictRows_tables]
  generalize r.conflictsOf merge = conflicts
  induction conflicts with
  | nil => rfl
  | cons conflict conflicts ih =>
    rw [Tables.readRows] at ih ⊢
    rw [List.map_cons, List.mapM_cons, ih]
    rfl

/-- A merge request with the ids of its conflicts. -/
def summary (r : Records) (request : MergeRequest) : MergeSummary :=
  ⟨request, (r.conflictsOf request.id).map fun conflict => conflict.id⟩

theorem withConflicts_tables (request : MergeRequest) :
    r.tables.withConflicts request = .ok (r.summary request) := by
  rw [Tables.withConflicts, readIds_tables]
  rfl

theorem merge_tables (storable : r.Storable) (id : String) :
    r.tables.merge id
      = match r.merge? id with
        | some request => .ok (r.summary request)
        | none => .error (.notFound .mergeRequest id) := by
  have hrow : Tables.readRow? MergeRow.read (r.tables.merges.rows.find? fun row => row.id == id)
      = .ok (r.merge? id) := by
    rw [tables, Roll.rows_ofRows, List.find?_map]
    refine Tables.readRow?_store fun request hmem => ?_
    exact MergeRow.read_store (storable.merges request (List.mem_of_find?_eq_some hmem))
  rw [Tables.merge, Tables.merge?, hrow]
  cases r.merge? id with
  | none => rfl
  | some request =>
    simp only [withConflicts_tables]
    rfl

/-- The requests of a plan, or those of one status, the last first. -/
theorem mergesOf_tables (storable : r.Storable) (plan : PlanId) (status? : Option MergeStatus) :
    r.tables.mergesOf plan status?
      = .ok ((r.merges.filter fun request => request.plan == plan
          && (status?.isNone || status?.map label == some (label request.status))).reverse.map
            r.summary) := by
  rw [Tables.mergesOf, tables, Roll.rows_ofRows, List.filter_map, ← List.map_reverse,
    Tables.readRows_store, ← tables]
  · have hsummaries : (fun request => r.tables.withConflicts request)
        = fun request => pure (r.summary request) := funext withConflicts_tables
    exact (congrArg (fun read => List.mapM read _) hsummaries).trans List.mapM_pure
  · intro request hmem
    rw [List.mem_reverse, List.mem_filter] at hmem
    exact MergeRow.read_store (storable.merges request hmem.1)

theorem id_of_merge? {id : String} {request : MergeRequest} (h : r.merge? id = some request) :
    request.id = id := by
  have hid := List.find?_some h
  rwa [beq_iff_eq] at hid

theorem mergeDetails_tables (storable : r.Storable) (id : String) :
    r.tables.mergeDetails id
      = match r.merge? id with
        | some request => .ok ⟨r.summary request, r.conflictsOf id⟩
        | none => .error (.notFound .mergeRequest id) := by
  rw [Tables.mergeDetails, merge_tables storable, conflictsOf_tables storable]
  cases r.merge? id <;> rfl

theorem conflict_tables (storable : r.Storable) (id : String) :
    r.tables.conflict id
      = match r.conflict? id with
        | some conflict => .ok conflict
        | none => .error (.notFound .conflict id) := by
  rw [Tables.conflict, Tables.conflict?, tables]
  dsimp only
  rw [List.find?_map, Tables.readRow?_store]
  · have hfind : r.conflicts.find? ((fun row => row.id == some id) ∘ ConflictRow.store)
        = r.conflict? id := rfl
    rw [hfind]
    cases r.conflict? id <;> rfl
  · exact fun conflict hmem =>
      ConflictRow.read_store (storable.conflicts conflict (List.mem_of_find?_eq_some hmem))

/-! ### Changing records -/

/-- Put a version at the end. -/
def addVersion (r : Records) (version : Version) : Records :=
  { r with versions := r.versions ++ [version] }

/-- Put a branch at the end. -/
def addBranch (r : Records) (branch : Branch) : Records :=
  { r with branches := r.branches ++ [branch] }

/-- Change the branch of a name of a plan. -/
def changeBranch (r : Records) (name : String) (plan : PlanId) (change : Branch → Branch) :
    Records :=
  { r with
    branches := r.branches.map fun branch =>
      if branch.name == name && branch.plan == plan then change branch else branch }

/-- Bring the branch of a name of a plan to a head and a status. -/
def setHead (r : Records) (name : String) (plan : PlanId) (head : String) (status : BranchStatus)
    (now : Timestamp) : Records :=
  r.changeBranch name plan fun branch => { branch with head, status, updatedAt := now }

/-- Set the status of the branch of a name of a plan. -/
def setBranchStatus (r : Records) (name : String) (plan : PlanId) (status : BranchStatus)
    (now : Timestamp) : Records :=
  r.changeBranch name plan fun branch => { branch with status, updatedAt := now }

/-- Put a merge request and its conflicts at the end. -/
def addMerge (r : Records) (request : MergeRequest) (conflicts : List Conflict) : Records :=
  { r with merges := r.merges ++ [request], conflicts := r.conflicts ++ conflicts }

/-- Complete the merge request of an id. -/
def complete (r : Records) (id actor result : String) (now : Timestamp) : Records :=
  { r with
    merges := r.merges.map fun request =>
      if request.id == id then
        { request with
          status := .completed
          mergedBy? := some actor
          mergedAt? := some now
          result? := some result }
      else request }

/-- Mark the merge request of an id failed, if it is not over. -/
def fail (r : Records) (id : String) : Records :=
  { r with
    merges := r.merges.map fun request =>
      if request.id == id && !request.status.isTerminal then { request with status := .failed }
      else request }

/-- The conflict once it is settled, if it has the id and is not. -/
def settledConflict (id resolution actor : String) (now : Timestamp) (conflict : Conflict) :
    Conflict :=
  if conflict.id == id && conflict.resolution?.isNone then
    { conflict with
      resolution? := some resolution
      resolvedBy? := some actor
      resolvedAt? := some now }
  else conflict

/-- Settle the conflict of an id, if it is not settled. -/
def settle (r : Records) (id resolution actor : String) (now : Timestamp) : Records :=
  { r with conflicts := r.conflicts.map (settledConflict id resolution actor now) }

/-- A change of conflicts that leaves their requests, objects and properties keeps the order of
the conflicts of a request. -/
theorem conflictsOf_map {change : Conflict → Conflict}
    (hsame : ∀ conflict, (change conflict).merge = conflict.merge
      ∧ (change conflict).object = conflict.object
      ∧ (change conflict).property? = conflict.property?) (merge : String) :
    { r with conflicts := r.conflicts.map change }.conflictsOf merge
      = (r.conflictsOf merge).map change := by
  rw [conflictsOf, conflictsOf, List.map_mergeSort (s := fun a b => Tables.conflictLe
    (ConflictRow.store a) (ConflictRow.store b)), List.filter_map]
  · congr 2
    refine List.filter_congr fun conflict _ => ?_
    rw [Function.comp_apply, (hsame conflict).1]
  -- Sorting looks at the objects and properties only.
  · intro a _ b _
    have hle {a a' b b' : ConflictRow} (ha : a'.object = a.object ∧ a'.property? = a.property?)
        (hb : b'.object = b.object ∧ b'.property? = b.property?) :
        Tables.conflictLe a b = Tables.conflictLe a' b' := by
      rw [Tables.conflictLe, Tables.conflictLe, ha.1, ha.2, hb.1, hb.2]
    exact hle (hsame a).2 (hsame b).2

/-- A change of conflicts that leaves their ids changes the one that is found. -/
theorem conflict?_map {change : Conflict → Conflict}
    (hid : ∀ conflict, (change conflict).id = conflict.id) (id : String) :
    { r with conflicts := r.conflicts.map change }.conflict? id
      = (r.conflict? id).map change := by
  have hfind : (fun conflict : Conflict => conflict.id == id) ∘ change
      = fun conflict => conflict.id == id :=
    funext fun conflict => congrArg (· == id) (hid conflict)
  rw [conflict?, List.find?_map, hfind]
  rfl

theorem id_settledConflict (id resolution actor : String) (now : Timestamp)
    (conflict : Conflict) :
    (settledConflict id resolution actor now conflict).id = conflict.id := by
  rw [settledConflict]
  split <;> rfl

/-- Settling leaves what a conflict is about. -/
theorem settledConflict_about (id resolution actor : String) (now : Timestamp)
    (conflict : Conflict) :
    (settledConflict id resolution actor now conflict).merge = conflict.merge
      ∧ (settledConflict id resolution actor now conflict).object = conflict.object
      ∧ (settledConflict id resolution actor now conflict).property? = conflict.property? := by
  rw [settledConflict]
  split <;> exact ⟨rfl, rfl, rfl⟩

/-- Settling a conflict keeps the order of the conflicts of a request. -/
theorem conflictsOf_settle (id resolution actor : String) (now : Timestamp) (merge : String) :
    (r.settle id resolution actor now).conflictsOf merge
      = (r.conflictsOf merge).map (settledConflict id resolution actor now) :=
  conflictsOf_map (settledConflict_about id resolution actor now) merge

theorem version?_eq_none_iff {id : String} :
    r.version? id = none ↔ ∀ version ∈ r.versions, version.id ≠ id := by
  simp [version?]

theorem branch?_eq_none_iff {name : String} {plan : PlanId} :
    r.branch? name plan = none
      ↔ ∀ branch ∈ r.branches, ¬ (branch.name = name ∧ branch.plan = plan) := by
  simp [branch?]

theorem branch?_changeBranch {change : Branch → Branch}
    (hsame : ∀ branch, (change branch).name = branch.name ∧ (change branch).plan = branch.plan)
    (name other : String) (plan otherPlan : PlanId) :
    (r.changeBranch name plan change).branch? other otherPlan
      = (r.branch? other otherPlan).map fun branch =>
          if branch.name == name && branch.plan == plan then change branch else branch := by
  have hfind : (fun branch : Branch => branch.name == other && branch.plan == otherPlan)
      ∘ (fun branch => if branch.name == name && branch.plan == plan then change branch else branch)
        = fun branch => branch.name == other && branch.plan == otherPlan := by
    funext branch
    rw [Function.comp_apply]
    split
    · rw [(hsame branch).1, (hsame branch).2]
    · rfl
  rw [branch?, changeBranch, List.find?_map, hfind]
  rfl

/-- The branch that is changed is found changed. -/
theorem branch?_changeBranch_self {name : String} {plan : PlanId} {branch : Branch}
    (h : r.branch? name plan = some branch) {change : Branch → Branch}
    (hsame : ∀ branch, (change branch).name = branch.name ∧ (change branch).plan = branch.plan) :
    (r.changeBranch name plan change).branch? name plan = some (change branch) := by
  have hfound := List.find?_some h
  rw [branch?_changeBranch hsame, h, Option.map_some, if_pos hfound]

theorem branch?_setBranchStatus {name : String} {plan : PlanId} {branch : Branch}
    (h : r.branch? name plan = some branch) (status : BranchStatus) (now : Timestamp) :
    (r.setBranchStatus name plan status now).branch? name plan
      = some { branch with status, updatedAt := now } := by
  rw [setBranchStatus, branch?_changeBranch_self h]
  exact fun _ => ⟨rfl, rfl⟩

/-- Setting the status of a branch moves no head. -/
theorem head_setBranchStatus (name other : String) (plan otherPlan : PlanId)
    (status : BranchStatus) (now : Timestamp) :
    ((r.setBranchStatus name plan status now).branch? other otherPlan).map
        (fun branch => branch.head)
      = (r.branch? other otherPlan).map fun branch => branch.head := by
  rw [setBranchStatus, branch?_changeBranch, Option.map_map]
  · refine congrArg (fun head => (r.branch? other otherPlan).map head) (funext fun branch => ?_)
    rw [Function.comp_apply]
    split <;> rfl
  · exact fun _ => ⟨rfl, rfl⟩

theorem insertVersion_tables {version : Version}
    (hleft : r.tables.versions.greatest < greatestWord) (hid : r.version? version.id = none)
    (hsequence : ∀ other ∈ r.versions, other.plan = version.plan →
      other.branch = version.branch → other.sequence ≠ version.sequence) :
    r.tables.insertVersion version = .ok (r.addVersion version).tables := by
  have hplace : (r.tables.versions.rows.any fun other =>
      Tables.isOnBranch (VersionRow.store version).plan (VersionRow.store version).branch other
        && other.sequence == (VersionRow.store version).sequence) = false := by
    rw [tables, Roll.rows_ofRows, List.any_map, List.any_eq_false]
    intro other hmem h
    have h : (Tables.isOnBranch version.plan version.branch (VersionRow.store other)
        && (IntegerCell.whole other.sequence == IntegerCell.whole version.sequence)) = true := h
    rw [Bool.and_eq_true, Tables.isOnBranch, Bool.and_eq_true, beq_iff_eq, beq_iff_eq] at h
    obtain ⟨⟨hplan, hbranch⟩, hsame⟩ := h
    refine hsequence other hmem hplan hbranch ?_
    have hle : IntegerCell.le (.whole other.sequence) (.whole version.sequence)
        && IntegerCell.le (.whole version.sequence) (.whole other.sequence) := hsame
    simp only [IntegerCell.le, Bool.and_eq_true, decide_eq_true_eq] at hle
    omega
  have hfresh : r.tables.hasVersion version.id = false := by
    rw [hasVersion_tables, hid]
    rfl
  have happend : r.tables.versions.append (VersionRow.store version)
      = .ok (r.addVersion version).tables.versions := by
    rw [tables] at hleft ⊢
    rw [Roll.append_ofRows _ hleft, addVersion, tables, List.map_append, List.map_singleton]
  rw [Tables.insertVersion, happend]
  simp only [bind, Except.bind]
  rw [if_neg (by rw [hplace]; decide), if_neg (by
    show ¬ r.tables.hasVersion version.id = true
    rw [hfresh]
    decide)]
  rfl

theorem insertBranch_tables {branch : Branch} (hname : r.branch? branch.name branch.plan = none)
    (hbase : (r.version? branch.base).isSome) (hhead : (r.version? branch.head).isSome) :
    r.tables.insertBranch branch = .ok (r.addBranch branch).tables := by
  have hfresh : r.tables.branches.any (Tables.isBranch branch.name branch.plan) = false := by
    rw [tables, List.any_map, List.any_eq_false]
    intro other hmem h
    have h : (other.name == branch.name && other.plan == branch.plan) = true := h
    rw [Bool.and_eq_true, beq_iff_eq, beq_iff_eq] at h
    exact branch?_eq_none_iff.mp hname other hmem h
  rw [Tables.insertBranch, hfresh, if_neg (by decide), hasVersion_tables, hasVersion_tables, hbase,
    hhead, if_neg (by decide), addBranch, tables, tables, List.map_append, List.map_singleton]

/-- What a change of rows does to the rows of records. -/
theorem update_map {ρ α : Type} (store : α → ρ) (applies : ρ → Bool) (change : ρ → ρ)
    (applies' : α → Bool) (change' : α → α) (records : List α)
    (happlies : ∀ record ∈ records, applies (store record) = applies' record)
    (hchange : ∀ record ∈ records, applies' record = true →
      change (store record) = store (change' record)) :
    Tables.update applies change (records.map store)
      = (records.countP applies',
          (records.map fun record => if applies' record then change' record else record).map
            store) := by
  rw [Tables.update, List.countP_map, List.map_map, List.map_map]
  refine Prod.ext (List.countP_congr fun record hmem => ?_)
    (List.map_congr_left fun record hmem => ?_)
  · rw [Function.comp_apply, happlies record hmem]
  · rw [Function.comp_apply, Function.comp_apply, happlies record hmem]
    by_cases h : applies' record = true
    · rw [if_pos h, if_pos h, hchange record hmem h]
    · rw [if_neg h, if_neg h]

/-- Whether no plan has two branches of one name. -/
def NamesDiffer (r : Records) : Prop :=
  (r.branches.map fun branch => (branch.name, branch.plan)).Nodup

theorem eq_of_branch? (names : r.NamesDiffer) {branch other : Branch} {name : String}
    {plan : PlanId} (h : r.branch? name plan = some branch) (hmem : other ∈ r.branches)
    (hname : other.name = name) (hplan : other.plan = plan) : other = branch := by
  have hfound := List.find?_some h
  rw [Bool.and_eq_true, beq_iff_eq, beq_iff_eq] at hfound
  exact List.inj_on_of_nodup_map names hmem (List.mem_of_find?_eq_some h)
    (by rw [hname, hplan, hfound.1, hfound.2])

/-- Moving the head of a branch from where it is. -/
theorem swapHead_of_head (names : r.NamesDiffer) {branch : Branch} {name : String}
    {plan : PlanId} (h : r.branch? name plan = some branch) (head : String)
    (status : BranchStatus) (now : Timestamp) (hhead : (r.version? head).isSome) :
    ∃ changed, changed ≠ 0 ∧ r.tables.swapHead name plan branch.head head status now
      = .ok (changed, (r.setHead name plan head status now).tables) := by
  -- No other branch has the name, so that comparing the head as well changes nothing.
  have happlies : ∀ other ∈ r.branches,
      (Tables.isBranch name plan (BranchRow.store other)
          && (BranchRow.store other).head == branch.head)
        = (other.name == name && other.plan == plan) := by
    intro other hmem
    show (other.name == name && other.plan == plan && other.head == branch.head) = _
    by_cases hsame : (other.name == name && other.plan == plan) = true
    · have hother := hsame
      rw [Bool.and_eq_true, beq_iff_eq, beq_iff_eq] at hother
      rw [hsame, eq_of_branch? names h hmem hother.1 hother.2, beq_self_eq_true, Bool.and_self]
    · rw [Bool.not_eq_true] at hsame
      rw [hsame, Bool.false_and]
  have hupdate := update_map BranchRow.store
    (fun row => Tables.isBranch name plan row && row.head == branch.head)
    (fun row => { row with head, status := label status, updatedAt := now.text })
    (fun other => other.name == name && other.plan == plan)
    (fun other => { other with head, status, updatedAt := now }) r.branches happlies
    (fun _ _ _ => rfl)
  have hhas : r.tables.hasVersion head = true := by
    rw [hasVersion_tables, hhead]
  refine ⟨r.branches.countP fun other => other.name == name && other.plan == plan, ?_, ?_⟩
  · rw [Ne, List.countP_eq_zero]
    have hfound := List.find?_some h
    exact fun hnone => hnone branch (List.mem_of_find?_eq_some h) hfound
  · rw [Tables.swapHead, show r.tables.branches = r.branches.map BranchRow.store from rfl, hupdate]
    dsimp only
    rw [hhas, Bool.not_true, Bool.and_false, if_neg (by decide)]
    rfl

/-- Moving the head of a branch from where it no longer is. -/
theorem swapHead_of_moved (names : r.NamesDiffer) {branch : Branch} {name : String}
    {plan : PlanId} (h : r.branch? name plan = some branch) {expected : String}
    (hmoved : branch.head ≠ expected) (head : String) (status : BranchStatus) (now : Timestamp) :
    r.tables.swapHead name plan expected head status now = .ok (0, r.tables) := by
  have happlies : ∀ other ∈ r.branches,
      (Tables.isBranch name plan (BranchRow.store other)
          && (BranchRow.store other).head == expected) = false := by
    intro other hmem
    show (other.name == name && other.plan == plan && other.head == expected) = false
    rw [Bool.eq_false_iff]
    intro hsame
    rw [Bool.and_eq_true, Bool.and_eq_true, beq_iff_eq, beq_iff_eq, beq_iff_eq] at hsame
    rw [eq_of_branch? names h hmem hsame.1.1 hsame.1.2] at hsame
    exact hmoved hsame.2
  have hupdate := update_map BranchRow.store
    (fun row => Tables.isBranch name plan row && row.head == expected)
    (fun row => { row with head, status := label status, updatedAt := now.text })
    (fun _ => false) id r.branches happlies (fun _ _ hfalse => absurd hfalse (by decide))
  rw [Tables.swapHead, show r.tables.branches = r.branches.map BranchRow.store from rfl, hupdate]
  simp [tables]

theorem setBranchStatus_tables (name : String) (plan : PlanId) (status : BranchStatus)
    (now : Timestamp) :
    (r.tables.setBranchStatus name plan status now).2
      = (r.setBranchStatus name plan status now).tables := by
  have hupdate := update_map BranchRow.store (Tables.isBranch name plan)
    (fun row => { row with status := label status, updatedAt := now.text })
    (fun other => other.name == name && other.plan == plan)
    (fun other => { other with status, updatedAt := now }) r.branches
    (fun _ _ => rfl) (fun _ _ _ => rfl)
  rw [Tables.setBranchStatus, show r.tables.branches = r.branches.map BranchRow.store from rfl,
    hupdate]
  rfl

theorem completeMerge_tables (id actor : String) {result : String} (now : Timestamp)
    (hresult : (r.version? result).isSome) :
    ∃ changed, r.tables.completeMerge id actor result now
      = .ok (changed, (r.complete id actor result now).tables) := by
  have hhas : r.tables.hasVersion result = true := by
    rw [hasVersion_tables, hresult]
  have hupdate := update_map MergeRow.store (fun row => row.id == id)
    (fun row => { row with
      status := label MergeStatus.completed
      mergedBy? := some actor
      mergedAt? := some now.text
      result? := some result })
    (fun request => request.id == id)
    (fun request => { request with
      status := .completed
      mergedBy? := some actor
      mergedAt? := some now
      result? := some result }) r.merges (fun _ _ => rfl) (fun _ _ _ => rfl)
  refine ⟨r.merges.countP fun request => request.id == id, ?_⟩
  rw [Tables.completeMerge,
    show r.tables.merges = Roll.ofRows (r.merges.map MergeRow.store) from rfl, Roll.update_ofRows]
  rw [Tables.update] at hupdate
  obtain ⟨hcount, hrows⟩ := Prod.mk.inj hupdate
  rw [hcount, hrows]
  dsimp only
  rw [hhas, Bool.not_true, Bool.and_false, if_neg (by decide)]
  rfl

theorem setMergeStatus_tables (id : String) :
    (r.tables.setMergeStatus id .failed).2 = (r.fail id).tables := by
  have hupdate := update_map MergeRow.store
    (fun row => row.id == id && row.status != label MergeStatus.completed
      && row.status != label MergeStatus.failed)
    (fun row => { row with status := label MergeStatus.failed })
    (fun request => request.id == id && !request.status.isTerminal)
    (fun request => { request with status := .failed }) r.merges
    (fun request _ => by
      show (request.id == id && label request.status != label MergeStatus.completed
        && label request.status != label MergeStatus.failed) = _
      rw [Bool.and_assoc]
      congr 1
      cases request.status <;> decide)
    (fun _ _ _ => rfl)
  rw [Tables.setMergeStatus,
    show r.tables.merges = Roll.ofRows (r.merges.map MergeRow.store) from rfl, Roll.update_ofRows]
  rw [Tables.update] at hupdate
  obtain ⟨-, hrows⟩ := Prod.mk.inj hupdate
  rw [hrows]
  rfl

theorem resolveConflict_tables (id resolution actor : String) (now : Timestamp) :
    (r.tables.resolveConflict id resolution actor now).2
      = (r.settle id resolution actor now).tables := by
  have hupdate := update_map ConflictRow.store
    (fun row => row.id == some id && row.resolution?.isNone)
    (fun row => { row with
      resolution? := some resolution
      resolvedBy? := some actor
      resolvedAt? := some now.text })
    (fun conflict => conflict.id == id && conflict.resolution?.isNone)
    (fun conflict => { conflict with
      resolution? := some resolution
      resolvedBy? := some actor
      resolvedAt? := some now }) r.conflicts
    (fun _ _ => rfl) (fun _ _ _ => rfl)
  rw [Tables.resolveConflict, show r.tables.conflicts = r.conflicts.map ConflictRow.store from rfl,
    hupdate]
  rfl

theorem countUnresolved_tables (merge : String) :
    r.tables.countUnresolved merge
      = (r.conflictsOf merge).countP fun conflict => conflict.resolution?.isNone := by
  rw [Tables.countUnresolved, tables]
  dsimp only
  rw [List.countP_map, conflictsOf, (List.mergeSort_perm _ _).countP_eq, List.countP_filter]
  refine List.countP_congr fun conflict _ => ?_
  show (conflict.merge == merge && conflict.resolution?.isNone) = true
    ↔ (conflict.resolution?.isNone && conflict.merge == merge) = true
  rw [Bool.and_comm]

theorem hasMerge_tables (id : String) : r.tables.hasMerge id = (r.merge? id).isSome := by
  rw [Tables.hasMerge, tables, Roll.rows_ofRows, List.any_map, merge?, List.isSome_find?]
  rfl

theorem insertMerge_tables {request : MergeRequest}
    (hleft : r.tables.merges.greatest < greatestWord) (hid : r.merge? request.id = none)
    (hopen : request.result? = none ∧ request.mergedBy? = none ∧ request.mergedAt? = none)
    (hsource : (r.version? request.source).isSome) (htarget : (r.version? request.target).isSome)
    (hbase : ∀ base ∈ request.base?, (r.version? base).isSome) :
    r.tables.insertMerge request = .ok (r.addMerge request []).tables := by
  -- Inserting leaves out what only a completed request has.
  have hrow : { request with result? := none, mergedBy? := none, mergedAt? := none } = request := by
    obtain ⟨hresult, hby, hat⟩ := hopen
    cases request
    dsimp only at hresult hby hat
    rw [hresult, hby, hat]
  have happend : r.tables.merges.append (MergeRow.store request)
      = .ok (r.addMerge request []).tables.merges := by
    rw [tables] at hleft ⊢
    rw [Roll.append_ofRows _ hleft, addMerge, tables, List.map_append, List.map_singleton]
  have hfresh : r.tables.hasMerge (MergeRow.store request).id = false := by
    show r.tables.hasMerge request.id = false
    rw [hasMerge_tables, hid]
    rfl
  -- All versions that the request names are there.
  have hreferences : (!r.tables.hasVersion (MergeRow.store request).source
      || !r.tables.hasVersion (MergeRow.store request).target
      || (MergeRow.store request).base?.any fun base => !r.tables.hasVersion base) = false := by
    show (!r.tables.hasVersion request.source || !r.tables.hasVersion request.target
      || request.base?.any fun base => !r.tables.hasVersion base) = false
    rw [hasVersion_tables, hasVersion_tables, hsource, htarget]
    cases hb : request.base? with
    | none => rfl
    | some base =>
      simp only [Option.any_some, hasVersion_tables, hbase base hb]
      rfl
  rw [Tables.insertMerge, hrow]
  dsimp only
  rw [happend]
  simp only [bind, Except.bind]
  rw [hfresh, if_neg (by decide), hreferences, if_neg (by decide)]
  simp [addMerge, tables]
  rfl

theorem insertConflict_tables {conflict : Conflict}
    (hid : ∀ other ∈ r.conflicts, other.id ≠ conflict.id)
    (hmerge : (r.merge? conflict.merge).isSome)
    (hopen : conflict.resolution? = none ∧ conflict.resolvedBy? = none
      ∧ conflict.resolvedAt? = none) :
    r.tables.insertConflict conflict
      = .ok { r with conflicts := r.conflicts ++ [conflict] }.tables := by
  have hrow : { conflict with resolution? := none, resolvedBy? := none, resolvedAt? := none }
      = conflict := by
    obtain ⟨hresolution, hby, hat⟩ := hopen
    cases conflict
    dsimp only at hresolution hby hat
    rw [hresolution, hby, hat]
  have hfresh : (r.tables.conflicts.any fun row => row.id == some conflict.id) = false := by
    rw [tables, List.any_map, List.any_eq_false]
    intro other hmem h
    have h : (some other.id == some conflict.id) = true := h
    rw [beq_iff_eq, Option.some_inj] at h
    exact hid other hmem h
  rw [Tables.insertConflict, hfresh, if_neg (by decide), hasMerge_tables, hmerge,
    if_neg (by decide), hrow, tables, tables, List.map_append, List.map_singleton]

theorem insertConflicts_tables {conflicts : List Conflict}
    (hid : ∀ conflict ∈ conflicts, ∀ other ∈ r.conflicts, other.id ≠ conflict.id)
    (hdistinct : (conflicts.map fun conflict => conflict.id).Nodup)
    (hmerge : ∀ conflict ∈ conflicts, (r.merge? conflict.merge).isSome)
    (hopen : ∀ conflict ∈ conflicts, conflict.resolution? = none ∧ conflict.resolvedBy? = none
      ∧ conflict.resolvedAt? = none) :
    r.tables.insertConflicts conflicts
      = .ok { r with conflicts := r.conflicts ++ conflicts }.tables := by
  -- Each conflict is inserted beside the ones before it, so the records vary.
  induction conflicts generalizing r with
  | nil =>
    rw [List.append_nil]
    rfl
  | cons conflict conflicts ih =>
    obtain ⟨hfirst, hrest⟩ := List.nodup_cons.mp hdistinct
    have hinsert := insertConflict_tables (hid conflict List.mem_cons_self)
      (hmerge conflict List.mem_cons_self) (hopen conflict List.mem_cons_self)
    rw [Tables.insertConflicts, List.foldlM_cons, hinsert]
    simp only [bind, Except.bind]
    rw [← Tables.insertConflicts, ih]
    · simp
    · intro other hmem earlier hearlier
      rcases List.mem_append.mp hearlier with hearlier | hearlier
      · exact hid other (List.mem_cons_of_mem _ hmem) earlier hearlier
      · obtain rfl := List.mem_singleton.mp hearlier
        intro same
        exact hfirst (List.mem_map.mpr ⟨other, hmem, same.symm⟩)
    · exact hrest
    · exact fun other hmem => hmerge other (List.mem_cons_of_mem _ hmem)
    · exact fun other hmem => hopen other (List.mem_cons_of_mem _ hmem)

theorem insertNote_tables {note : Note} {tables : Tables}
    (h : r.tables.insertNote note = .ok tables) :
    tables = { r with notes := r.notes ++ [NoteRow.store note] }.tables := by
  rw [Tables.insertNote] at h
  split at h
  · simp at h
  · exact (Except.ok.inj h).symm

theorem insertComment_tables {comment : Comment} {tables : Tables}
    (h : r.tables.insertComment comment = .ok tables) :
    tables = { r with comments := r.comments ++ [CommentRow.store comment] }.tables := by
  rw [Tables.insertComment] at h
  split at h
  · simp at h
  · exact (Except.ok.inj h).symm

end Records

end PlanHistory
