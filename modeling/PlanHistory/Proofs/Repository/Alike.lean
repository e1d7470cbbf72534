/-
What a request names, and what a store has of some floor plans.

Everything in a store belongs to a floor plan: versions, branches, requests and notes say so
themselves, a conflict belongs to the plan of its request, and a comment to that of what it is
on (`Tables.planOf?`).  Two stores are *alike* on some plans if they have the same rows and the
same contents of them, in the same order (`Store.Alike`).

* **`Records.Alike.version?_eq`** and others — what is looked up under a name is the same in
  both, as long as it is nowhere of another plan;
* **`Records.Alike.answer_eq`** — so are the answers to all questions that name nothing of other
  plans.
-/
import PlanHistory.Proofs.Repository.CommonAncestor
import PlanHistory.Proofs.Repository.Integrity

namespace PlanHistory

/-! ### Names -/

/-- What a request may name. -/
inductive Named where
  | plan (plan : PlanId)
  | branch (name : String) (plan : PlanId)
  | version (id : String)
  | merge (id : String)
  | conflict (id : String)
  | note (id : String)

/-- What a comment is on. -/
def ParentKind.named (kind : ParentKind) (id : String) : Named :=
  match kind with
  | .version => .version id
  | .note => .note id

namespace Operation

/-- What a request names. -/
def named : Operation → List Named
  | .commit _ request =>
    .branch request.branch request.plan :: request.parent?.toList.map Named.version
  | .restore id _ _ _ => [.version id]
  | .content id => [.version id]
  | .version id => [.version id]
  | .history plan _ => [.plan plan]
  | .verify id => [.version id]
  | .mergeBase a b => [.version a, .version b]
  | .createBranch request => [.branch request.name request.plan, .version request.base]
  | .branches plan => [.plan plan]
  | .branch name plan => [.branch name plan]
  | .updateHead name plan expected head => [.branch name plan, .version expected, .version head]
  | .divergences a b => [.version a, .version b]
  | .openMerge request =>
    [.branch request.sourceBranch request.plan, .branch request.targetBranch request.plan]
  | .resolve id _ _ => [.conflict id]
  | .execute id _ => [.merge id]
  | .merge id => [.merge id]
  | .merges plan _ => [.plan plan]
  | .conflict id => [.conflict id]
  | .addNote request => [.plan request.plan, .version request.version]
  | .notes id => [.version id]
  | .search plan _ => [.plan plan]
  | .addComment request => [request.parentKind.named request.parent]
  | .comments parent kind => [kind.named parent]
  | .reopen _ => []

/-- What a request looks up.  The head that `updateHead` expects is only compared with the head
that the branch has. -/
def lookedUp (operation : Operation) : List Named :=
  match operation with
  | .updateHead name plan _ head => [.branch name plan, .version head]
  | _ => operation.named

end Operation

namespace Tables

/-- The plan that a thing belongs to.  A plan and a branch say it by their names, anything else
by its row. -/
def planOf? (tables : Tables) : Named → Option PlanId
  | .plan plan => some plan
  | .branch _ plan => some plan
  | .version id => (tables.versionRow? id).map fun row => row.plan
  | .merge id => (tables.merges.rows.find? fun row => row.id == id).map fun row => row.plan
  | .conflict id => (tables.conflicts.find? fun row => row.id == some id).bind fun conflict =>
    (tables.merges.rows.find? fun row => row.id == conflict.merge).map fun row => row.plan
  | .note id => (tables.notes.find? fun row => row.id == id).map fun row => row.plan

/-- Whether a thing is there. -/
def has (tables : Tables) (name : Named) : Bool :=
  match name with
  | .branch branch plan => tables.branches.any (isBranch branch plan)
  | _ => (tables.planOf? name).isSome

/-- Whether a thing is there and of one of some plans. -/
def hasOf (tables : Tables) (keep : PlanId → Bool) (name : Named) : Bool :=
  (tables.planOf? name).any keep

/-- Whether something of a plan is among what is named. -/
def Concerns (tables : Tables) (plan : PlanId) (names : List Named) : Prop :=
  ∃ name ∈ names, tables.planOf? name = some plan

end Tables

/-- Whether two stores have the same rows and the same contents of some plans. -/
structure Store.Alike (keep : PlanId → Bool) (s t : Store) : Prop where
  versions : s.tables.versions.rows.filter (fun row => keep row.plan)
    = t.tables.versions.rows.filter fun row => keep row.plan
  branches : s.tables.branches.filter (fun row => keep row.plan)
    = t.tables.branches.filter fun row => keep row.plan
  merges : s.tables.merges.rows.filter (fun row => keep row.plan)
    = t.tables.merges.rows.filter fun row => keep row.plan
  conflicts : s.tables.conflicts.filter (fun row => s.tables.hasOf keep (.merge row.merge))
    = t.tables.conflicts.filter fun row => t.tables.hasOf keep (.merge row.merge)
  notes : s.tables.notes.filter (fun row => keep row.plan)
    = t.tables.notes.filter fun row => keep row.plan
  comments :
    s.tables.comments.filter (fun row => s.tables.hasOf keep (row.parentKind.named row.parent))
      = t.tables.comments.filter fun row => t.tables.hasOf keep (row.parentKind.named row.parent)
  contents : ∀ id, s.tables.hasOf keep (.version id) = true →
    Blobs.read? id s.blobs = Blobs.read? id t.blobs

/-! ### Lists that have something in common -/

section Lists

variable {α ρ : Type} {rows rows' : List α} {kept kept' picks : α → Bool}

theorem find?_filter_of_kept {row : α} (h : rows.find? picks = some row) (hkept : kept row = true) :
    (rows.filter kept).find? picks = some row := by
  induction rows with
  | nil => simp at h
  | cons first rows ih =>
    by_cases hpicks : picks first = true
    · rw [List.find?_cons_of_pos hpicks] at h
      obtain rfl := Option.some_inj.mp h
      rw [List.filter_cons_of_pos hkept, List.find?_cons_of_pos hpicks]
    · rw [List.find?_cons_of_neg hpicks] at h
      rw [List.filter_cons]
      split
      · rw [List.find?_cons_of_neg hpicks, ih h]
      · exact ih h

/-- What is found is the same in two lists that keep the same, as long as it is kept. -/
theorem find?_eq_of_kept (hrows : rows.filter kept = rows'.filter kept')
    (h : ∀ row, rows.find? picks = some row → kept row = true)
    (h' : ∀ row, rows'.find? picks = some row → kept' row = true) :
    rows.find? picks = rows'.find? picks := by
  cases hfind : rows.find? picks with
  | some row =>
    have hfound := find?_filter_of_kept hfind (h row hfind)
    cases hfind' : rows'.find? picks with
    | some row' => rw [← hfound, hrows, find?_filter_of_kept hfind' (h' row' hfind')]
    | none =>
      -- What is kept of the one list is in the other.
      have hmem := List.mem_of_find?_eq_some hfound
      rw [hrows] at hmem
      exact absurd (List.find?_some hfind)
        (List.find?_eq_none.mp hfind' row (List.mem_filter.mp hmem).1)
  | none =>
    cases hfind' : rows'.find? picks with
    | none => rfl
    | some row' =>
      have hmem := List.mem_of_find?_eq_some (find?_filter_of_kept hfind' (h' row' hfind'))
      rw [← hrows] at hmem
      exact absurd (List.find?_some hfind')
        (List.find?_eq_none.mp hfind row' (List.mem_filter.mp hmem).1)

/-- What is picked is the same, as long as all of it is kept. -/
theorem filter_eq_of_kept (picks : α → Bool) (hrows : rows.filter kept = rows'.filter kept')
    (h : ∀ row ∈ rows, picks row = true → kept row = true)
    (h' : ∀ row ∈ rows', picks row = true → kept' row = true) :
    rows.filter picks = rows'.filter picks := by
  have hpicks {rows : List α} {kept : α → Bool}
      (h : ∀ row ∈ rows, picks row = true → kept row = true) :
      (rows.filter kept).filter picks = rows.filter picks := by
    rw [List.filter_filter]
    refine List.filter_congr fun row hmem => ?_
    rw [Bool.and_eq_left_iff_imp]
    exact h row hmem
  rw [← hpicks h, hrows, hpicks h']

/-- Lists with the same images are the same, if no two of their entries have one image. -/
theorem eq_of_map_eq {store : α → ρ}
    (injective : ∀ row ∈ rows, ∀ row' ∈ rows', store row = store row' → row = row')
    (h : rows.map store = rows'.map store) : rows = rows' := by
  induction rows generalizing rows' with
  | nil => exact (List.map_eq_nil_iff.mp h.symm).symm
  | cons row rows ih =>
    cases rows' with
    | nil => cases h
    | cons row' rows' =>
      obtain ⟨hfirst, hrest⟩ := List.cons_eq_cons.mp h
      rw [injective row List.mem_cons_self row' List.mem_cons_self hfirst, ih (fun _ hmem _ hmem' =>
        injective _ (List.mem_cons_of_mem _ hmem) _ (List.mem_cons_of_mem _ hmem')) hrest]

/-- Records are known by their rows, if no two of them have the same. -/
theorem filter_eq_of_rows {records records' : List α} (store : α → ρ) {kept kept' : ρ → Bool}
    (injective : ∀ record ∈ records, ∀ record' ∈ records', store record = store record' →
      record = record')
    (hrows : (records.map store).filter kept = (records'.map store).filter kept') :
    records.filter (kept ∘ store) = records'.filter (kept' ∘ store) := by
  rw [List.filter_map, List.filter_map] at hrows
  exact eq_of_map_eq (fun record hmem record' hmem' =>
    injective record (List.mem_of_mem_filter hmem) record' (List.mem_of_mem_filter hmem')) hrows

/-- What is read back is known by its row. -/
theorem eq_of_read {read : ρ → Except BadCell α} {row row' : ρ} {record record' : α}
    (h : read row = .ok record) (h' : read row' = .ok record') (hrow : row = row') :
    record = record' := by
  subst hrow
  exact Except.ok.inj (h.symm.trans h')

end Lists

/-! ### Records of some plans -/

namespace Records

variable {keep : PlanId → Bool} {r r' : Records} {id : String} {plan : PlanId}

@[simp] theorem planOf?_version (id : String) :
    r.tables.planOf? (.version id) = (r.version? id).map fun version => version.plan := by
  rw [Tables.planOf?, versionRow?_tables, Option.map_map]
  rfl

@[simp] theorem planOf?_merge (id : String) :
    r.tables.planOf? (.merge id) = (r.merge? id).map fun request => request.plan := by
  rw [Tables.planOf?, tables, Roll.rows_ofRows, List.find?_map, Option.map_map]
  rfl

theorem planOf?_conflict (id : String) :
    r.tables.planOf? (.conflict id)
      = (r.conflict? id).bind fun conflict => r.tables.planOf? (.merge conflict.merge) := by
  rw [Tables.planOf?, show r.tables.conflicts = r.conflicts.map ConflictRow.store from rfl,
    List.find?_map, Option.bind_map]
  rfl

theorem has_branch (name : String) (plan : PlanId) :
    r.tables.has (.branch name plan) = (r.branch? name plan).isSome := by
  rw [Tables.has, show r.tables.branches = r.branches.map BranchRow.store from rfl, List.any_map,
    branch?, List.isSome_find?]
  rfl

/-- Whether two stores' records of some plans are the same. -/
structure Alike (keep : PlanId → Bool) (r r' : Records) : Prop where
  versions : r.versions.filter (fun version => keep version.plan)
    = r'.versions.filter fun version => keep version.plan
  branches : r.branches.filter (fun branch => keep branch.plan)
    = r'.branches.filter fun branch => keep branch.plan
  merges : r.merges.filter (fun request => keep request.plan)
    = r'.merges.filter fun request => keep request.plan
  conflicts : r.conflicts.filter (fun conflict => r.tables.hasOf keep (.merge conflict.merge))
    = r'.conflicts.filter fun conflict => r'.tables.hasOf keep (.merge conflict.merge)
  notes : r.notes.filter (fun note => keep note.plan) = r'.notes.filter fun note => keep note.plan
  comments :
    r.comments.filter (fun comment =>
        r.tables.hasOf keep (comment.parentKind.named comment.parent))
      = r'.comments.filter fun comment =>
        r'.tables.hasOf keep (comment.parentKind.named comment.parent)

/-- Whether a thing is of one of some plans, if it is there. -/
def Inside (r : Records) (keep : PlanId → Bool) (name : Named) : Prop :=
  ∀ plan ∈ r.tables.planOf? name, keep plan = true

theorem inside_of_planOf? {name : Named} (hplan : r.tables.planOf? name = some plan)
    (hkeep : keep plan = true) : r.Inside keep name := by
  rw [Inside, hplan]
  rintro _ ⟨⟩
  exact hkeep

theorem Inside.hasOf {name : Named} (h : r.Inside keep name)
    (hthere : (r.tables.planOf? name).isSome) : r.tables.hasOf keep name = true := by
  obtain ⟨plan, hplan⟩ := Option.isSome_iff_exists.mp hthere
  rw [Tables.hasOf, hplan, Option.any_some]
  exact h plan hplan

theorem Inside.keep_version (h : r.Inside keep (.version id)) {version : Version}
    (hversion : r.version? id = some version) : keep version.plan = true :=
  h version.plan (by rw [planOf?_version, hversion]; rfl)

theorem Inside.keep_merge (h : r.Inside keep (.merge id)) {request : MergeRequest}
    (hrequest : r.merge? id = some request) : keep request.plan = true :=
  h request.plan (by rw [planOf?_merge, hrequest]; rfl)

namespace Alike

variable (alike : r.Alike keep r')

include alike

/-! ### Looking up -/

theorem version?_eq (h : r.Inside keep (.version id)) (h' : r'.Inside keep (.version id)) :
    r.version? id = r'.version? id :=
  find?_eq_of_kept alike.versions (fun _ => h.keep_version) fun _ => h'.keep_version

theorem branch?_eq (name : String) (h : keep plan = true) :
    r.branch? name plan = r'.branch? name plan := by
  refine find?_eq_of_kept alike.branches (fun branch hfind => ?_) fun branch hfind => ?_
  all_goals rwa [(mem_of_branch? hfind).2.2]

theorem merge?_eq (h : r.Inside keep (.merge id)) (h' : r'.Inside keep (.merge id)) :
    r.merge? id = r'.merge? id :=
  find?_eq_of_kept alike.merges (fun _ => h.keep_merge) fun _ => h'.keep_merge

end Alike

end Records

/-! ### Rows that refer to something -/

section Referring

variable {keep : PlanId → Bool} {s t : Store} {r r' : Records} {id : String} {plan : PlanId}

theorem Store.Sound.isSome_planOf?_merge (sound : s.Sound r) {conflict : Conflict}
    (hmem : conflict ∈ r.conflicts) : (r.tables.planOf? (.merge conflict.merge)).isSome := by
  obtain ⟨request, hrequest, hid⟩ := sound.merges.owners conflict hmem
  rw [Records.planOf?_merge, Option.isSome_map, ← hid,
    Records.merge?_of_mem sound.merges.idsDiffer hrequest]
  rfl

/-- Ids of requests are given once. -/
theorem Store.Sound.inside_merge (sound : s.Sound r) {request : MergeRequest}
    (hmem : request ∈ r.merges) (hkeep : keep request.plan = true) :
    r.Inside keep (.merge request.id) := by
  intro plan hplan
  rw [Records.planOf?_merge, Records.merge?_of_mem sound.merges.idsDiffer hmem] at hplan
  rwa [← Option.some_inj.mp hplan]

theorem Records.HasParent.isSome_planOf? {kind : ParentKind} (h : r.HasParent id kind) :
    (r.tables.planOf? (kind.named id)).isSome := by
  cases kind with
  | version =>
    obtain ⟨version, hmem, hid⟩ := h
    show (r.tables.planOf? (.version id)).isSome
    rw [planOf?_version, Option.isSome_map]
    exact isSome_version? ⟨version, hmem, hid, rfl⟩
  | note =>
    obtain ⟨note, hmem, hid⟩ := h
    show ((r.notes.find? fun row => row.id == id).map fun row => row.plan).isSome
    rw [Option.isSome_map, List.find?_isSome]
    exact ⟨note, hmem, beq_iff_eq.mpr hid⟩

theorem Store.Sound.planOf?_of_owns (sound : s.Sound r) (h : Owns r.versions plan id) :
    r.tables.planOf? (.version id) = some plan := by
  obtain ⟨version, hversion, rfl⟩ := Records.exists_version? sound.versions.idsDiffer h
  rw [Records.planOf?_version, hversion]
  rfl

theorem Records.owns_of_planOf? (h : r.tables.planOf? (.version id) = some plan) :
    Owns r.versions plan id := by
  rw [planOf?_version] at h
  obtain ⟨version, hversion, rfl⟩ := Option.map_eq_some_iff.mp h
  exact owns_of_version? hversion

theorem Records.ancestry_of_version?_eq_none (h : r.version? id = none) :
    r.tables.ancestry id = .error (.notFound .version id) := by
  have hrow : r.tables.versionRow? id = none := by
    rw [versionRow?_tables, h]
    rfl
  rw [Tables.ancestry, Tables.walk.eq_def]
  split
  next hseen => simp at hseen
  next =>
    split
    next => rfl
    next row hfound => rw [hrow] at hfound; simp at hfound

/-- What is no version has no blob. -/
theorem Store.Sound.read?_eq_none (sound : s.Sound r) (h : r.version? id = none) :
    Blobs.read? id s.blobs = none := by
  rw [Blobs.read?]
  split
  · cases hblob : Keyed.get? id s.blobs with
    | none => rfl
    | some bytes =>
      obtain ⟨version, hmem, hid⟩ := sound.versions.owned id (by rw [hblob]; rfl)
      exact absurd hid (Records.version?_eq_none_iff.mp h version hmem)
  · rfl

namespace Records.Alike

variable (alike : r.Alike keep r')

include alike

/-- A version, as the tables show it. -/
theorem version_eq (sound : s.Sound r) (sound' : t.Sound r') (h : r.Inside keep (.version id))
    (h' : r'.Inside keep (.version id)) : s.tables.version id = t.tables.version id := by
  rw [sound.tables, sound'.tables, version_tables sound.storable, version_tables sound'.storable,
    readVersion, readVersion, alike.version?_eq h h']

theorem reads_iff (sound : s.Sound r) (sound' : t.Sound r') (h : r.Inside keep (.version id))
    (h' : r'.Inside keep (.version id)) : s.tables.Reads id ↔ t.tables.Reads id := by
  rw [Tables.Reads, Tables.Reads, alike.version_eq sound sound' h h']

/-- A branch, as the tables show it. -/
theorem branch_eq (sound : s.Sound r) (sound' : t.Sound r') (name : String)
    (hkeep : keep plan = true) : s.tables.branch name plan = t.tables.branch name plan := by
  rw [sound.tables, sound'.tables, branch_tables sound.storable, branch_tables sound'.storable,
    alike.branch?_eq name hkeep]

theorem conflict?_eq (sound : s.Sound r) (sound' : t.Sound r')
    (h : r.Inside keep (.conflict id)) (h' : r'.Inside keep (.conflict id)) :
    r.conflict? id = r'.conflict? id := by
  have hkept {s : Store} {r : Records} (sound : s.Sound r) (h : r.Inside keep (.conflict id))
      {conflict : Conflict} (hfind : r.conflict? id = some conflict) :
      r.tables.hasOf keep (.merge conflict.merge) = true := by
    refine Inside.hasOf (fun plan hplan => h plan ?_)
      (sound.isSome_planOf?_merge (List.mem_of_find?_eq_some hfind))
    rwa [planOf?_conflict, hfind]
  exact find?_eq_of_kept alike.conflicts (fun _ => hkept sound h) fun _ => hkept sound' h'

/-- A conflict, as the tables show it. -/
theorem conflict_eq (sound : s.Sound r) (sound' : t.Sound r') (h : r.Inside keep (.conflict id))
    (h' : r'.Inside keep (.conflict id)) : s.tables.conflict id = t.tables.conflict id := by
  rw [sound.tables, sound'.tables, conflict_tables sound.storable, conflict_tables sound'.storable,
    alike.conflict?_eq sound sound' h h']

theorem conflictsOf_eq (sound : s.Sound r) (sound' : t.Sound r')
    (h : r.Inside keep (.merge id)) (h' : r'.Inside keep (.merge id)) :
    r.conflictsOf id = r'.conflictsOf id := by
  have hkept {s : Store} {r : Records} (sound : s.Sound r) (h : r.Inside keep (.merge id))
      {conflict : Conflict} (hmem : conflict ∈ r.conflicts)
      (hmerge : (conflict.merge == id) = true) :
      r.tables.hasOf keep (.merge conflict.merge) = true := by
    have hthere := sound.isSome_planOf?_merge hmem
    rw [beq_iff_eq.mp hmerge] at hthere ⊢
    exact h.hasOf hthere
  rw [conflictsOf, conflictsOf, filter_eq_of_kept _ alike.conflicts (fun _ => hkept sound h)
    fun _ => hkept sound' h']

/-- The requests of a plan, with their conflicts. -/
theorem summary_eq (sound : s.Sound r) (sound' : t.Sound r') {request : MergeRequest}
    (h : r.Inside keep (.merge request.id)) (h' : r'.Inside keep (.merge request.id)) :
    r.summary request = r'.summary request := by
  rw [summary, summary, alike.conflictsOf_eq sound sound' h h']

/-- A request with its conflicts, as the tables show it. -/
theorem mergeDetails_eq (sound : s.Sound r) (sound' : t.Sound r')
    (h : r.Inside keep (.merge id)) (h' : r'.Inside keep (.merge id)) :
    s.tables.mergeDetails id = t.tables.mergeDetails id := by
  rw [sound.tables, sound'.tables, mergeDetails_tables sound.storable,
    mergeDetails_tables sound'.storable, alike.merge?_eq h h',
    alike.conflictsOf_eq sound sound' h h']
  cases hrequest : r'.merge? id with
  | none => rfl
  | some request =>
    obtain rfl := id_of_merge? hrequest
    dsimp only
    rw [alike.summary_eq sound sound' h h']

/-- The notes on a version. -/
theorem notesOn_eq (sound : s.Sound r) (sound' : t.Sound r') (attached : r.Attached)
    (attached' : r'.Attached) (h : r.Inside keep (.version id))
    (h' : r'.Inside keep (.version id)) : s.tables.notesOn id = t.tables.notesOn id := by
  have hkept {s : Store} {r : Records} (sound : s.Sound r) (attached : r.Attached)
      (h : r.Inside keep (.version id)) {note : NoteRow} (hmem : note ∈ r.notes)
      (hversion : (note.version == id) = true) : keep note.plan = true := by
    have howns := attached.notes note hmem
    rw [beq_iff_eq.mp hversion] at howns
    exact h note.plan (sound.planOf?_of_owns howns)
  rw [sound.tables, sound'.tables, Tables.notesOn, Tables.notesOn, tables, tables]
  dsimp only
  rw [filter_eq_of_kept _ alike.notes (fun _ => hkept sound attached h)
    fun _ => hkept sound' attached' h']

/-- The comments on a version or a note. -/
theorem commentsOn_eq (sound : s.Sound r) (sound' : t.Sound r') (attached : r.Attached)
    (attached' : r'.Attached) {kind : ParentKind} (h : r.Inside keep (kind.named id))
    (h' : r'.Inside keep (kind.named id)) :
    s.tables.commentsOn id kind = t.tables.commentsOn id kind := by
  have hkept {r : Records} (attached : r.Attached) (h : r.Inside keep (kind.named id))
      {comment : CommentRow} (hmem : comment ∈ r.comments)
      (hparent : (comment.parent == id && comment.parentKind == kind) = true) :
      r.tables.hasOf keep (comment.parentKind.named comment.parent) = true := by
    have hthere := (attached.comments comment hmem).isSome_planOf?
    rw [Bool.and_eq_true, beq_iff_eq, beq_iff_eq] at hparent
    rw [hparent.1, hparent.2] at hthere ⊢
    exact h.hasOf hthere
  rw [sound.tables, sound'.tables, Tables.commentsOn, Tables.commentsOn, tables, tables]
  dsimp only
  rw [filter_eq_of_kept _ alike.comments (fun _ => hkept attached h) fun _ => hkept attached' h']

/-! ### Listing -/

theorem versionsOf_eq (sound : s.Sound r) (sound' : t.Sound r') (hkeep : keep plan = true)
    (branch? : Option String) :
    s.tables.versionsOf plan branch? = t.tables.versionsOf plan branch? := by
  have hfilter := filter_eq_of_kept ((fun row : VersionRow => row.plan == plan
    && (branch?.isNone || branch? == some row.branch)) ∘ VersionRow.store) alike.versions
    (fun version _ hpicks => ?_) fun version _ hpicks => ?_
  · rw [Tables.versionsOf, Tables.versionsOf, sound.versionRows, sound'.versionRows,
      List.filter_map, List.filter_map, hfilter]
  all_goals
    have hplan : version.plan = plan := beq_iff_eq.mp (Bool.and_eq_true_iff.mp hpicks).1
    rwa [hplan]

theorem branchesOf_eq (sound : s.Sound r) (sound' : t.Sound r') (hkeep : keep plan = true) :
    s.tables.branchesOf plan = t.tables.branchesOf plan := by
  have hfilter := filter_eq_of_kept ((fun row : BranchRow => row.plan == plan)
    ∘ BranchRow.store) alike.branches (fun branch _ hpicks => ?_) fun branch _ hpicks => ?_
  · rw [sound.tables, sound'.tables, Tables.branchesOf, Tables.branchesOf, tables, tables]
    dsimp only
    rw [List.filter_map, List.filter_map, hfilter]
  all_goals
    have hplan : branch.plan = plan := beq_iff_eq.mp hpicks
    rwa [hplan]

theorem notesOf_eq (sound : s.Sound r) (sound' : t.Sound r') (hkeep : keep plan = true) :
    s.tables.notesOf plan = t.tables.notesOf plan := by
  have hfilter : r.notes.filter (fun row => row.plan == plan)
      = r'.notes.filter fun row => row.plan == plan := by
    refine filter_eq_of_kept _ alike.notes (fun note _ hpicks => ?_) fun note _ hpicks => ?_
    all_goals rwa [beq_iff_eq.mp hpicks]
  rw [sound.tables, sound'.tables, Tables.notesOf, Tables.notesOf, tables, tables]
  dsimp only
  rw [hfilter]

theorem mergesOf_eq (sound : s.Sound r) (sound' : t.Sound r') (hkeep : keep plan = true)
    (status? : Option MergeStatus) :
    s.tables.mergesOf plan status? = t.tables.mergesOf plan status? := by
  have hplan {request : MergeRequest} (hpicks : (request.plan == plan
      && (status?.isNone || status?.map label == some (label request.status))) = true) :
      keep request.plan = true := by
    rwa [beq_iff_eq.mp (Bool.and_eq_true_iff.mp hpicks).1]
  have hfilter := filter_eq_of_kept _ alike.merges (fun _ _ => hplan) fun _ _ => hplan
  rw [sound.tables, sound'.tables, mergesOf_tables sound.storable,
    mergesOf_tables sound'.storable, hfilter]
  -- Each of the requests is in both, so that its conflicts are the same, too.
  refine congrArg Except.ok (List.map_congr_left fun request hmem => ?_)
  rw [List.mem_reverse] at hmem
  obtain ⟨hmem', hpicks⟩ := List.mem_filter.mp hmem
  rw [← hfilter] at hmem
  exact alike.summary_eq sound sound'
    (sound.inside_merge (List.mem_filter.mp hmem).1 (hplan hpicks))
    (sound'.inside_merge hmem' (hplan hpicks))

/-! ### Ancestors and contents -/

omit alike in
theorem inside_parent (sound : s.Sound r) (h : r.Inside keep (.version id)) {parent : String}
    (hparent : r.tables.IsParent id parent) : r.Inside keep (.version parent) := by
  have hrow := hparent
  rw [Tables.IsParent, parent?_tables, Option.map_eq_some_iff] at hrow
  obtain ⟨version, hversion, -⟩ := hrow
  -- A parent is of the plan of its child.
  have howns := owns_of_descends sound.versions (owns_of_version? hversion) (.single hparent)
  intro plan hplan
  rw [sound.planOf?_of_owns howns] at hplan
  rw [← Option.some_inj.mp hplan]
  exact h.keep_version hversion

theorem lineage (sound : s.Sound r) (sound' : t.Sound r') (h : r.Inside keep (.version id))
    (h' : r'.Inside keep (.version id)) {chain : List String}
    (hlineage : r.tables.Lineage id chain) : r'.tables.Lineage id chain := by
  have hsame {id : String} (h : r.Inside keep (.version id)) (h' : r'.Inside keep (.version id)) :
      r'.tables.parent? id = r.tables.parent? id := by
    rw [parent?_tables, parent?_tables, alike.version?_eq h h']
  induction hlineage with
  | root hroot => exact .root ((hsame h h').trans hroot)
  | child hparent _ ih =>
    have hparent' : r'.tables.IsParent _ _ := (hsame h h').trans hparent
    exact .child hparent' (ih (inside_parent sound h hparent) (inside_parent sound' h' hparent'))

theorem ancestry_eq (sound : s.Sound r) (sound' : t.Sound r') (h : r.Inside keep (.version id))
    (h' : r'.Inside keep (.version id)) : r.tables.ancestry id = r'.tables.ancestry id := by
  cases hversion : r.version? id with
  | some version =>
    obtain ⟨chain, hlineage, hnodup⟩ := lineage_of_owns sound.versions (owns_of_version? hversion)
    rw [Tables.ancestry_of_lineage hlineage hnodup,
      Tables.ancestry_of_lineage (alike.lineage sound sound' h h' hlineage) hnodup]
  | none =>
    have hversion' : r'.version? id = none := by rw [← alike.version?_eq h h', hversion]
    rw [ancestry_of_version?_eq_none hversion, ancestry_of_version?_eq_none hversion']

theorem mergeBase_eq (sound : s.Sound r) (sound' : t.Sound r') {a b : String}
    (ha : r.Inside keep (.version a)) (ha' : r'.Inside keep (.version a))
    (hb : r.Inside keep (.version b)) (hb' : r'.Inside keep (.version b)) :
    s.tables.mergeBase a b = t.tables.mergeBase a b := by
  rw [sound.tables, sound'.tables, Tables.mergeBase, Tables.mergeBase,
    alike.ancestry_eq sound sound' ha ha', alike.ancestry_eq sound sound' hb hb']

variable (contents : ∀ id, r.tables.hasOf keep (.version id) = true →
  Blobs.read? id s.blobs = Blobs.read? id t.blobs)

include contents

theorem read?_eq (sound : s.Sound r) (sound' : t.Sound r') (h : r.Inside keep (.version id))
    (h' : r'.Inside keep (.version id)) : Blobs.read? id s.blobs = Blobs.read? id t.blobs := by
  cases hversion : r.version? id with
  | some version => exact contents id (h.hasOf (by rw [planOf?_version, hversion]; rfl))
  | none =>
    have hversion' : r'.version? id = none := by rw [← alike.version?_eq h h', hversion]
    rw [sound.read?_eq_none hversion, sound'.read?_eq_none hversion']

theorem store_content_eq (sound : s.Sound r) (sound' : t.Sound r') (h : r.Inside keep (.version id))
    (h' : r'.Inside keep (.version id)) : s.content id = t.content id := by
  rw [Store.content, Store.content, alike.read?_eq contents sound sound' h h']

theorem verify_eq (sound : s.Sound r) (sound' : t.Sound r') (h : r.Inside keep (.version id))
    (h' : r'.Inside keep (.version id)) : s.verify id = t.verify id := by
  rw [Store.verify, Store.verify, alike.read?_eq contents sound sound' h h',
    alike.version_eq sound sound' h h']

theorem divergences_eq (sound : s.Sound r) (sound' : t.Sound r') {a b : String}
    (ha : r.Inside keep (.version a)) (ha' : r'.Inside keep (.version a))
    (hb : r.Inside keep (.version b)) (hb' : r'.Inside keep (.version b)) :
    s.divergences a b = t.divergences a b := by
  rw [Store.divergences, Store.divergences, alike.store_content_eq contents sound sound' ha ha',
    alike.store_content_eq contents sound sound' hb hb']

omit contents in
theorem search_eq (sound : s.Sound r) (sound' : t.Sound r') (hkeep : keep plan = true)
    (policy : Policy) (query : String) :
    s.search policy plan query = t.search policy plan query := by
  rw [Store.search, Store.search, alike.notesOf_eq sound sound' hkeep]

/-! ### Questions -/

/-- Questions that name nothing of other plans are answered the same. -/
theorem answer_eq (sound : s.Sound r) (sound' : t.Sound r') (attached : r.Attached)
    (attached' : r'.Attached) {question : Operation} (asks : question.isQuestion = true)
    (inside : ∀ name ∈ question.named, r.Inside keep name ∧ r'.Inside keep name)
    (policy : Policy) (stamp : Stamp) :
    (Repository.perform stamp question ⟨policy, s⟩).1
      = (Repository.perform stamp question ⟨policy, t⟩).1 := by
  -- What is listed of a plan is read row by row.
  have listed {α : Type} (answer : α → Answer) {rows rows' : Except TableFault α}
      (h : rows = rows') :
      Except.map answer (rows.mapError Failure.ofTable)
        = Except.map answer (rows'.mapError Failure.ofTable) := by rw [h]
  have first {name : Named} {names : List Named} (hnamed : question.named = name :: names) :
      r.Inside keep name ∧ r'.Inside keep name :=
    inside name (hnamed ▸ List.mem_cons_self)
  have second {name name' : Named} (hnamed : question.named = [name, name']) :
      r.Inside keep name' ∧ r'.Inside keep name' :=
    inside name' (hnamed ▸ List.mem_cons_of_mem _ List.mem_cons_self)
  cases question with
  | content id =>
    obtain ⟨h, h'⟩ := first rfl
    exact congrArg (Except.map Answer.content) (alike.store_content_eq contents sound sound' h h')
  | version id =>
    obtain ⟨h, h'⟩ := first rfl
    exact congrArg (Except.map Answer.version) (alike.version_eq sound sound' h h')
  | history plan branch? =>
    exact listed .versions (alike.versionsOf_eq sound sound' ((first rfl).1 plan rfl) branch?)
  | verify id =>
    obtain ⟨h, h'⟩ := first rfl
    exact congrArg (Except.map Answer.intact) (alike.verify_eq contents sound sound' h h')
  | mergeBase a b =>
    obtain ⟨ha, ha'⟩ := first rfl
    obtain ⟨hb, hb'⟩ := second rfl
    exact congrArg (Except.map Answer.base) (alike.mergeBase_eq sound sound' ha ha' hb hb')
  | branches plan =>
    exact listed .branches (alike.branchesOf_eq sound sound' ((first rfl).1 plan rfl))
  | branch name plan =>
    exact congrArg (Except.map Answer.branch)
      (alike.branch_eq sound sound' name ((first rfl).1 plan rfl))
  | divergences a b =>
    obtain ⟨ha, ha'⟩ := first rfl
    obtain ⟨hb, hb'⟩ := second rfl
    exact congrArg (Except.map Answer.divergences)
      (alike.divergences_eq contents sound sound' ha ha' hb hb')
  | merge id =>
    obtain ⟨h, h'⟩ := first rfl
    exact congrArg (Except.map Answer.merge) (alike.mergeDetails_eq sound sound' h h')
  | merges plan status? =>
    exact listed .merges (alike.mergesOf_eq sound sound' ((first rfl).1 plan rfl) status?)
  | conflict id =>
    obtain ⟨h, h'⟩ := first rfl
    exact congrArg (Except.map Answer.conflict) (alike.conflict_eq sound sound' h h')
  | notes id =>
    obtain ⟨h, h'⟩ := first rfl
    exact listed .notes (alike.notesOn_eq sound sound' attached attached' h h')
  | search plan query =>
    exact congrArg (Except.map Answer.notes)
      (alike.search_eq sound sound' ((first rfl).1 plan rfl) policy query)
  | comments parent kind =>
    obtain ⟨h, h'⟩ := first rfl
    exact listed .comments (alike.commentsOn_eq sound sound' attached attached' h h')
  | reopen policy => rfl
  -- The other operations are no questions.
  | _ => exact absurd asks Bool.false_ne_true

end Records.Alike

/-! ### Stores and their records -/

theorem Store.Sound.mergeRows (sound : s.Sound r) :
    s.tables.merges.rows = r.merges.map MergeRow.store := by
  rw [sound.tables, Records.tables, Roll.rows_ofRows]

/-- Stores are alike if their records are, and their contents. -/
theorem Records.Alike.stores (h : r.Alike keep r') (sound : s.Sound r) (sound' : t.Sound r')
    (contents : ∀ id, r.tables.hasOf keep (.version id) = true →
      Blobs.read? id s.blobs = Blobs.read? id t.blobs) : s.Alike keep t where
  versions := by
    rw [sound.versionRows, sound'.versionRows, List.filter_map, List.filter_map]
    exact congrArg (List.map VersionRow.store) h.versions
  branches := by
    rw [sound.tables, sound'.tables, tables, tables]
    dsimp only
    rw [List.filter_map, List.filter_map]
    exact congrArg (List.map BranchRow.store) h.branches
  merges := by
    rw [sound.mergeRows, sound'.mergeRows, List.filter_map, List.filter_map]
    exact congrArg (List.map MergeRow.store) h.merges
  conflicts := by
    rw [sound.tables, sound'.tables]
    show (r.conflicts.map ConflictRow.store).filter _
      = (r'.conflicts.map ConflictRow.store).filter _
    rw [List.filter_map, List.filter_map]
    exact congrArg (List.map ConflictRow.store) h.conflicts
  notes := by
    rw [sound.tables, sound'.tables]
    exact h.notes
  comments := by
    rw [sound.tables, sound'.tables]
    exact h.comments
  contents := by
    rw [sound.tables]
    exact contents

/-- The records of stores that are alike are so. -/
theorem Store.Alike.records (h : s.Alike keep t) (sound : s.Sound r) (sound' : t.Sound r') :
    r.Alike keep r' := by
  obtain ⟨versions, branches, merges, conflicts, notes, comments, -⟩ := h
  rw [sound.versionRows, sound'.versionRows] at versions
  rw [sound.mergeRows, sound'.mergeRows] at merges
  rw [sound.tables, sound'.tables] at branches conflicts notes comments
  exact
    { versions := filter_eq_of_rows VersionRow.store (fun _ hmem _ hmem' =>
        VersionRow.store_injective (sound.storable.versions _ hmem)
          (sound'.storable.versions _ hmem')) versions
      branches := filter_eq_of_rows BranchRow.store (fun _ hmem _ hmem' => eq_of_read
        (BranchRow.read_store (sound.storable.branches _ hmem))
        (BranchRow.read_store (sound'.storable.branches _ hmem'))) branches
      merges := filter_eq_of_rows MergeRow.store (fun _ hmem _ hmem' => eq_of_read
        (MergeRow.read_store (sound.storable.merges _ hmem))
        (MergeRow.read_store (sound'.storable.merges _ hmem'))) merges
      conflicts := filter_eq_of_rows ConflictRow.store (fun _ hmem _ hmem' => eq_of_read
        (ConflictRow.read_store (sound.storable.conflicts _ hmem))
        (ConflictRow.read_store (sound'.storable.conflicts _ hmem'))) conflicts
      notes
      comments }

end Referring

end PlanHistory
