/-
A change stays within one floor plan.

Whatever changes the store names things of one plan only, and leaves all records of the other
plans as they are.

* **`Records.Alike.refl`**, **`Records.Alike.trans`** and the changes after them — which records
  each change of the lists leaves;
* **`Store.Step.within`** — a step changes nothing, or all that it names is of one plan and
  the records of others stay;
* **`Store.Step.planOf?_of_alike`**, **`Store.Step.read?_eq`** — what belongs to those others
  does so afterwards, and the blobs stay.
-/
import PlanHistory.Proofs.Repository.Alike

namespace PlanHistory

namespace Records

variable {keep : PlanId → Bool} {r r' r'' : Records}

/-! ### Changes of the lists -/

theorem Alike.refl (keep : PlanId → Bool) (r : Records) : r.Alike keep r :=
  ⟨rfl, rfl, rfl, rfl, rfl, rfl⟩

theorem Alike.trans (h : r.Alike keep r') (h' : r'.Alike keep r'') : r.Alike keep r'' where
  versions := h.versions.trans h'.versions
  branches := h.branches.trans h'.branches
  merges := h.merges.trans h'.merges
  conflicts := h.conflicts.trans h'.conflicts
  notes := h.notes.trans h'.notes
  comments := h.comments.trans h'.comments

theorem filter_concat_of_not {α : Type} (rows : List α) (kept : α → Bool) {row : α}
    (h : kept row = false) : (rows ++ [row]).filter kept = rows.filter kept := by
  rw [List.filter_append, List.filter_cons_of_neg (by rw [h]; decide), List.filter_nil,
    List.append_nil]

/-- What a change does to some rows only does not show in the others. -/
theorem filter_map_of_fixed {α : Type} {rows : List α} {change : α → α} {kept kept' : α → Bool}
    (hkept : ∀ row ∈ rows, kept' (change row) = kept row)
    (hfixed : ∀ row ∈ rows, kept row = true → change row = row) :
    (rows.map change).filter kept' = rows.filter kept := by
  have hfilter : rows.filter (kept' ∘ change) = rows.filter kept := List.filter_congr hkept
  rw [List.filter_map, hfilter]
  refine (List.map_congr_left fun row hmem => ?_).trans (List.map_id _)
  obtain ⟨hrow, hkeep⟩ := List.mem_filter.mp hmem
  exact hfixed row hrow hkeep

theorem hasOf_congr {name : Named} (h : r'.tables.planOf? name = r.tables.planOf? name) :
    r.tables.hasOf keep name = r'.tables.hasOf keep name := by
  rw [Tables.hasOf, Tables.hasOf, h]

/-- Comments belong to the plans that they did as long as versions and notes stay. -/
theorem comments_congr (r r' : Records) (versions : r'.versions = r.versions)
    (notes : r'.notes = r.notes) (rows : List CommentRow) :
    rows.filter (fun comment =>
        r.tables.hasOf keep (comment.parentKind.named comment.parent))
      = rows.filter fun comment =>
        r'.tables.hasOf keep (comment.parentKind.named comment.parent) := by
  refine List.filter_congr fun comment _ => hasOf_congr ?_
  cases comment.parentKind with
  | version =>
    show r'.tables.planOf? (.version comment.parent) = r.tables.planOf? (.version comment.parent)
    rw [planOf?_version, planOf?_version, version?, versions]
    rfl
  | note =>
    show (r'.notes.find? fun row => row.id == comment.parent).map (fun row => row.plan) = _
    rw [notes]
    rfl

/-- What is commented on stays of its plan when versions and notes are added. -/
theorem planOf?_of_longer {id : String} {kind : ParentKind} (h : r.HasParent id kind)
    (versions : r.versions <+: r'.versions) (notes : r.notes <+: r'.notes) :
    r'.tables.planOf? (kind.named id) = r.tables.planOf? (kind.named id) := by
  cases kind with
  | version =>
    obtain ⟨plan, hplan⟩ := Option.isSome_iff_exists.mp h.isSome_planOf?
    show r'.tables.planOf? (.version id) = r.tables.planOf? (.version id)
    rw [planOf?_version, planOf?_version]
    cases hversion : r.version? id with
    | some version => rw [version?_of_longer versions hversion]
    | none =>
      obtain ⟨version, hmem, hid⟩ := h
      exact absurd hid (version?_eq_none_iff.mp hversion version hmem)
  | note =>
    obtain ⟨added, hadded⟩ := notes
    show (r'.notes.find? fun row => row.id == id).map (fun row => row.plan)
      = (r.notes.find? fun row => row.id == id).map fun row => row.plan
    cases hnote : r.notes.find? fun row => row.id == id with
    | some note => rw [← hadded, List.find?_append, hnote, Option.some_or]
    | none =>
      obtain ⟨note, hmem, hid⟩ := h
      exact absurd (beq_iff_eq.mpr hid) (List.find?_eq_none.mp hnote note hmem)

theorem alike_addVersion {version : Version} (attached : r.Attached)
    (hkeep : keep version.plan = false) : r.Alike keep (r.addVersion version) where
  versions := (filter_concat_of_not r.versions (fun version => keep version.plan) hkeep).symm
  branches := rfl
  merges := rfl
  conflicts := rfl
  notes := rfl
  comments := List.filter_congr fun comment hmem => hasOf_congr
    (planOf?_of_longer (attached.comments comment hmem) (List.prefix_append _ _)
      (List.prefix_refl _))

theorem alike_addBranch {branch : Branch} (hkeep : keep branch.plan = false) :
    r.Alike keep (r.addBranch branch) :=
  { Alike.refl keep r with
    branches := (filter_concat_of_not r.branches (fun branch => keep branch.plan) hkeep).symm }

theorem alike_changeBranch {change : Branch → Branch} (name : String) {plan : PlanId}
    (hplan : ∀ branch, (change branch).plan = branch.plan) (hkeep : keep plan = false) :
    r.Alike keep (r.changeBranch name plan change) where
  versions := rfl
  branches := by
    refine (filter_map_of_fixed (fun branch _ => ?_) fun branch _ hkept => ?_).symm
    · split
      · rw [hplan]
      · rfl
    · rw [if_neg]
      intro hsame
      rw [beq_iff_eq.mp (Bool.and_eq_true_iff.mp hsame).2, hkeep] at hkept
      exact absurd hkept Bool.false_ne_true
  merges := rfl
  conflicts := rfl
  notes := rfl
  comments := rfl

theorem alike_setHead (name : String) {plan : PlanId} (head : String) (status : BranchStatus)
    (now : Timestamp) (hkeep : keep plan = false) :
    r.Alike keep (r.setHead name plan head status now) :=
  alike_changeBranch name (fun _ => rfl) hkeep

theorem alike_setBranchStatus (name : String) {plan : PlanId} (status : BranchStatus)
    (now : Timestamp) (hkeep : keep plan = false) :
    r.Alike keep (r.setBranchStatus name plan status now) :=
  alike_changeBranch name (fun _ => rfl) hkeep

theorem alike_record {version : Version} (attached : r.Attached)
    (hkeep : keep version.plan = false) (now : Timestamp) :
    r.Alike keep (r.record version now) := by
  have hadd := alike_addVersion attached hkeep
  rw [record]
  split
  · exact hadd.trans (alike_setHead _ _ _ _ hkeep)
  · exact hadd.trans (alike_addBranch hkeep)

theorem alike_addMerge {request : MergeRequest} {conflicts : List Conflict}
    (owners : ∀ conflict ∈ r.conflicts, (r.merge? conflict.merge).isSome)
    (fresh : r.merge? request.id = none)
    (hmerge : ∀ conflict ∈ conflicts, conflict.merge = request.id)
    (hkeep : keep request.plan = false) : r.Alike keep (r.addMerge request conflicts) where
  versions := rfl
  branches := rfl
  merges := (filter_concat_of_not r.merges (fun request => keep request.plan) hkeep).symm
  conflicts := by
    have hadded : conflicts.filter (fun conflict =>
        (r.addMerge request conflicts).tables.hasOf keep (.merge conflict.merge)) = [] := by
      refine List.filter_eq_nil_iff.mpr fun conflict hmem => ?_
      rw [Tables.hasOf, planOf?_merge, hmerge conflict hmem, Store.merge?_addMerge fresh conflicts,
        Option.map_some, Option.any_some, hkeep]
      exact Bool.false_ne_true
    show r.conflicts.filter _ = (r.conflicts ++ conflicts).filter _
    rw [List.filter_append, hadded, List.append_nil]
    refine List.filter_congr fun conflict hmem => hasOf_congr ?_
    -- The requests that conflicts had are found before the new one.
    obtain ⟨other, hother⟩ := Option.isSome_iff_exists.mp (owners conflict hmem)
    rw [planOf?_merge, planOf?_merge, hother, merge?, addMerge, List.find?_append]
    rw [merge?] at hother
    rw [hother, Option.some_or]
  notes := rfl
  comments := comments_congr r (r.addMerge request conflicts) rfl rfl r.comments

/-- A change of the requests that leaves their ids finds them changed. -/
theorem merge?_map {applies : MergeRequest → Bool} {change : MergeRequest → MergeRequest}
    (hid : ∀ request, (change request).id = request.id) (id : String) :
    { r with
      merges := r.merges.map fun request =>
        if applies request then change request else request }.merge? id
      = (r.merge? id).map fun request => if applies request then change request else request := by
  rw [merge?, List.find?_map]
  refine congrArg (fun picks => (r.merges.find? picks).map _) (funext fun request => ?_)
  rw [Function.comp_apply]
  split
  · rw [hid]
  · rfl

/-- A change of requests that leaves their ids and their plans, and is made to none that is
kept. -/
theorem alike_changeMerges {applies : MergeRequest → Bool} {change : MergeRequest → MergeRequest}
    (hsame : ∀ request, (change request).id = request.id ∧ (change request).plan = request.plan)
    (hkeep : ∀ request ∈ r.merges, applies request = true → keep request.plan = false) :
    r.Alike keep { r with
      merges := r.merges.map fun request =>
        if applies request then change request else request } where
  versions := rfl
  branches := rfl
  merges := by
    refine (filter_map_of_fixed (fun request _ => ?_) fun request hmem hkept => ?_).symm
    · split
      · rw [(hsame request).2]
      · rfl
    · rw [if_neg]
      intro happlies
      rw [hkeep request hmem happlies] at hkept
      exact absurd hkept Bool.false_ne_true
  conflicts := by
    refine List.filter_congr fun conflict _ => hasOf_congr ?_
    rw [planOf?_merge, planOf?_merge, merge?_map fun request => (hsame request).1, Option.map_map]
    refine congrArg (fun plan => (r.merge? conflict.merge).map plan) (funext fun request => ?_)
    rw [Function.comp_apply]
    split
    · exact (hsame request).2
    · rfl
  notes := rfl
  comments := comments_congr r { r with
    merges := r.merges.map fun request =>
      if applies request then change request else request } rfl rfl r.comments

theorem alike_complete {id : String} (actor result : String) (now : Timestamp)
    (hkeep : ∀ request ∈ r.merges, request.id = id → keep request.plan = false) :
    r.Alike keep (r.complete id actor result now) :=
  alike_changeMerges (fun _ => ⟨rfl, rfl⟩) fun request hmem hid =>
    hkeep request hmem (beq_iff_eq.mp hid)

theorem alike_fail {id : String}
    (hkeep : ∀ request ∈ r.merges, request.id = id → keep request.plan = false) :
    r.Alike keep (r.fail id) :=
  alike_changeMerges (fun _ => ⟨rfl, rfl⟩) fun request hmem happlies =>
    hkeep request hmem (beq_iff_eq.mp (Bool.and_eq_true_iff.mp happlies).1)

theorem alike_settle {id : String} (resolution actor : String) (now : Timestamp)
    (hkeep : ∀ conflict ∈ r.conflicts, conflict.id = id →
      r.tables.hasOf keep (.merge conflict.merge) = false) :
    r.Alike keep (r.settle id resolution actor now) where
  versions := rfl
  branches := rfl
  merges := rfl
  conflicts := by
    refine (filter_map_of_fixed (fun conflict _ => ?_) fun conflict hmem hkept => ?_).symm
    · rw [settledConflict]
      split <;> rfl
    · rw [settledConflict, if_neg]
      intro hsame
      rw [hkeep conflict hmem (beq_iff_eq.mp (Bool.and_eq_true_iff.mp hsame).1)] at hkept
      exact absurd hkept Bool.false_ne_true
  notes := rfl
  comments := comments_congr r (r.settle id resolution actor now) rfl rfl r.comments

theorem alike_addNote {note : NoteRow} (attached : r.Attached) (hkeep : keep note.plan = false) :
    r.Alike keep { r with notes := r.notes ++ [note] } where
  versions := rfl
  branches := rfl
  merges := rfl
  conflicts := rfl
  notes := (filter_concat_of_not r.notes (fun note => keep note.plan) hkeep).symm
  comments := List.filter_congr fun comment hmem => hasOf_congr
    (planOf?_of_longer (attached.comments comment hmem) (List.prefix_refl _)
      (List.prefix_append _ _))

theorem alike_addComment {comment : CommentRow}
    (hkeep : r.tables.hasOf keep (comment.parentKind.named comment.parent) = false) :
    r.Alike keep { r with comments := r.comments ++ [comment] } :=
  { Alike.refl keep r with
    comments := by
      have hcomments := filter_concat_of_not r.comments (fun comment =>
        r.tables.hasOf keep (comment.parentKind.named comment.parent)) hkeep
      rw [← hcomments]
      exact comments_congr r _ rfl rfl _ }

theorem alike_carriedOut {request : MergeRequest} (attached : r.Attached)
    (hkeep : keep request.plan = false) {s : Store} {stamp : Stamp} {actor : String}
    {plan : MergePlan} {blobs : Blobs} (planned : Planned s r stamp request actor plan blobs)
    (status : BranchStatus) (now : Timestamp) :
    r.Alike keep (r.carriedOut request status now plan) := by
  cases planned with
  | moveHead => exact alike_setHead _ _ _ _ hkeep
  | keepHead => exact Alike.refl keep r
  | commit => exact alike_record attached hkeep _

end Records

/-! ### Steps -/

namespace Store

variable {s : Store} {r r' : Records} {policy : Policy} {stamp : Stamp} {operation : Operation}
  {answer : Except Failure Answer} {blobs : Blobs}

/-- Whether all that an operation names is of one plan, and the records of the others stay as
they are. -/
def Within (r : Records) (operation : Operation) (r' : Records) : Prop :=
  ∃ plan, (∀ name ∈ operation.named, r.tables.planOf? name = some plan)
    ∧ ∀ keep, keep plan = false → r.Alike keep r'

theorem Sound.within_commit (sound : s.Sound r) (attached : r.Attached) {content : Json}
    {request : NewVersion} {parent? : Option String} (hparent : r.parentFor request = .ok parent?)
    (prepared : Prepared) (now : Timestamp) :
    Within r (.commit content request)
      (r.record (r.newVersion request prepared parent?) now) := by
  refine ⟨request.plan, fun name hmem => ?_, fun keep hkeep =>
    Records.alike_record attached hkeep _⟩
  rcases List.mem_cons.mp hmem with rfl | hmem
  · rfl
  · obtain ⟨parent, hasked, rfl⟩ := List.mem_map.mp hmem
    exact sound.planOf?_of_owns (Records.owns_of_parentFor sound.branches hparent _
      (Records.parentFor_of_asked hparent (Option.mem_toList.mp hasked)))

/-- A version is of the plan that its content is committed to. -/
theorem Within.restore {id branch author : String} {message? : Option String} {source : Version}
    {content : Json} (hversion : r.version? id = some source)
    (h : Within r (.commit content (restoring source branch author message?)) r') :
    Within r (.restore id branch author message?) r' := by
  obtain ⟨plan, hnames, halike⟩ := h
  refine ⟨plan, fun name hmem => ?_, halike⟩
  obtain rfl := List.mem_singleton.mp hmem
  have hplan : some source.plan = some plan := hnames _ List.mem_cons_self
  rw [Records.planOf?_version, hversion, ← hplan]
  rfl

theorem Sound.within_createBranch (sound : s.Sound r) {request : NewBranch}
    (hbase : Owns r.versions request.plan request.base) (now : Timestamp) :
    Within r (.createBranch request) (r.addBranch (request.created now)) := by
  refine ⟨request.plan, fun name hmem => ?_, fun keep hkeep => Records.alike_addBranch hkeep⟩
  rcases List.mem_pair.mp hmem with rfl | rfl
  · rfl
  · exact sound.planOf?_of_owns hbase

theorem Sound.within_updateHead (sound : s.Sound r) {name head : String} {plan : PlanId}
    {branch : Branch} (hbranch : r.branch? name plan = some branch)
    (hhead : Owns r.versions plan head) (now : Timestamp) :
    Within r (.updateHead name plan branch.head head)
      (r.setHead name plan head branch.status now) := by
  refine ⟨plan, fun named hmem => ?_, fun keep hkeep => Records.alike_setHead _ _ _ _ hkeep⟩
  rcases List.mem_cons.mp hmem with rfl | hmem
  · rfl
  · rcases List.mem_pair.mp hmem with rfl | rfl
    · exact sound.planOf?_of_owns (sound.branches.owns_head hbranch)
    · exact sound.planOf?_of_owns hhead

theorem Sound.within_openMerge (sound : s.Sound r) (fresh : stamp.Fresh s) (request : NewMerge)
    (strategy : Strategy) (source target : String) (base? : Option String)
    (found : List Divergence) :
    Within r (.openMerge request)
      (r.addMerge (request.opened stamp strategy (.opened found) source target base?)
        (stamp.conflicts found)) := by
  refine ⟨request.plan, fun name hmem => ?_, fun keep hkeep => ?_⟩
  · rcases List.mem_pair.mp hmem with rfl | rfl
    · rfl
    · rfl
  · refine Records.alike_addMerge (fun conflict hmem => ?_) (sound.merge?_eq_none fresh)
      (fun conflict hmem => Stamp.merge_of_mem hmem) hkeep
    have hthere := sound.isSome_planOf?_merge hmem
    rwa [Records.planOf?_merge, Option.isSome_map] at hthere

theorem Sound.within_resolve (sound : s.Sound r) {id : String} (resolution actor : String)
    {conflict : Conflict} {request : MergeRequest} (hconflict : r.conflict? id = some conflict)
    (hrequest : r.merge? conflict.merge = some request) (now : Timestamp) :
    Within r (.resolve id resolution actor) (r.settle id resolution actor now) := by
  refine ⟨request.plan, fun name hmem => ?_, fun keep hkeep =>
    Records.alike_settle _ _ _ fun other hmem hid => ?_⟩
  · obtain rfl := List.mem_singleton.mp hmem
    rw [Records.planOf?_conflict, hconflict, Option.bind_some, Records.planOf?_merge, hrequest]
    rfl
  · have hfound := List.find?_some hconflict
    rw [beq_iff_eq] at hfound
    have hsame : other = conflict := List.inj_on_of_nodup_map sound.merges.conflictIdsDiffer hmem
      (List.mem_of_find?_eq_some hconflict) (hid.trans hfound.symm)
    rw [hsame, Tables.hasOf, Records.planOf?_merge, hrequest]
    exact hkeep

/-- What is done to a request, and to records of its plan, is within its plan. -/
theorem Sound.within_execute (sound : s.Sound r) {request : MergeRequest}
    (hmem : request ∈ r.merges) (actor : String)
    (halike : ∀ keep, keep request.plan = false → r.Alike keep r') :
    Within r (.execute request.id actor) r' := by
  refine ⟨request.plan, fun name hname => ?_, halike⟩
  obtain rfl := List.mem_singleton.mp hname
  rw [Records.planOf?_merge, Records.merge?_of_mem sound.merges.idsDiffer hmem]
  rfl

theorem Sound.alike_executed (sound : s.Sound r) (attached : r.Attached) {request : MergeRequest}
    (hmem : request ∈ r.merges) {actor : String} {plan : MergePlan}
    (planned : Planned s r stamp request actor plan blobs) (status : BranchStatus)
    {keep : PlanId → Bool} (hkeep : keep request.plan = false) :
    r.Alike keep (r.executed request status actor stamp.time plan) := by
  have hcarried := Records.alike_carriedOut attached hkeep planned status stamp.time
  refine (hcarried.trans (Records.alike_complete _ _ _ fun other hother hid => ?_)).trans
    (Records.alike_setBranchStatus _ _ _ hkeep)
  rw [merges_carriedOut] at hother
  rwa [List.inj_on_of_nodup_map sound.merges.idsDiffer hother hmem hid]

theorem Sound.within_addNote (sound : s.Sound r) (attached : r.Attached) {request : NewNote}
    (hversion : Owns r.versions request.plan request.version) (stamp : Stamp) :
    Within r (.addNote request)
      { r with notes := r.notes ++ [NoteRow.store (request.attached stamp.id stamp.time)] } := by
  refine ⟨request.plan, fun name hmem => ?_, fun keep hkeep =>
    Records.alike_addNote attached hkeep⟩
  rcases List.mem_pair.mp hmem with rfl | rfl
  · rfl
  · exact sound.planOf?_of_owns hversion

theorem Sound.within_addComment (sound : s.Sound r) {request : NewComment}
    (hparent : r.tables.requireParent request.parent request.parentKind = .ok ()) (stamp : Stamp) :
    Within r (.addComment request)
      { r with
        comments := r.comments ++ [CommentRow.store (request.attached stamp.id stamp.time)] } := by
  have hthere := (Records.hasParent_of_requireParent sound.storable hparent).isSome_planOf?
  obtain ⟨plan, hplan⟩ := Option.isSome_iff_exists.mp hthere
  refine ⟨plan, fun name hmem => ?_, fun keep hkeep => Records.alike_addComment ?_⟩
  · rwa [List.mem_singleton.mp hmem]
  · show (r.tables.planOf? (request.parentKind.named request.parent)).any keep = false
    rw [hplan]
    exact hkeep

/-- A step changes nothing, or all that it names is of one plan, and the records of the others
stay as they are. -/
theorem Step.within (step : s.Step r policy stamp operation answer r' blobs) (sound : s.Sound r)
    (fresh : stamp.Fresh s) (attached : r.Attached) : r' = r ∨ Within r operation r' := by
  induction step with
  | failed => exact Or.inl rfl
  | asked => exact Or.inl rfl
  | repeated => exact Or.inl rfl
  | committed hcheck hparent hversion =>
    subst hversion
    exact Or.inr (sound.within_commit attached hparent _ _)
  | restored hversion _ _ ih => exact ih.imp_right (Within.restore hversion)
  | branched _ hbase => exact Or.inr (sound.within_createBranch hbase _)
  | moved hbranch hhead => exact Or.inr (sound.within_updateHead hbranch hhead _)
  | opened => exact Or.inr (sound.within_openMerge fresh _ _ _ _ _ _)
  | settled _ hconflict hrequest =>
    exact Or.inr (sound.within_resolve _ _ hconflict hrequest _)
  | executed hmem _ _ _ _ _ planned =>
    exact Or.inr (sound.within_execute hmem _ fun _ hkeep =>
      sound.alike_executed attached hmem planned _ hkeep)
  | abandoned hmem =>
    exact Or.inr (sound.within_execute hmem _ fun _ hkeep =>
      Records.alike_fail fun other hother hid =>
        List.inj_on_of_nodup_map sound.merges.idsDiffer hother hmem hid ▸ hkeep)
  | noted hversion => exact Or.inr (sound.within_addNote attached hversion stamp)
  | commented hparent => exact Or.inr (sound.within_addComment hparent stamp)

/-- What is of a plan that a step leaves alone is of it afterwards. -/
theorem Step.planOf?_of_alike {s' : Store}
    (step : s.Step r policy stamp operation answer r' s'.blobs) (sound' : s'.Sound r')
    {keep : PlanId → Bool} (alike : r.Alike keep r') {name : Named} {plan : PlanId}
    (hplan : r.tables.planOf? name = some plan) (hkeep : keep plan = true) :
    r'.tables.planOf? name = some plan := by
  have hmerge {id : String} (hplan : r.tables.planOf? (.merge id) = some plan) :
      r'.tables.planOf? (.merge id) = some plan := by
    rw [Records.planOf?_merge, Option.map_eq_some_iff] at hplan
    obtain ⟨request, hrequest, rfl⟩ := hplan
    obtain rfl := Records.id_of_merge? hrequest
    have hmem : request ∈ r.merges.filter fun request => keep request.plan :=
      List.mem_filter.mpr ⟨List.mem_of_find?_eq_some hrequest, hkeep⟩
    rw [alike.merges] at hmem
    rw [Records.planOf?_merge,
      Records.merge?_of_mem sound'.merges.idsDiffer (List.mem_filter.mp hmem).1]
    rfl
  cases name with
  | plan => exact hplan
  | branch => exact hplan
  | version id =>
    rw [Records.planOf?_version, Option.map_eq_some_iff] at hplan ⊢
    obtain ⟨version, hversion, hplan⟩ := hplan
    exact ⟨version, Records.version?_of_longer step.versions_longer hversion, hplan⟩
  | merge id => exact hmerge hplan
  | conflict id =>
    rw [Records.planOf?_conflict] at hplan
    obtain ⟨conflict, hconflict, howner⟩ := Option.bind_eq_some_iff.mp hplan
    have hfound := List.find?_some hconflict
    rw [beq_iff_eq] at hfound
    subst hfound
    have hmem : conflict ∈ r.conflicts.filter fun conflict =>
        r.tables.hasOf keep (.merge conflict.merge) := by
      refine List.mem_filter.mpr ⟨List.mem_of_find?_eq_some hconflict, ?_⟩
      rw [Tables.hasOf, howner]
      exact hkeep
    rw [alike.conflicts] at hmem
    rw [Records.planOf?_conflict,
      Records.conflict?_of_mem sound'.merges.conflictIdsDiffer (List.mem_filter.mp hmem).1]
    exact hmerge howner
  | note id =>
    obtain ⟨added, hadded⟩ := step.notes_longer
    obtain ⟨note, hnote, hplan⟩ := Option.map_eq_some_iff.mp hplan
    have hnote : r.notes.find? (fun row => row.id == id) = some note := hnote
    show (r'.notes.find? fun row => row.id == id).map (fun row => row.plan) = some plan
    rw [← hadded, List.find?_append, hnote, Option.some_or, Option.map_some, hplan]

/-- The blob of a version stays. -/
theorem Step.read?_eq {s' : Store} (step : s.Step r policy stamp operation answer r' s'.blobs)
    (sound : s.Sound r) (sound' : s'.Sound r') (fresh : stamp.Fresh s) {id : String}
    (hthere : (r.tables.planOf? (.version id)).isSome) :
    Blobs.read? id s.blobs = Blobs.read? id s'.blobs := by
  rw [Records.planOf?_version, Option.isSome_map] at hthere
  obtain ⟨version, hversion⟩ := Option.isSome_iff_exists.mp hthere
  obtain ⟨hmem, rfl⟩ := Records.mem_of_version? hversion
  obtain ⟨document, hheld⟩ := sound.versions.contents version hmem
  rw [hheld.blob, (step.keeps sound sound' fresh).read? hheld.blob]

end Store

end PlanHistory
