/-
Merge requests: opening them and settling their conflicts.

* **`Store.openMerge_of_found`** — what opening a request answers and leaves behind;
* **`Store.resolve_eq`** — what settling a conflict answers and leaves behind;
* **`Store.Sound.opened`**, **`Store.Sound.settle`** — the store stays sound.
-/
import PlanHistory.Proofs.Repository.Ancestry
import PlanHistory.Proofs.Repository.Branches

namespace PlanHistory

/-! ### Contents of the two sides and the base -/

/-- The document of the base of a merge, if it has one. -/
def baseContent (base? : Option String) (blobs : Blobs) : Except Failure (Option Json) :=
  match base? with
  | some base => (Blobs.content base blobs).map some
  | none => .ok none

theorem divergencesIn_eq_ok_iff {blobs : Blobs} {base? : Option String} {source target : String}
    {found : List Divergence} :
    divergencesIn blobs base? source target = .ok found
      ↔ ∃ sourceContent targetContent baseContent?,
        Blobs.content source blobs = .ok sourceContent
          ∧ Blobs.content target blobs = .ok targetContent
          ∧ baseContent base? blobs = .ok baseContent?
          ∧ Divergence.since baseContent? sourceContent targetContent = found := by
  rw [divergencesIn, Store.divergencesSince]
  simp only [Store.content_blobs, bind_eq_ok_iff]
  cases base? with
  | none => simp [baseContent, Divergence.since, pure, Except.pure]
  | some base =>
    cases hbase : Blobs.content base blobs with
    | error failure => simp [baseContent, hbase, Except.map, bind, Except.bind]
    | ok document =>
      simp [baseContent, hbase, Except.map, Divergence.since, pure, Except.pure, bind, Except.bind]

/-- The document of a version of sound records is valid and no deeper than the reader goes. -/
theorem VersionsSound.within {versions : List Version} {blobs : Blobs}
    (sound : VersionsSound versions blobs) {plan : PlanId} {id : String}
    (hid : Owns versions plan id) {document : Json} (h : Blobs.content id blobs = .ok document) :
    document.Within Json.nestingLimit ∧ Document.validate document = .ok () := by
  obtain ⟨hvalid, hle⟩ := sound.holds_of_owns hid h
  exact ⟨⟨hvalid.ordered, hle⟩, hvalid.accepted⟩

/-! ### The order of conflicts -/

/-- Rows are put in the order in which divergences are found. -/
theorem conflictLe_of_before {a b : Conflict} (h : a.divergence.Before b.divergence) :
    Tables.conflictLe (ConflictRow.store a) (ConflictRow.store b) = true := by
  rw [Tables.conflictLe]
  rcases h with hobject | ⟨hobject, hproperty⟩
  · have hobject : (ConflictRow.store a).object < (ConflictRow.store b).object := hobject
    rw [if_neg (by rw [beq_iff_eq]; exact ne_of_lt hobject), decide_eq_true_eq]
    exact le_of_lt hobject
  · have hobject : (ConflictRow.store a).object = (ConflictRow.store b).object := hobject
    have hproperty : (ConflictRow.store a).property? < (ConflictRow.store b).property? := hproperty
    rw [if_pos (by rw [beq_iff_eq]; exact hobject)]
    cases ha : (ConflictRow.store a).property? with
    | none => rfl
    | some p =>
      cases hb : (ConflictRow.store b).property? with
      | none => simp [ha, hb] at hproperty
      | some q =>
        rw [ha, hb, Option.some_lt_some] at hproperty
        exact decide_eq_true (le_of_lt hproperty)

/-! ### Opening a request -/

/-- The conflicts of a new request. -/
def Stamp.conflicts (stamp : Stamp) (found : List Divergence) : List Conflict :=
  found.mapIdx fun i divergence => divergence.conflict (stamp.conflictId i) stamp.id stamp.time

/-- The status of a new request. -/
def MergeStatus.opened (found : List Divergence) : MergeStatus :=
  if found.isEmpty then .pending else .conflict

namespace Stamp

variable {stamp : Stamp} {found : List Divergence} {conflict : Conflict}

theorem mem_conflicts (h : conflict ∈ stamp.conflicts found) :
    ∃ i, ∃ divergence ∈ found,
      conflict = divergence.conflict (stamp.conflictId i) stamp.id stamp.time := by
  obtain ⟨i, hi, rfl⟩ := List.mem_mapIdx.mp h
  exact ⟨i, _, List.getElem_mem hi, rfl⟩

theorem merge_of_mem (h : conflict ∈ stamp.conflicts found) : conflict.merge = stamp.id := by
  obtain ⟨i, divergence, -, rfl⟩ := mem_conflicts h
  rfl

theorem isEmpty_conflicts : (stamp.conflicts found).isEmpty = found.isEmpty := by
  rw [Bool.eq_iff_iff, List.isEmpty_iff, List.isEmpty_iff, conflicts, List.mapIdx_eq_nil_iff]

theorem divergences_conflicts : (stamp.conflicts found).map Conflict.divergence = found :=
  List.ext_getElem (by simp [conflicts]) fun i _ _ => by
    simp [conflicts, Divergence.conflict, Conflict.divergence]

theorem nodup_conflicts (injective : Function.Injective stamp.conflictId) :
    ((stamp.conflicts found).map fun conflict => conflict.id).Nodup := by
  have hids : (stamp.conflicts found).map (fun conflict => conflict.id)
      = (List.range found.length).map stamp.conflictId :=
    List.ext_getElem (by simp [conflicts]) fun i _ _ => by
      simp [conflicts, Divergence.conflict]
  rw [hids]
  exact List.nodup_range.map injective

end Stamp

namespace Records

variable {r : Records}

/-- The heads of the two branches of a merge, and their base if one is asked for. -/
theorem mergeHeads_tables {blobs : Blobs} (storable : r.Storable)
    (versions : VersionsSound r.versions blobs) (branches : BranchesSound r.versions r.branches)
    (detection : Detection) {request : NewMerge} {heads : String × String × Option String}
    (h : r.tables.mergeHeads detection request = .ok heads) :
    (∃ source, r.branch? request.sourceBranch request.plan = some source ∧ source.head = heads.1)
      ∧ (∃ target, r.branch? request.targetBranch request.plan = some target
        ∧ target.head = heads.2.1)
      ∧ ∀ base ∈ heads.2.2, Owns r.versions request.plan base := by
  obtain ⟨source, hsource, h⟩ := bind_eq_ok_iff.mp h
  obtain ⟨target, htarget, h⟩ := bind_eq_ok_iff.mp h
  rw [branch_tables storable] at hsource htarget
  cases hs : r.branch? request.sourceBranch request.plan with
  | none => simp [hs] at hsource
  | some found =>
    cases ht : r.branch? request.targetBranch request.plan with
    | none => simp [ht] at htarget
    | some found' =>
      rw [hs, Except.ok.injEq] at hsource
      rw [ht, Except.ok.injEq] at htarget
      subst hsource htarget
      -- Only three-way detection looks for a base.
      cases detection with
      | twoWay =>
        obtain rfl := Except.ok.inj h
        exact ⟨⟨found, rfl, rfl⟩, ⟨found', rfl, rfl⟩, by simp⟩
      | threeWay =>
        obtain ⟨base?, hbase, h⟩ := bind_eq_ok_iff.mp h
        obtain rfl := Except.ok.inj h
        obtain ⟨known?, hknown, howns⟩ :=
          owns_of_mergeBase versions (branches.owns_head hs) (branches.owns_head ht)
        rw [hknown, Except.ok.injEq] at hbase
        subst hbase
        exact ⟨⟨found, rfl, rfl⟩, ⟨found', rfl, rfl⟩, howns⟩

end Records

namespace Store

variable {s : Store} {r : Records} {stamp : Stamp}

theorem Sound.merge?_eq_none (sound : s.Sound r) (fresh : stamp.Fresh s) :
    r.merge? stamp.id = none := by
  have hmerge := fresh.merge
  rw [sound.tables, Records.hasMerge_tables] at hmerge
  exact Option.not_isSome_iff_eq_none.mp (by rw [hmerge]; decide)

theorem Sound.merge_eq_ok (sound : s.Sound r) {id : String} {request : MergeRequest}
    (h : r.merge? id = some request) : s.tables.merge id = .ok (r.summary request) := by
  rw [sound.tables, Records.merge_tables sound.storable, h]

theorem Sound.merge_of_mem (sound : s.Sound r) {request : MergeRequest} (h : request ∈ r.merges) :
    s.tables.merge request.id = .ok (r.summary request) :=
  sound.merge_eq_ok (Records.merge?_of_mem sound.merges.idsDiffer h)

/-- A request that is read is there. -/
theorem Sound.merge?_eq (sound : s.Sound r) {id : String} {summary : MergeSummary}
    (h : s.tables.merge id = .ok summary) :
    ∃ request, r.merge? id = some request ∧ summary = r.summary request := by
  rw [sound.tables, Records.merge_tables sound.storable] at h
  cases hrequest : r.merge? id with
  | none => simp [hrequest] at h
  | some request =>
    rw [hrequest] at h
    exact ⟨request, rfl, (Except.ok.inj h).symm⟩

theorem Sound.mergeId_ne (sound : s.Sound r) (fresh : stamp.Fresh s) {request : MergeRequest}
    (h : request ∈ r.merges) : request.id ≠ stamp.id := by
  have hnone := sound.merge?_eq_none fresh
  rw [Records.merge?, List.find?_eq_none] at hnone
  exact fun hid => hnone request h (by rw [hid, beq_self_eq_true])

theorem Sound.conflictId_ne (sound : s.Sound r) (fresh : stamp.Fresh s) (i : Nat)
    {conflict : Conflict} (h : conflict ∈ r.conflicts) : conflict.id ≠ stamp.conflictId i := by
  intro hsame
  have hrow : ConflictRow.store conflict ∈ s.tables.conflicts := by
    rw [sound.tables]
    exact List.mem_map_of_mem h
  exact fresh.conflicts i _ hrow (congrArg some hsame)

theorem merge?_addMerge {request : MergeRequest} (fresh : r.merge? request.id = none)
    (added : List Conflict) : (r.addMerge request added).merge? request.id = some request := by
  rw [Records.merge?] at fresh ⊢
  rw [Records.addMerge, List.find?_append, fresh, Option.none_or]
  exact List.find?_cons_of_pos (beq_self_eq_true _)

/-- A request between two branches whose heads could be compared is opened. -/
theorem openMerge_of_found (sound : s.Sound r) (fresh : stamp.Fresh s) {policy : Policy}
    {request : NewMerge} {source target : String} {base? : Option String}
    {found : List Divergence} (hcheck : request.check = .ok ())
    (hheads : r.tables.mergeHeads policy.detection request = .ok (source, target, base?))
    (hfound : divergencesIn s.blobs base? source target = .ok found) :
    s.openMerge stamp policy request
      = (.ok ⟨stamp.id, .opened found, stamp.conflicts found⟩,
          ⟨(r.addMerge (request.opened stamp policy.strategy (.opened found) source target base?)
            (stamp.conflicts found)).tables, s.blobs⟩) := by
  obtain ⟨⟨sourceBranch, hsource, hsourceHead⟩, ⟨targetBranch, htarget, htargetHead⟩, hbase⟩ :=
    Records.mergeHeads_tables sound.storable sound.versions sound.branches _ hheads
  have hversions : ∀ {branch : Branch} {name : String} {id : String},
      r.branch? name request.plan = some branch → branch.head = id → (r.version? id).isSome := by
    rintro branch name id hbranch rfl
    exact Records.isSome_version? (sound.branches.owns_head hbranch)
  generalize hopened :
    request.opened stamp policy.strategy (.opened found) source target base? = opened
  have hid : opened.id = stamp.id := by rw [← hopened]; rfl
  have hinsert : r.tables.insertMerge opened = .ok (r.addMerge opened []).tables := by
    subst hopened
    exact Records.insertMerge_tables (sound.tables ▸ fresh.mergesLeft)
      (sound.merge?_eq_none fresh) ⟨rfl, rfl, rfl⟩ (hversions hsource hsourceHead)
      (hversions htarget htargetHead) fun base hmem => Records.isSome_version? (hbase base hmem)
  have hmerge : ((r.addMerge opened []).merge? stamp.id).isSome := by
    rw [← hid, merge?_addMerge (hid ▸ sound.merge?_eq_none fresh)]
    rfl
  -- The conflicts are inserted once their request is there.
  have hconflicts : (r.addMerge opened []).tables.insertConflicts (stamp.conflicts found)
      = .ok (r.addMerge opened (stamp.conflicts found)).tables := by
    rw [Records.insertConflicts_tables _ (Stamp.nodup_conflicts fresh.conflictsDiffer)]
    · simp only [Records.addMerge, List.append_nil]
    · intro conflict hmem
      obtain ⟨i, divergence, -, rfl⟩ := Stamp.mem_conflicts hmem
      exact hmerge
    · intro conflict hmem
      obtain ⟨i, divergence, -, rfl⟩ := Stamp.mem_conflicts hmem
      exact ⟨rfl, rfl, rfl⟩
    · intro conflict hmem other hother
      obtain ⟨i, divergence, -, rfl⟩ := Stamp.mem_conflicts hmem
      exact sound.conflictId_ne fresh i ((List.append_nil r.conflicts) ▸ hother)
  have hfound : s.divergencesSince base? source target = .ok found := hfound
  have hstatus : (if (stamp.conflicts found).isEmpty then MergeStatus.pending else .conflict)
      = .opened found := by
    rw [Stamp.isEmpty_conflicts]
    rfl
  rw [Stamp.conflicts] at hstatus hconflicts ⊢
  rw [openMerge, transact, sound.tables, hcheck]
  dsimp only [bind, Except.bind]
  rw [hheads]
  dsimp only
  rw [hfound]
  dsimp only
  rw [hstatus, hopened, hinsert]
  dsimp only [Except.mapError]
  rw [hconflicts]
  dsimp only
  rw [hid]
  rfl

/-- Other requests and conflicts for the same versions. -/
theorem Sound.withMerges (sound : s.Sound r) {merges : List MergeRequest}
    {conflicts : List Conflict}
    (fitting : MergesSound r.versions r.branches s.blobs merges conflicts) :
    Sound ⟨{ r with merges, conflicts }.tables, s.blobs⟩ { r with merges, conflicts } :=
  ⟨rfl, sound.versions, sound.branches, fitting⟩

/-- A request that is opened on compared heads keeps the store sound. -/
theorem Sound.opened (sound : s.Sound r) (fresh : stamp.Fresh s) {policy : Policy}
    {request : NewMerge} {source target : String} {base? : Option String}
    {found : List Divergence}
    (hheads : r.tables.mergeHeads policy.detection request = .ok (source, target, base?))
    (hfound : divergencesIn s.blobs base? source target = .ok found) :
    Sound ⟨(r.addMerge (request.opened stamp policy.strategy (.opened found) source target base?)
        (stamp.conflicts found)).tables, s.blobs⟩
      (r.addMerge (request.opened stamp policy.strategy (.opened found) source target base?)
        (stamp.conflicts found)) := by
  obtain ⟨⟨sourceBranch, hsource, rfl⟩, ⟨targetBranch, htarget, rfl⟩, hbase⟩ :=
    Records.mergeHeads_tables sound.storable sound.versions sound.branches _ hheads
  obtain ⟨hsourceMem, hsourceName, hsourcePlan⟩ := Records.mem_of_branch? hsource
  obtain ⟨htargetMem, htargetName, htargetPlan⟩ := Records.mem_of_branch? htarget
  have hsourceOwns := sound.branches.owns_head hsource
  have htargetOwns := sound.branches.owns_head htarget
  obtain ⟨sourceContent, targetContent, baseContent?, hs, ht, -, rfl⟩ :=
    divergencesIn_eq_ok_iff.mp hfound
  have hsourceWithin := (sound.versions.within hsourceOwns hs).1
  have htargetWithin := (sound.versions.within htargetOwns ht).1
  refine sound.withMerges (sound.merges.add ⟨fresh.time, by simp [NewMerge.opened]⟩ ?_ ?_ ?_
    (Stamp.nodup_conflicts fresh.conflictsDiffer) hsourceOwns htargetOwns hbase rfl
    ⟨⟨sourceBranch, hsourceMem, hsourceName, hsourcePlan⟩,
      ⟨targetBranch, htargetMem, htargetName, htargetPlan⟩⟩ ?_ ?_)
  · intro conflict hmem
    obtain ⟨i, divergence, hdivergence, rfl⟩ := Stamp.mem_conflicts hmem
    obtain ⟨hsourceValue, htargetValue⟩ :=
      Divergence.within_of_mem_since hsourceWithin htargetWithin hdivergence
    exact ⟨fun value hvalue => (hsourceValue value hvalue).mono (by decide),
      fun value hvalue => (htargetValue value hvalue).mono (by decide), fresh.time, by
        simp [Divergence.conflict]⟩
  · exact fun other => sound.mergeId_ne fresh
  · intro conflict hmem other hother
    obtain ⟨i, divergence, -, rfl⟩ := Stamp.mem_conflicts hmem
    exact sound.conflictId_ne fresh i hother
  · rw [Stamp.divergences_conflicts]
    exact hfound
  · exact fun conflict => Stamp.merge_of_mem

theorem Sound.of_mergeDetails (sound : s.Sound r) {id : String} {details : MergeDetails}
    (h : s.tables.mergeDetails id = .ok details) :
    ∃ request, r.merge? id = some request ∧ details = ⟨r.summary request, r.conflictsOf id⟩ := by
  rw [sound.tables, Records.mergeDetails_tables sound.storable] at h
  cases hrequest : r.merge? id with
  | none => simp [hrequest] at h
  | some request =>
    rw [hrequest] at h
    exact ⟨request, rfl, (Except.ok.inj h).symm⟩

/-- The conflicts of a request are listed in the order in which they were found. -/
theorem Sound.conflictsOf_eq (sound : s.Sound r) {request : MergeRequest}
    (hmem : request ∈ r.merges) :
    r.conflictsOf request.id = r.conflicts.filter fun conflict => conflict.merge == request.id := by
  obtain ⟨source, target, base?, -, -, -, hfound⟩ :=
    divergencesIn_eq_ok_iff.mp (sound.merges.compared request hmem)
  have hpairwise := Divergence.pairwise_since base? source target
  rw [hfound, List.pairwise_map] at hpairwise
  exact List.mergeSort_of_pairwise (hpairwise.imp conflictLe_of_before)

/-! ### Settling a conflict -/

/-- What settling a conflict of a sound store answers and leaves behind. -/
theorem resolve_eq (sound : s.Sound r) (id resolution actor : String) :
    s.resolve stamp id resolution actor
      = if Text.isBlank resolution then (.error (.invalid (.blank .resolution)), s)
        else
          match r.conflict? id with
          | none => (.error (.notFound .conflict id), s)
          | some conflict =>
            match r.merge? conflict.merge with
            | none => (.error (.notFound .mergeRequest conflict.merge), s)
            | some request =>
              if request.status.isTerminal then
                (.error (.mergeOver request.id (label request.status)), s)
              else
                match conflict.resolution? with
                | some settled =>
                  if settled = resolution then (.ok id, s)
                  else (.error (.conflictResolved id settled), s)
                | none =>
                  (.ok id, ⟨(r.settle id resolution actor stamp.time).tables, s.blobs⟩) := by
  rw [resolve, transact, require]
  by_cases hblank : Text.isBlank resolution = true
  · rw [if_pos hblank, if_pos hblank]
    rfl
  rw [if_neg hblank, if_neg hblank]
  dsimp only [bind, Except.bind]
  rw [Tables.settle, sound.tables, Records.conflict_tables sound.storable]
  cases hconflict : r.conflict? id with
  | none => rfl
  | some conflict =>
    dsimp only [bind, Except.bind]
    rw [Records.merge_tables sound.storable]
    cases hrequest : r.merge? conflict.merge with
    | none => rfl
    | some request =>
      dsimp only [Records.summary]
      by_cases hover : request.status.isTerminal = true
      · rw [if_pos hover, if_pos hover]
        rfl
      rw [if_neg hover, if_neg hover]
      dsimp only [pure, Except.pure]
      cases hsettled : conflict.resolution? with
      | some settled =>
        dsimp only
        by_cases hsame : settled = resolution
        · rw [if_pos hsame, if_pos hsame, ← sound.tables]
        · rw [if_neg hsame, if_neg hsame]
          rfl
      | none => rw [Records.resolveConflict_tables]

theorem Sound.settle (sound : s.Sound r) (id resolution actor : String) {now : Timestamp}
    (hnow : now.Writable) :
    Sound ⟨(r.settle id resolution actor now).tables, s.blobs⟩
      (r.settle id resolution actor now) :=
  sound.withMerges (sound.merges.settle _ _ (fun _ => ⟨rfl, rfl, rfl⟩) fun _ h =>
    ⟨h.source?, h.target?, h.createdAt, fun _ htime => Option.some_inj.mp htime ▸ hnow⟩)

/-- A request that is marked failed keeps the store sound. -/
theorem Sound.fail (sound : s.Sound r) (id : String) :
    Sound ⟨(r.fail id).tables, s.blobs⟩ (r.fail id) :=
  sound.withMerges (sound.merges.change _ _ (fun _ => ⟨rfl, rfl, rfl, rfl, rfl, rfl, rfl⟩)
    (fun _ h => ⟨h.createdAt, h.mergedAt?⟩) fun request hmem _ => sound.merges.results request hmem)

end Store

/-- A stamp that is new stays so when a conflict is settled. -/
theorem Stamp.Fresh.settle {s : Store} {r : Records} {stamp : Stamp} (fresh : stamp.Fresh s)
    (sound : s.Sound r) (id resolution actor : String) (now : Timestamp) :
    stamp.Fresh ⟨(r.settle id resolution actor now).tables, s.blobs⟩ := by
  obtain ⟨time, safe, version, merge, conflicts, conflictsDiffer, versionsLeft, mergesLeft⟩ := fresh
  rw [sound.tables] at version merge conflicts versionsLeft mergesLeft
  refine ⟨time, safe, version, merge, fun i row hmem => ?_, conflictsDiffer, versionsLeft,
    mergesLeft⟩
  obtain ⟨settled, hsettled, rfl⟩ := List.mem_map.mp hmem
  obtain ⟨conflict, hconflict, rfl⟩ := List.mem_map.mp hsettled
  have hid : (ConflictRow.store (Records.settledConflict id resolution actor now conflict)).id
      = (ConflictRow.store conflict).id :=
    congrArg some (Records.id_settledConflict id resolution actor now conflict)
  rw [hid]
  exact conflicts i _ (List.mem_map_of_mem hconflict)

end PlanHistory
