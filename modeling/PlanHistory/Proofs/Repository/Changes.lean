/-
Changes that keep records sound.

One lemma for each list and each way to change it; `Store.Sound` is put together from
them where an operation is known to make just these changes.

* **`VersionsSound.add`** — a version with a new id and its blob;
* **`BranchesSound.add`**, **`BranchesSound.change`** — a branch, and its head or status;
* **`MergesSound.add`**, **`MergesSound.change`**, **`MergesSound.settle`** — a request
  with its conflicts, what becomes of it, and what settles a conflict;
* **`MergesSound.extend`** — requests and conflicts do not mind more versions.
-/
import PlanHistory.Proofs.Repository.Sound

namespace PlanHistory

variable {versions : List Version} {branches : List Branch} {blobs : Blobs}
  {merges : List MergeRequest} {conflicts : List Conflict}

/-! ### One more record -/

theorem forall_mem_concat {α : Type} {records : List α} {record : α} {holds : α → Prop}
    (old : ∀ other ∈ records, holds other) (new : holds record) :
    ∀ other ∈ records ++ [record], holds other :=
  List.forall_mem_append.mpr ⟨old, List.forall_mem_singleton.mpr new⟩

/-- Keys that differ do so still with the key of one more record, if it is new. -/
theorem nodup_map_concat {α β : Type} {key : α → β} {records : List α} {record : α}
    (keys : (records.map key).Nodup) (fresh : ∀ other ∈ records, key other ≠ key record) :
    ((records ++ [record]).map key).Nodup := by
  rw [List.map_append, List.map_singleton]
  refine List.nodup_append.mpr ⟨keys, List.nodup_singleton _, ?_⟩
  intro found hfound other hother
  obtain ⟨earlier, hmem, rfl⟩ := List.mem_map.mp hfound
  rw [List.mem_singleton.mp hother]
  exact fresh earlier hmem

/-! ### Versions -/

theorem versionsOn_append_of_ne {version : Version} {plan : PlanId} {branch : String}
    (h : ¬ (version.plan = plan ∧ version.branch = branch)) :
    versionsOn (versions ++ [version]) plan branch = versionsOn versions plan branch := by
  rw [versionsOn, List.filter_append, List.filter_singleton, ← versionsOn]
  have hne : (version.plan == plan && version.branch == branch) = false := by
    rw [Bool.eq_false_iff]
    intro hsame
    rw [Bool.and_eq_true, beq_iff_eq, beq_iff_eq] at hsame
    exact h hsame
  rw [hne, cond_false, List.append_nil]

theorem versionsOn_append_self (version : Version) :
    versionsOn (versions ++ [version]) version.plan version.branch
      = versionsOn versions version.plan version.branch ++ [version] := by
  rw [versionsOn, List.filter_append, List.filter_singleton, ← versionsOn, beq_self_eq_true,
    beq_self_eq_true]
  rfl

/-- What a blob holds is held still when a blob of another version is put beside it. -/
theorem Holds.insert {version : Version} {document : Json} (h : Holds blobs version document)
    {id : String} (hne : version.id ≠ id) (bytes : ByteArray) :
    Holds (Keyed.insert id bytes blobs) version document :=
  ⟨h.valid, by rw [Blobs.read?_insert_of_ne hne, h.blob], h.hash, h.size⟩

/-- A version with a new id, the next place on its branch and a parent in its plan. -/
theorem VersionsSound.add (sound : VersionsSound versions blobs) {version : Version}
    {document : Json} (storable : version.Storable)
    (fresh : ∀ other ∈ versions, other.id ≠ version.id)
    (place : version.sequence = (versionsOn versions version.plan version.branch).length + 1)
    (parent : ∀ parent ∈ version.parent?, Owns versions version.plan parent)
    (safe : Blobs.isSafeId version.id) (valid : Document.Valid document)
    (hash : version.contentHash = Document.contentHash document)
    (size : version.contentSize = (Document.contentBytes document).size) :
    VersionsSound (versions ++ [version])
      (Keyed.insert version.id (Document.contentBytes document) blobs) where
  storable := forall_mem_concat sound.storable storable
  idsDiffer := nodup_map_concat sound.idsDiffer fresh
  sequences plan branch := by
    by_cases hsame : version.plan = plan ∧ version.branch = branch
    · obtain ⟨rfl, rfl⟩ := hsame
      rw [versionsOn_append_self, List.map_append, sound.sequences, List.length_append,
        List.length_singleton, List.range_succ, List.map_append, List.map_singleton,
        List.map_singleton, place]
    · rw [versionsOn_append_of_ne hsame]
      exact sound.sequences plan branch
  parents earlier other later heq := by
    -- The new version is the last, and the others stand behind the same ones as before.
    rcases List.eq_nil_or_concat later with rfl | ⟨before, last, rfl⟩
    · obtain ⟨rfl, hlast⟩ := List.append_inj' heq rfl
      obtain rfl := List.singleton_inj.mp hlast
      exact parent
    · rw [List.concat_eq_append, ← List.cons_append, ← List.append_assoc] at heq
      obtain ⟨hversions, -⟩ := List.append_inj' heq rfl
      exact sound.parents earlier other before hversions
  contents := by
    refine forall_mem_concat (fun other hmem => ?_)
      ⟨document, valid, Blobs.read?_insert_self safe, hash, size⟩
    obtain ⟨held, hheld⟩ := sound.contents other hmem
    exact ⟨held, hheld.insert (fresh other hmem) _⟩
  ascending := sound.ascending.insert
  owned id hid := by
    rw [Keyed.get?_insert] at hid
    split at hid
    next hself => exact ⟨version, List.mem_append_right _ (List.mem_singleton_self _), hself.symm⟩
    next =>
      obtain ⟨other, hmem, hother⟩ := sound.owned id hid
      exact ⟨other, List.mem_append_left _ hmem, hother⟩

/-! ### Branches -/

/-- A change of some branches that leaves their names, plans and bases. -/
theorem BranchesSound.change (sound : BranchesSound versions branches) (applies : Branch → Bool)
    (change : Branch → Branch)
    (hsame : ∀ branch, (change branch).name = branch.name ∧ (change branch).plan = branch.plan
      ∧ (change branch).base = branch.base)
    (hstorable : ∀ branch, branch.Storable → (change branch).Storable)
    (hheads : ∀ branch ∈ branches, applies branch = true →
      Owns versions branch.plan (change branch).head) :
    BranchesSound versions
      (branches.map fun branch => if applies branch then change branch else branch) := by
  have hmap : ∀ branch ∈
        branches.map (fun branch => if applies branch then change branch else branch),
      ∃ old ∈ branches, branch.name = old.name ∧ branch.plan = old.plan ∧ branch.base = old.base
        ∧ branch.Storable ∧ Owns versions old.plan branch.head := by
    intro branch hmem
    obtain ⟨old, hold, rfl⟩ := List.mem_map.mp hmem
    refine ⟨old, hold, ?_⟩
    split
    next happlies =>
      obtain ⟨hname, hplan, hbase⟩ := hsame old
      exact ⟨hname, hplan, hbase, hstorable old (sound.storable old hold),
        hheads old hold happlies⟩
    next => exact ⟨rfl, rfl, rfl, sound.storable old hold, sound.heads old hold⟩
  exact
    { storable := fun branch hmem => by
        obtain ⟨old, hold, -, -, -, hstorable, -⟩ := hmap branch hmem
        exact hstorable
      namesDiffer := by
        have hnames :
            (branches.map fun branch => if applies branch then change branch else branch).map
            (fun branch => (branch.name, branch.plan))
              = branches.map fun branch => (branch.name, branch.plan) := by
          rw [List.map_map]
          refine List.map_congr_left fun branch _ => ?_
          rw [Function.comp_apply]
          split
          · rw [(hsame branch).1, (hsame branch).2.1]
          · rfl
        rw [hnames]
        exact sound.namesDiffer
      bases := fun branch hmem => by
        obtain ⟨old, hold, -, hplan, hbase, -, -⟩ := hmap branch hmem
        rw [hplan, hbase]
        exact sound.bases old hold
      heads := fun branch hmem => by
        obtain ⟨old, hold, -, hplan, -, -, hhead⟩ := hmap branch hmem
        rw [hplan]
        exact hhead
      named := fun branch hmem => by
        obtain ⟨old, hold, hname, hplan, -, -, -⟩ := hmap branch hmem
        rw [hname, hplan]
        exact sound.named old hold
      homes := fun version hmem => by
        obtain ⟨branch, hbranch, hname, hplan⟩ := sound.homes version hmem
        refine ⟨_, List.mem_map_of_mem hbranch, ?_⟩
        split
        · rw [(hsame branch).1, (hsame branch).2.1]
          exact ⟨hname, hplan⟩
        · exact ⟨hname, hplan⟩ }

/-- A new branch that starts and ends at versions of its plan, together with those of them
that are new. -/
theorem BranchesSound.add (sound : BranchesSound versions branches) {branch : Branch}
    (more : List Version) (storable : branch.Storable)
    (fresh : ∀ other ∈ branches, ¬ (other.name = branch.name ∧ other.plan = branch.plan))
    (base : Owns (versions ++ more) branch.plan branch.base)
    (head : Owns (versions ++ more) branch.plan branch.head)
    (named : require .branchName branch.name = .ok () ∧ requirePlan branch.plan = .ok ())
    (homes : ∀ version ∈ more, branch.name = version.branch ∧ branch.plan = version.plan) :
    BranchesSound (versions ++ more) (branches ++ [branch]) where
  storable := forall_mem_concat sound.storable storable
  namesDiffer := by
    refine nodup_map_concat sound.namesDiffer fun other hmem hsame => ?_
    exact fresh other hmem (Prod.mk.inj hsame)
  bases := forall_mem_concat (fun other hmem => (sound.bases other hmem).append) base
  heads := forall_mem_concat (fun other hmem => (sound.heads other hmem).append) head
  named := forall_mem_concat sound.named named
  homes version hmem := by
    rcases List.mem_append.mp hmem with hmem | hmem
    · obtain ⟨other, hother, hsame⟩ := sound.homes version hmem
      exact ⟨other, List.mem_append_left _ hother, hsame⟩
    · exact ⟨branch, List.mem_append_right _ (List.mem_singleton_self _), homes version hmem⟩

/-- A new version on a branch that is there. -/
theorem BranchesSound.addVersion (sound : BranchesSound versions branches) {version : Version}
    (home : ∃ branch ∈ branches, branch.name = version.branch ∧ branch.plan = version.plan) :
    BranchesSound (versions ++ [version]) branches where
  storable := sound.storable
  namesDiffer := sound.namesDiffer
  bases branch hmem := (sound.bases branch hmem).append
  heads branch hmem := (sound.heads branch hmem).append
  named := sound.named
  homes := forall_mem_concat sound.homes home

/-! ### Merge requests and conflicts -/

theorem divergencesIn_congr {blobs' : Blobs} {base? : Option String} {source target : String}
    (hbase : ∀ base ∈ base?, Blobs.content base blobs' = Blobs.content base blobs)
    (hsource : Blobs.content source blobs' = Blobs.content source blobs)
    (htarget : Blobs.content target blobs' = Blobs.content target blobs) :
    divergencesIn blobs' base? source target = divergencesIn blobs base? source target := by
  rw [divergencesIn, divergencesIn, Store.divergencesSince, Store.divergencesSince]
  simp only [Store.content_blobs]
  rw [hsource, htarget]
  cases base? with
  | none => rfl
  | some base => simp only [hbase base rfl]

/-- More versions and branches, with all the old contents still there. -/
theorem MergesSound.extend (sound : MergesSound versions branches blobs merges conflicts)
    {versions' : List Version} {branches' : List Branch} {blobs' : Blobs}
    (hversions : ∀ plan id, Owns versions plan id → Owns versions' plan id)
    (hbranches : ∀ name plan,
      (∃ branch ∈ branches, branch.name = name ∧ branch.plan = plan) →
        ∃ branch ∈ branches', branch.name = name ∧ branch.plan = plan)
    (hcontents : ∀ plan id, Owns versions plan id →
      Blobs.content id blobs' = Blobs.content id blobs) :
    MergesSound versions' branches' blobs' merges conflicts where
  storable := sound.storable
  conflictsStorable := sound.conflictsStorable
  idsDiffer := sound.idsDiffer
  conflictIdsDiffer := sound.conflictIdsDiffer
  sources request hmem := hversions _ _ (sound.sources request hmem)
  targets request hmem := hversions _ _ (sound.targets request hmem)
  bases request hmem base hbase := hversions _ _ (sound.bases request hmem base hbase)
  results request hmem result hresult :=
    hversions _ _ (sound.results request hmem result hresult)
  sides request hmem :=
    ⟨hbranches _ _ (sound.sides request hmem).1, hbranches _ _ (sound.sides request hmem).2⟩
  compared request hmem := by
    rw [← sound.compared request hmem]
    exact divergencesIn_congr
      (fun base hbase => hcontents _ _ (sound.bases request hmem base hbase))
      (hcontents _ _ (sound.sources request hmem)) (hcontents _ _ (sound.targets request hmem))
  owners := sound.owners

/-- Conflicts of other requests are not of a request. -/
theorem filter_merge_of_ne {added : List Conflict} {merge : String}
    (h : ∀ conflict ∈ added, conflict.merge ≠ merge) :
    added.filter (fun conflict => conflict.merge == merge) = [] := by
  refine List.filter_eq_nil_iff.mpr fun conflict hconflict hsame => ?_
  rw [beq_iff_eq] at hsame
  exact h conflict hconflict hsame

/-- The conflicts of a request are those that were added with it. -/
theorem filter_merge_append {added : List Conflict} {merge : String}
    (hothers : ∀ conflict ∈ conflicts, conflict.merge ≠ merge)
    (hown : ∀ conflict ∈ added, conflict.merge = merge) :
    (conflicts ++ added).filter (fun conflict => conflict.merge == merge) = added := by
  have hall : added.filter (fun conflict => conflict.merge == merge) = added := by
    refine List.filter_eq_self.mpr fun conflict hconflict => ?_
    rw [hown conflict hconflict, beq_self_eq_true]
  rw [List.filter_append, filter_merge_of_ne hothers, hall, List.nil_append]

/-- A new request between two branches, with the divergences of their heads. -/
theorem MergesSound.add (sound : MergesSound versions branches blobs merges conflicts)
    {request : MergeRequest} {added : List Conflict} (storable : request.Storable)
    (conflictsStorable : ∀ conflict ∈ added, conflict.Storable)
    (fresh : ∀ other ∈ merges, other.id ≠ request.id)
    (conflictsFresh : ∀ conflict ∈ added, ∀ other ∈ conflicts, other.id ≠ conflict.id)
    (conflictsDiffer : (added.map fun conflict => conflict.id).Nodup)
    (source : Owns versions request.plan request.source)
    (target : Owns versions request.plan request.target)
    (base : ∀ base ∈ request.base?, Owns versions request.plan base)
    (result : request.result? = none)
    (sides : (∃ branch ∈ branches, branch.name = request.sourceBranch ∧ branch.plan = request.plan)
      ∧ ∃ branch ∈ branches, branch.name = request.targetBranch ∧ branch.plan = request.plan)
    (compared : divergencesIn blobs request.base? request.source request.target
      = .ok (added.map Conflict.divergence))
    (owner : ∀ conflict ∈ added, conflict.merge = request.id) :
    MergesSound versions branches blobs (merges ++ [request]) (conflicts ++ added) := by
  refine
    { storable := forall_mem_concat sound.storable storable
      conflictsStorable := List.forall_mem_append.mpr ⟨sound.conflictsStorable, conflictsStorable⟩
      idsDiffer := nodup_map_concat sound.idsDiffer fresh
      conflictIdsDiffer := ?conflictIdsDiffer
      sources := forall_mem_concat sound.sources source
      targets := forall_mem_concat sound.targets target
      bases := forall_mem_concat sound.bases base
      results := forall_mem_concat sound.results (by simp [result])
      sides := forall_mem_concat sound.sides sides
      compared := forall_mem_concat (fun other hmem => ?older) ?newer
      owners := List.forall_mem_append.mpr
        ⟨fun conflict hmem => ?olderOwner, fun conflict hmem => ?newerOwner⟩ }
  case conflictIdsDiffer =>
    rw [List.map_append]
    refine List.nodup_append.mpr ⟨sound.conflictIdsDiffer, conflictsDiffer, ?_⟩
    intro id hid other hother
    obtain ⟨earlier, hearlier, rfl⟩ := List.mem_map.mp hid
    obtain ⟨conflict, hconflict, rfl⟩ := List.mem_map.mp hother
    exact conflictsFresh conflict hconflict earlier hearlier
  case older =>
    -- The new conflicts are not of an older request.
    rw [List.filter_append, filter_merge_of_ne fun conflict hconflict =>
      (owner conflict hconflict).trans_ne (fresh other hmem).symm, List.append_nil]
    exact sound.compared other hmem
  case newer =>
    -- The older conflicts are not of the new request.
    rw [filter_merge_append (fun conflict hconflict => ?_) owner]
    · exact compared
    · obtain ⟨other, hmem, hid⟩ := sound.owners conflict hconflict
      exact hid ▸ fresh other hmem
  case olderOwner =>
    obtain ⟨other, hother, hid⟩ := sound.owners conflict hmem
    exact ⟨other, List.mem_append_left _ hother, hid⟩
  case newerOwner =>
    have hnew : request ∈ merges ++ [request] :=
      List.mem_append_right _ (List.mem_singleton_self request)
    exact ⟨request, hnew, (owner conflict hmem).symm⟩

/-- A change of some requests that leaves what they were opened with. -/
theorem MergesSound.change (sound : MergesSound versions branches blobs merges conflicts)
    (applies : MergeRequest → Bool) (change : MergeRequest → MergeRequest)
    (hsame : ∀ request, (change request).id = request.id
      ∧ (change request).sourceBranch = request.sourceBranch
      ∧ (change request).targetBranch = request.targetBranch
      ∧ (change request).plan = request.plan ∧ (change request).source = request.source
      ∧ (change request).target = request.target ∧ (change request).base? = request.base?)
    (hstorable : ∀ request, request.Storable → (change request).Storable)
    (hresults : ∀ request ∈ merges, applies request = true →
      ∀ result ∈ (change request).result?, Owns versions request.plan result) :
    MergesSound versions branches blobs
      (merges.map fun request => if applies request then change request else request)
      conflicts := by
  have hid : ∀ request : MergeRequest,
      (if applies request then change request else request).id = request.id := by
    intro request
    split
    · exact (hsame request).1
    · rfl
  have hall : ∀ {holds : MergeRequest → Prop}, (∀ request ∈ merges, holds request) →
      (∀ request ∈ merges, applies request = true → holds request → holds (change request)) →
        ∀ request ∈ merges.map (fun request => if applies request then change request else request),
          holds request := by
    intro holds hold hchange request hmem
    obtain ⟨old, hmerges, rfl⟩ := List.mem_map.mp hmem
    split
    next happlies => exact hchange old hmerges happlies (hold old hmerges)
    next => exact hold old hmerges
  exact
    { storable := hall sound.storable fun request _ _ => hstorable request
      conflictsStorable := sound.conflictsStorable
      idsDiffer := by
        rw [List.map_map]
        exact (List.map_congr_left fun request _ => hid request) ▸ sound.idsDiffer
      conflictIdsDiffer := sound.conflictIdsDiffer
      sources := hall sound.sources fun request _ _ h => by
        obtain ⟨-, -, -, hplan, hsource, -, -⟩ := hsame request
        rwa [hplan, hsource]
      targets := hall sound.targets fun request _ _ h => by
        obtain ⟨-, -, -, hplan, -, htarget, -⟩ := hsame request
        rwa [hplan, htarget]
      bases := hall sound.bases fun request _ _ h => by
        obtain ⟨-, -, -, hplan, -, -, hbase⟩ := hsame request
        rwa [hplan, hbase]
      results := hall sound.results fun request hmem happlies _ => by
        obtain ⟨-, -, -, hplan, -, -, -⟩ := hsame request
        rw [hplan]
        exact hresults request hmem happlies
      sides := hall sound.sides fun request _ _ h => by
        obtain ⟨-, hsourceBranch, htargetBranch, hplan, -, -, -⟩ := hsame request
        rwa [hsourceBranch, htargetBranch, hplan]
      compared := hall sound.compared fun request _ _ h => by
        obtain ⟨hid, -, -, -, hsource, htarget, hbase⟩ := hsame request
        rwa [hid, hsource, htarget, hbase]
      owners := fun conflict hmem => by
        obtain ⟨request, hrequest, howner⟩ := sound.owners conflict hmem
        exact ⟨_, List.mem_map_of_mem hrequest, (hid request).trans howner⟩ }

/-- A change of some conflicts that leaves the divergences that they record. -/
theorem MergesSound.settle (sound : MergesSound versions branches blobs merges conflicts)
    (applies : Conflict → Bool) (change : Conflict → Conflict)
    (hsame : ∀ conflict, (change conflict).id = conflict.id
      ∧ (change conflict).merge = conflict.merge
      ∧ (change conflict).divergence = conflict.divergence)
    (hstorable : ∀ conflict, conflict.Storable → (change conflict).Storable) :
    MergesSound versions branches blobs merges
      (conflicts.map fun conflict => if applies conflict then change conflict else conflict) := by
  have hkept : ∀ conflict : Conflict,
      (if applies conflict then change conflict else conflict).id = conflict.id
        ∧ (if applies conflict then change conflict else conflict).merge = conflict.merge
        ∧ (if applies conflict then change conflict else conflict).divergence
          = conflict.divergence := by
    intro conflict
    split
    · exact hsame conflict
    · exact ⟨rfl, rfl, rfl⟩
  exact
    { storable := sound.storable
      conflictsStorable := fun conflict hmem => by
        obtain ⟨old, hold, rfl⟩ := List.mem_map.mp hmem
        split
        · exact hstorable old (sound.conflictsStorable old hold)
        · exact sound.conflictsStorable old hold
      idsDiffer := sound.idsDiffer
      conflictIdsDiffer := by
        rw [List.map_map]
        exact (List.map_congr_left fun conflict _ => (hkept conflict).1) ▸ sound.conflictIdsDiffer
      sources := sound.sources
      targets := sound.targets
      bases := sound.bases
      results := sound.results
      sides := sound.sides
      compared := fun request hmem => by
        have hfilter : (fun conflict : Conflict => conflict.merge == request.id)
            ∘ (fun conflict => if applies conflict then change conflict else conflict)
              = fun conflict => conflict.merge == request.id :=
          funext fun conflict => congrArg (· == request.id) (hkept conflict).2.1
        rw [List.filter_map, hfilter, List.map_map, sound.compared request hmem]
        exact congrArg Except.ok (List.map_congr_left fun conflict _ => (hkept conflict).2.2.symm)
      owners := fun conflict hmem => by
        obtain ⟨old, hold, rfl⟩ := List.mem_map.mp hmem
        rw [(hkept old).2.1]
        exact sound.owners old hold }

end PlanHistory
