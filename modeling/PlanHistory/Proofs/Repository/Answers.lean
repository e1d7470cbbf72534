/-
What a change is answered.

Whether a change is made and what it is answered is read off the records of one plan: its
branches, versions, requests and notes, and of a version that another plan has only that it is
there, whose it is and whether its row is read (`Tables.ownVersion`).

* **`Store.fst_createBranch`**, **`Store.fst_updateHead`** and others — the answers of single
  changes;
* **`Records.Alike.fst_commit_congr`** and others — stores that are alike on the plan of a change
  answer it the same.
-/
import PlanHistory.Proofs.Repository.Alike

namespace PlanHistory

/-! ### Versions of a plan -/

namespace Tables

/-- The plan of a version, which is told once its row is read. -/
def ownerOf (tables : Tables) (id : String) : Except Failure PlanId :=
  match tables.planOf? (.version id) with
  | some owner => if tables.Reads id then .ok owner else .error .illegible
  | none => .error (.notFound .version id)

/-- Refuse a version that is not there, that is not read, or that another plan has. -/
def ownVersion (tables : Tables) (role : VersionRole) (id : String) (plan : PlanId) :
    Except Failure Unit := do
  let owner ← tables.ownerOf id
  requireOwner role id owner plan

/-- Whether a version is there and of another plan. -/
def Foreign (tables : Tables) (plan : PlanId) (id : String) : Prop :=
  ∃ owner, tables.planOf? (.version id) = some owner ∧ owner ≠ plan

/-- Whether two stores tell the same of a version: whether it is there, whose it is, and whether
its row is read. -/
structure SeenAlike (tables tables' : Tables) (id : String) : Prop where
  plan : tables.planOf? (.version id) = tables'.planOf? (.version id)
  reads : tables.Reads id ↔ tables'.Reads id

variable {tables tables' : Tables} {id : String} {plan : PlanId}

theorem SeenAlike.ownerOf_eq (h : SeenAlike tables tables' id) :
    tables.ownerOf id = tables'.ownerOf id := by
  simp only [ownerOf, h.plan, h.reads]

/-- What comes after a version is refused is never asked. -/
theorem SeenAlike.ownVersion_bind_congr (seen : SeenAlike tables tables' id) {α : Type}
    {rest rest' : Except Failure α} (h : tables.Foreign plan id ∨ rest = rest')
    (role : VersionRole) :
    (tables.ownVersion role id plan >>= fun _ => rest)
      = tables'.ownVersion role id plan >>= fun _ => rest' := by
  rw [ownVersion, ownVersion, ← seen.ownerOf_eq]
  rcases h with ⟨owner, howner, hne⟩ | rfl
  · rw [ownerOf, howner]
    dsimp only
    -- A foreign version is refused, be its row read or not.
    have hrefused : requireOwner role id owner plan = .error _ := if_neg hne
    split
    · dsimp only [bind, Except.bind]
      rw [hrefused]
    · rfl
  · rfl

end Tables

namespace Records

variable {r : Records} {role : VersionRole} {id : String} {plan : PlanId}

/-- To look up a version for its plan. -/
theorem version_bind (storable : r.Storable) {α : Type} (id : String)
    (next : PlanId → Except Failure α) :
    (r.tables.version id >>= fun version => next version.plan)
      = r.tables.ownerOf id >>= next := by
  rw [Tables.ownerOf, planOf?_version]
  cases hversion : r.version? id with
  | none =>
    rw [version_tables storable, readVersion_of_none hversion]
    rfl
  | some version =>
    dsimp only [Option.map_some]
    by_cases hlegible : Legible version.metadata
    · have hread := readVersion_of_legible hversion hlegible
      rw [version_tables storable, hread,
        if_pos ((reads_tables storable id).mpr ⟨version, hversion, hlegible⟩)]
      rfl
    · rw [version_tables storable, readVersion_of_illegible hversion hlegible, if_neg]
      · rfl
      · rw [reads_tables storable, hversion]
        rintro ⟨_, ⟨⟩, hread⟩
        exact hlegible hread

/-- The checks of a version before anything else. -/
theorem version_bind_requireOwner (storable : r.Storable) {α : Type} (role : VersionRole)
    (id : String) (plan : PlanId) (rest : Except Failure α) :
    (r.tables.version id >>= fun version =>
        requireOwner role id version.plan plan >>= fun _ => rest)
      = r.tables.ownVersion role id plan >>= fun _ => rest := by
  rw [version_bind storable id fun owner => requireOwner role id owner plan >>= fun _ => rest,
    Tables.ownVersion, bind_assoc]

/-- A version that is not refused is one of the plan, and its row is read. -/
theorem read_of_ownVersion (storable : r.Storable)
    (h : r.tables.ownVersion role id plan = .ok ()) :
    ∃ version, r.version? id = some version ∧ version.plan = plan
      ∧ Legible version.metadata := by
  rw [Tables.ownVersion, ← version_bind storable, version_tables storable] at h
  obtain ⟨version, hread, howner⟩ := bind_eq_ok_iff.mp h
  obtain ⟨hversion, hlegible⟩ := readVersion_eq_ok_iff.mp hread
  exact ⟨version, hversion, requireOwner_eq_ok_iff.mp howner, hlegible⟩

theorem checkParent_eq (storable : r.Storable) (request : NewVersion) :
    r.checkParent request
      = match request.parent? with
        | some parent => r.tables.ownVersion .parent parent request.plan
        | none => .ok () := by
  rw [checkParent]
  cases request.parent? with
  | none => rfl
  | some parent =>
    dsimp only
    rw [Tables.ownVersion, ← version_bind storable, version_tables storable]

end Records

/-! ### Single changes -/

namespace Store

variable {s : Store} {r : Records} {stamp : Stamp}

theorem fst_transact {α : Type} (change : Tables → Except Failure (α × Tables)) (s : Store) :
    (s.transact change).1 = (change s.tables).map Prod.fst := by
  rw [transact]
  cases change s.tables <;> rfl

theorem fst_createBranch (sound : s.Sound r) (request : NewBranch) :
    (s.createBranch stamp request).1 = (do
      require .branchName request.name
      requirePlan request.plan
      r.tables.ownVersion .base request.base request.plan
      match r.branch? request.name request.plan with
      | some _ => throw (Failure.branchExists request.name request.plan)
      | none => return request.created stamp.time) := by
  rw [createBranch, fst_transact]
  cases require .branchName request.name with
  | error failure => rfl
  | ok =>
    cases requirePlan request.plan with
    | error failure => rfl
    | ok =>
      show (s.tables.createBranch request stamp.time).map Prod.fst = _
      rw [sound.tables, Tables.createBranch, Records.version_bind_requireOwner sound.storable,
        Records.branch?_tables sound.storable]
      cases hbase : r.tables.ownVersion .base request.base request.plan with
      | error failure => rfl
      | ok =>
        obtain ⟨version, hversion, -⟩ := Records.read_of_ownVersion sound.storable hbase
        have hthere : (r.version? request.base).isSome := by rw [hversion]; rfl
        cases hbranch : r.branch? request.name request.plan with
        | some branch => rfl
        | none =>
          have hinsert : r.tables.insertBranch (request.created stamp.time)
              = .ok (r.addBranch (request.created stamp.time)).tables :=
            Records.insertBranch_tables hbranch hthere hthere
          show (((r.tables.insertBranch (request.created stamp.time)).mapError Failure.ofTable)
            >>= fun tables => pure (request.created stamp.time, tables)).map Prod.fst = _
          rw [hinsert]
          rfl

theorem fst_updateHead (sound : s.Sound r) (name : String) (plan : PlanId)
    (expected head : String) :
    (s.updateHead stamp name plan expected head).1 = (do
      match r.branch? name plan with
      | none => throw (Failure.noBranch name plan)
      | some branch =>
        r.tables.ownVersion .newHead head plan
        if branch.head = expected then return ()
        else throw (Failure.headMoved name expected branch.head)) := by
  rw [updateHead, fst_transact, sound.tables, Tables.updateHead,
    Records.branch_tables sound.storable]
  cases hbranch : r.branch? name plan with
  | none => rfl
  | some branch =>
    dsimp only [bind, Except.bind]
    cases hhead : r.tables.ownVersion .newHead head plan with
    | error failure =>
      have hrefused : r.tables.advanceHead name plan expected head branch.status stamp.time
          = .error failure := by
        rw [Tables.advanceHead, Records.version_bind_requireOwner sound.storable, hhead]
        rfl
      rw [hrefused]
      rfl
    | ok =>
      obtain ⟨version, hversion, hplan, hlegible⟩ :=
        Records.read_of_ownVersion sound.storable hhead
      rw [Records.advanceHead_tables sound.storable sound.branches.namesDiffer hbranch expected
        hversion hplan, if_pos hlegible]
      by_cases hsame : branch.head = expected
      · rw [if_pos hsame, if_pos hsame]
        rfl
      · rw [if_neg hsame, if_neg hsame]
        rfl

theorem fst_openMerge (sound : s.Sound r) (fresh : stamp.Fresh s) (policy : Policy)
    (request : NewMerge) :
    (s.openMerge stamp policy request).1 = (do
      request.check
      let (source, target, base?) ← r.tables.mergeHeads policy.detection request
      let found ← divergencesIn s.blobs base? source target
      return ⟨stamp.id, .opened found, stamp.conflicts found⟩) := by
  cases hcheck : request.check with
  | error failure =>
    rw [openMerge, fst_transact, hcheck]
    rfl
  | ok =>
    cases hheads : r.tables.mergeHeads policy.detection request with
    | error failure =>
      rw [openMerge, fst_transact, hcheck, sound.tables]
      dsimp only [bind, Except.bind]
      rw [hheads]
      rfl
    | ok heads =>
      obtain ⟨source, target, base?⟩ := heads
      dsimp only [bind, Except.bind]
      cases hfound : divergencesIn s.blobs base? source target with
      | error failure =>
        have hfound : s.divergencesSince base? source target = .error failure := hfound
        rw [openMerge, fst_transact, hcheck, sound.tables]
        dsimp only [bind, Except.bind]
        rw [hheads]
        dsimp only
        rw [hfound]
        rfl
      | ok found =>
        rw [openMerge_of_found sound fresh hcheck hheads hfound]
        rfl

theorem fst_addNote (sound : s.Sound r) (free : s.tables.hasNote stamp.id = false)
    (request : NewNote) :
    (s.addNote stamp request).1 = (do
      require .noteKind request.kind
      r.tables.ownVersion .noted request.version request.plan
      return stamp.id) := by
  rw [addNote, fst_transact]
  cases require .noteKind request.kind with
  | error failure => rfl
  | ok =>
    show (s.tables.addNote request stamp.id stamp.time >>= fun tables =>
      pure (stamp.id, tables)).map Prod.fst = _
    rw [sound.tables] at free ⊢
    have hinsert : r.tables.insertNote (request.attached stamp.id stamp.time) = .ok _ :=
      if_neg (Bool.eq_false_iff.mp free)
    rw [Tables.addNote, Records.version_bind_requireOwner sound.storable]
    cases r.tables.ownVersion .noted request.version request.plan with
    | error failure => rfl
    | ok =>
      show ((r.tables.insertNote (request.attached stamp.id stamp.time)).mapError Failure.ofTable
        >>= fun tables => pure (stamp.id, tables)).map Prod.fst = _
      rw [hinsert]
      rfl

theorem fst_addComment
    (free : s.tables.comments.any (fun row => row.id == stamp.id) = false) (request : NewComment) :
    (s.addComment stamp request).1 = (do
      require .comment request.content
      s.tables.requireParent request.parent request.parentKind
      return stamp.id) := by
  rw [addComment, fst_transact]
  cases require .comment request.content with
  | error failure => rfl
  | ok =>
    show (s.tables.addComment request stamp.id stamp.time >>= fun tables =>
      pure (stamp.id, tables)).map Prod.fst = _
    rw [Tables.addComment]
    cases s.tables.requireParent request.parent request.parentKind with
    | error failure => rfl
    | ok =>
      have hinsert : s.tables.insertComment (request.attached stamp.id stamp.time) = .ok _ :=
        if_neg (Bool.eq_false_iff.mp free)
      show ((s.tables.insertComment (request.attached stamp.id stamp.time)).mapError
        Failure.ofTable >>= fun tables => pure (stamp.id, tables)).map Prod.fst = _
      rw [hinsert]
      rfl

theorem fst_addNote_congr {t : Store} {r' : Records} (sound : s.Sound r) (sound' : t.Sound r')
    (free : s.tables.hasNote stamp.id = false) (free' : t.tables.hasNote stamp.id = false)
    {request : NewNote} (version : r.tables.SeenAlike r'.tables request.version) :
    (s.addNote stamp request).1 = (t.addNote stamp request).1 := by
  rw [fst_addNote sound free, fst_addNote sound' free',
    version.ownVersion_bind_congr (Or.inr rfl) _]

/-- What a comment is to be on is only asked to be there and, of a version, to be read. -/
theorem requireParent_congr {t : Store} {r' : Records} (sound : s.Sound r) (sound' : t.Sound r')
    {id : String} {kind : ParentKind}
    (plan : r.tables.planOf? (kind.named id) = r'.tables.planOf? (kind.named id))
    (reads : kind = .version → (r.tables.Reads id ↔ r'.tables.Reads id)) :
    s.tables.requireParent id kind = t.tables.requireParent id kind := by
  cases kind with
  | version =>
    have hsame : r.tables.ownerOf id = r'.tables.ownerOf id :=
      Tables.SeenAlike.ownerOf_eq ⟨plan, reads rfl⟩
    have howner {s : Store} {r : Records} (sound : s.Sound r) :
        s.tables.requireParent id .version = r.tables.ownerOf id >>= fun _ => .ok () := by
      rw [sound.tables, ← Records.version_bind sound.storable]
      rfl
    rw [howner sound, howner sound', hsame]
  | note =>
    have hthere {s : Store} {r : Records} (sound : s.Sound r) :
        s.tables.hasNote id = (r.tables.planOf? (.note id)).isSome := by
      rw [sound.tables]
      show _ = ((r.notes.find? fun row => row.id == id).map fun row => row.plan).isSome
      rw [Option.isSome_map, List.isSome_find?]
      rfl
    have hplan : r.tables.planOf? (.note id) = r'.tables.planOf? (.note id) := plan
    rw [Tables.requireParent, Tables.requireParent, hthere sound, hthere sound', hplan]

/-- A plan goes by the head of the source branch, or by the merged content. -/
theorem fst_planMerge_congr {t : Store} {r' : Records} (sound : s.Sound r) (sound' : t.Sound r')
    (fresh : stamp.Fresh s) (fresh' : stamp.Fresh t) (details : MergeDetails)
    (hbranch : s.tables.branch details.request.sourceBranch details.request.plan
      = t.tables.branch details.request.sourceBranch details.request.plan)
    (hmerged : s.mergedContent details = t.mergedContent details) (actor : String) :
    (s.planMerge stamp details actor).map Prod.fst
      = (t.planMerge stamp details actor).map Prod.fst := by
  rw [planMerge, planMerge, hbranch, hmerged]
  dsimp only
  by_cases hforward : details.request.strategy = label Strategy.fastForward
  · rw [if_pos hforward, if_pos hforward]
    cases t.tables.branch details.request.sourceBranch details.request.plan <;> rfl
  · rw [if_neg hforward, if_neg hforward]
    cases t.mergedContent details with
    | error failure => rfl
    | ok contents =>
      obtain ⟨merged, source, target⟩ := contents
      dsimp only [bind, Except.bind]
      rw [prepare_eq sound fresh, prepare_eq sound' fresh']
      by_cases hsource : Document.contentHash merged = Document.contentHash source
      · rw [if_pos hsource, if_pos hsource]
        rfl
      · rw [if_neg hsource, if_neg hsource]
        by_cases htarget : Document.contentHash merged = Document.contentHash target
        · rw [if_pos htarget, if_pos htarget]
          rfl
        · rw [if_neg htarget, if_neg htarget]
          cases Document.validate merged <;> rfl

end Store

/-- The version whose row a plan reads is of the plan of the request. -/
theorem Planned.owns_looksAt {s : Store} {r : Records} {stamp : Stamp} (sound : s.Sound r)
    {request : MergeRequest} {actor : String} {plan : MergePlan} {blobs : Blobs}
    (planned : Planned s r stamp request actor plan blobs) (hmem : request ∈ r.merges)
    {id : String} (hlooks : id ∈ plan.looksAt? request) : Owns r.versions request.plan id := by
  cases planned with
  | moveHead howns =>
    obtain rfl := Option.some_inj.mp hlooks
    exact howns
  | keepHead => cases hlooks
  | commit =>
    obtain rfl := Option.some_inj.mp hlooks
    exact sound.merges.targets request hmem

/-! ### Contents of a plan -/

section Contents

variable {keep : PlanId → Bool} {s t : Store} {r : Records} {id : String} {plan : PlanId}
  (contents : ∀ id, r.tables.hasOf keep (.version id) = true →
    Blobs.read? id s.blobs = Blobs.read? id t.blobs) (sound : s.Sound r)

include contents sound

theorem Records.content_of_owns (hkeep : keep plan = true) (h : Owns r.versions plan id) :
    s.content id = t.content id := by
  have hhas : r.tables.hasOf keep (.version id) = true := by
    rw [Tables.hasOf, sound.planOf?_of_owns h]
    exact hkeep
  rw [Store.content, Store.content, contents id hhas]

theorem Records.mergedContent_congr {request : MergeRequest} (hmem : request ∈ r.merges)
    (hkeep : keep request.plan = true) (conflicts : List Conflict) :
    s.mergedContent ⟨r.summary request, conflicts⟩
      = t.mergedContent ⟨r.summary request, conflicts⟩ := by
  have hsame {id : String} (h : Owns r.versions request.plan id) : s.content id = t.content id :=
    content_of_owns contents sound hkeep h
  rw [Store.mergedContent, Store.mergedContent]
  dsimp only [MergeDetails.request, summary]
  rw [hsame (sound.merges.sources request hmem), hsame (sound.merges.targets request hmem)]
  cases hbase : request.base? with
  | none => rfl
  | some base =>
    dsimp only
    rw [hsame (sound.merges.bases request hmem base hbase)]

end Contents

/-! ### Stores that are alike -/

namespace Records.Alike

variable {keep : PlanId → Bool} {s t : Store} {r r' : Records} {stamp : Stamp} {id : String}
  (alike : r.Alike keep r') (sound : s.Sound r) (sound' : t.Sound r')

include alike

/-- A parent that is not of the plan is refused before its branch is looked at. -/
theorem parentFor_congr (storable : r.Storable) (storable' : r'.Storable) {request : NewVersion}
    (parents : ∀ parent ∈ request.parent?, r.tables.SeenAlike r'.tables parent)
    (h : keep request.plan = true
      ∨ ∃ parent ∈ request.parent?, r.tables.Foreign request.plan parent) :
    r.parentFor request = r'.parentFor request := by
  have hbranch (hkeep : keep request.plan = true) :
      r.branch? request.branch request.plan = r'.branch? request.branch request.plan :=
    alike.branch?_eq request.branch hkeep
  rw [parentFor, parentFor, checkParent_eq storable, checkParent_eq storable']
  cases hparent : request.parent? with
  | none =>
    rcases h with hkeep | ⟨parent, hmem, -⟩
    · rw [checkPlace, checkPlace, hbranch hkeep]
    · rw [hparent] at hmem
      simp at hmem
  | some parent =>
    rw [hparent] at parents h
    refine (parents parent rfl).ownVersion_bind_congr ?_ _
    rcases h with hkeep | ⟨_, ⟨⟩, hforeign⟩
    · exact Or.inr (by rw [checkPlace, checkPlace, hbranch hkeep])
    · exact Or.inl hforeign

include sound sound'

theorem fst_commit_congr (fresh : stamp.Fresh s) (fresh' : stamp.Fresh t) (content : Json)
    {request : NewVersion} (metadata : (Json.object request.metadata).Ordered)
    (parents : ∀ parent ∈ request.parent?, r.tables.SeenAlike r'.tables parent)
    (h : keep request.plan = true
      ∨ ∃ parent ∈ request.parent?, r.tables.Foreign request.plan parent) :
    (s.commit stamp content request).1 = (t.commit stamp content request).1 := by
  rw [Store.commit_eq sound fresh content metadata, Store.commit_eq sound' fresh' content metadata,
    alike.parentFor_congr sound.storable sound'.storable parents h]
  cases request.check content with
  | error failure => rfl
  | ok => cases r'.parentFor request <;> rfl

theorem fst_createBranch_congr {request : NewBranch}
    (base : r.tables.SeenAlike r'.tables request.base)
    (h : keep request.plan = true ∨ r.tables.Foreign request.plan request.base) :
    (s.createBranch stamp request).1 = (t.createBranch stamp request).1 := by
  rw [Store.fst_createBranch sound, Store.fst_createBranch sound',
    base.ownVersion_bind_congr (h.symm.imp_right fun hkeep => ?_) _]
  rw [alike.branch?_eq request.name hkeep]

theorem fst_updateHead_congr (name : String) {plan : PlanId} (expected : String) {head : String}
    (there : (r.branch? name plan).isSome = (r'.branch? name plan).isSome)
    (seen : r.tables.SeenAlike r'.tables head)
    (h : keep plan = true ∨ r.tables.Foreign plan head) :
    (s.updateHead stamp name plan expected head).1
      = (t.updateHead stamp name plan expected head).1 := by
  rw [Store.fst_updateHead sound, Store.fst_updateHead sound']
  cases hbranch : r.branch? name plan with
  | none => rw [(Option.isSome_eq_isSome.mp there).mp hbranch]
  | some branch =>
    rw [hbranch] at there
    obtain ⟨branch', hbranch'⟩ := Option.isSome_iff_exists.mp there.symm
    rw [hbranch']
    refine seen.ownVersion_bind_congr (h.symm.imp_right fun hkeep => ?_) _
    have hsame := alike.branch?_eq name hkeep
    rw [hbranch, hbranch'] at hsame
    rw [Option.some_inj.mp hsame]

/-- What a conflict is about is of the plan of its request. -/
theorem fst_resolve_congr (h : r.Inside keep (.conflict id)) (h' : r'.Inside keep (.conflict id))
    (resolution actor : String) :
    (s.resolve stamp id resolution actor).1 = (t.resolve stamp id resolution actor).1 := by
  have hmerge {r : Records} (h : r.Inside keep (.conflict id)) {conflict : Conflict}
      (hconflict : r.conflict? id = some conflict) : r.Inside keep (.merge conflict.merge) := by
    rwa [Inside, planOf?_conflict, hconflict] at h
  have hsame := alike.conflict?_eq sound sound' h h'
  rw [Store.resolve_eq sound, Store.resolve_eq sound', hsame]
  cases hconflict : r'.conflict? id with
  | none =>
    dsimp only
    split <;> rfl
  | some conflict =>
    rw [hconflict] at hsame
    dsimp only
    rw [alike.merge?_eq (hmerge h hsame) (hmerge h' hconflict)]
    split
    · rfl
    · cases r'.merge? conflict.merge with
      | none => rfl
      | some request =>
        dsimp only
        split
        · rfl
        · cases conflict.resolution? with
          | none => rfl
          | some settled =>
            dsimp only
            split <;> rfl

variable (contents : ∀ id, r.tables.hasOf keep (.version id) = true →
    Blobs.read? id s.blobs = Blobs.read? id t.blobs)

include contents

theorem fst_restore_congr (fresh : stamp.Fresh s) (fresh' : stamp.Fresh t)
    (h : r.Inside keep (.version id)) (h' : r'.Inside keep (.version id)) (branch author : String)
    (message? : Option String) :
    (s.restore stamp id branch author message?).1
      = (t.restore stamp id branch author message?).1 := by
  rw [Store.restore, Store.restore, alike.version_eq sound sound' h h',
    alike.store_content_eq contents sound sound' h h']
  cases hversion : t.tables.version id with
  | error failure => rfl
  | ok source =>
    cases t.content id with
    | error failure => rfl
    | ok document =>
      have hsource := sound'.version?_eq hversion
      refine alike.fst_commit_congr sound sound' fresh fresh' document
        (Store.within_metadata_restoring source branch author message?).ordered
        (by simp [Store.restoring]) (Or.inl (h'.keep_version hsource))

omit contents in
theorem mergeHeads_congr (detection : Detection) {request : NewMerge}
    (hkeep : keep request.plan = true) :
    r.tables.mergeHeads detection request = r'.tables.mergeHeads detection request := by
  have hinside {s : Store} {r : Records} (sound : s.Sound r) {name : String} {branch : Branch}
      (hbranch : r.branch? name request.plan = some branch) :
      r.Inside keep (.version branch.head) :=
    inside_of_planOf? (sound.planOf?_of_owns (sound.branches.owns_head hbranch)) hkeep
  have hsource := alike.branch?_eq request.sourceBranch hkeep
  have htarget := alike.branch?_eq request.targetBranch hkeep
  rw [Tables.mergeHeads, Tables.mergeHeads, branch_tables sound.storable,
    branch_tables sound.storable, branch_tables sound'.storable, branch_tables sound'.storable,
    hsource, htarget]
  cases hs : r'.branch? request.sourceBranch request.plan with
  | none => rfl
  | some source =>
    cases ht : r'.branch? request.targetBranch request.plan with
    | none => rfl
    | some target =>
      rw [hs] at hsource
      rw [ht] at htarget
      have hbase := alike.mergeBase_eq sound sound' (hinside sound hsource) (hinside sound' hs)
        (hinside sound htarget) (hinside sound' ht)
      rw [sound.tables, sound'.tables] at hbase
      dsimp only [bind, Except.bind]
      rw [hbase]

theorem fst_openMerge_congr (fresh : stamp.Fresh s) (fresh' : stamp.Fresh t) (policy : Policy)
    {request : NewMerge} (hkeep : keep request.plan = true) :
    (s.openMerge stamp policy request).1 = (t.openMerge stamp policy request).1 := by
  rw [Store.fst_openMerge sound fresh, Store.fst_openMerge sound' fresh',
    ← alike.mergeHeads_congr sound sound' policy.detection hkeep]
  cases hheads : r.tables.mergeHeads policy.detection request with
  | error failure => rfl
  | ok heads =>
    obtain ⟨⟨source, hsource, hsourceHead⟩, ⟨target, htarget, htargetHead⟩, hbase⟩ :=
      mergeHeads_tables sound.storable sound.versions sound.branches _ hheads
    have hsame {id : String} (h : Owns r.versions request.plan id) :
        Blobs.content id s.blobs = Blobs.content id t.blobs := by
      rw [← Store.content_blobs, ← Store.content_blobs]
      exact content_of_owns contents sound hkeep h
    have hfound := divergencesIn_congr (fun base hmem => hsame (hbase base hmem))
      (hsame (hsourceHead ▸ sound.branches.owns_head hsource))
      (hsame (htargetHead ▸ sound.branches.owns_head htarget))
    dsimp only [bind, Except.bind]
    rw [hfound]

omit contents in
/-- The version whose row a plan reads is of the plan of its request. -/
theorem reads_congr {request : MergeRequest} {actor : String} {plan : MergePlan}
    {blobs blobs' : Blobs} (hkeep : keep request.plan = true) (hmem : request ∈ r.merges)
    (hmem' : request ∈ r'.merges) (planned : Planned s r stamp request actor plan blobs)
    (planned' : Planned t r' stamp request actor plan blobs') :
    plan.Reads s.tables request ↔ plan.Reads t.tables request := by
  refine forall₂_congr fun id hlooks => alike.reads_iff sound sound' ?_ ?_
  · exact inside_of_planOf? (sound.planOf?_of_owns (planned.owns_looksAt sound hmem hlooks)) hkeep
  · exact inside_of_planOf? (sound'.planOf?_of_owns (planned'.owns_looksAt sound' hmem' hlooks))
      hkeep

theorem fst_execute_congr (fresh : stamp.Fresh s) (fresh' : stamp.Fresh t)
    (h : r.Inside keep (.merge id)) (h' : r'.Inside keep (.merge id)) (actor : String) :
    (s.execute stamp id actor).1 = (t.execute stamp id actor).1 := by
  have hsame := alike.merge?_eq h h'
  have hconflicts := alike.conflictsOf_eq sound sound' h h'
  cases hrequest : r.merge? id with
  | none =>
    rw [hrequest] at hsame
    rw [Store.execute, Store.execute, sound.tables, sound'.tables,
      mergeDetails_tables sound.storable, mergeDetails_tables sound'.storable, hrequest, ← hsame]
  | some request =>
    have hkeep := h.keep_merge hrequest
    have hrequest' := hsame.symm.trans hrequest
    obtain ⟨target, plan, blobs, htarget, planned, hplan, hanswer⟩ :=
      Store.execute_eq sound fresh hrequest actor
    obtain ⟨target', plan', blobs', htarget', planned', hplan', hanswer'⟩ :=
      Store.execute_eq sound' fresh' hrequest' actor
    -- The target branch is one, and so is the plan.
    obtain rfl : target = target' := by
      rw [alike.branch?_eq request.targetBranch hkeep, htarget'] at htarget
      exact (Option.some_inj.mp htarget).symm
    obtain rfl : plan = plan' := by
      obtain rfl := id_of_merge? hrequest
      have hbranch : s.tables.branch request.sourceBranch request.plan
          = t.tables.branch request.sourceBranch request.plan := by
        rw [sound.tables, sound'.tables, branch_tables sound.storable,
          branch_tables sound'.storable, alike.branch?_eq request.sourceBranch hkeep]
      have hmerged := mergedContent_congr contents sound (List.mem_of_find?_eq_some hrequest) hkeep
        (r.conflictsOf request.id)
      have hplans := Store.fst_planMerge_congr sound sound' fresh fresh'
        ⟨r.summary request, r.conflictsOf request.id⟩ hbranch hmerged actor
      rw [hplan, hconflicts, alike.summary_eq sound sound' h h', hplan'] at hplans
      exact Except.ok.inj hplans
    have hreads := alike.reads_congr sound sound' hkeep (List.mem_of_find?_eq_some hrequest)
      (List.mem_of_find?_eq_some hrequest') planned planned'
    rw [hanswer, hanswer', countUnresolved_tables, countUnresolved_tables, hconflicts]
    simp only [hreads]
    split
    · rfl
    · split
      · rfl
      · split
        · split <;> rfl
        · rfl

end Records.Alike

end PlanHistory
