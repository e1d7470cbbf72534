/-
What one operation does.

An operation of a sound store is refused, or only asks, or is one of a few changes of the
records (`Store.Step`, with one constructor for each way an operation may go).

* **`Store.Sound.step`** — every operation is such a step, and leaves a sound store.

An invariant of all repositories that operations lead to is proved along the constructors
of `Store.Step`, and never looks into an operation again.
-/
import PlanHistory.Proofs.Conflict.ThreeWay
import PlanHistory.Proofs.Repository.Execution

namespace PlanHistory

namespace Operation

/-- Whether the members of all JSON that a request brings are in the order of their keys, as a
client holds them.  How deep it nests is not asked. -/
def Ordered : Operation → Prop
  | .commit document request => document.Ordered ∧ (Json.object request.metadata).Ordered
  | _ => True

/-- Whether a request only asks, and never changes the store. -/
def isQuestion : Operation → Bool
  | .commit .. | .restore .. => false
  | .createBranch .. | .updateHead .. => false
  | .openMerge .. | .resolve .. | .execute .. => false
  | .addNote .. | .addComment .. => false
  | _ => true

end Operation

/-! ### Steps -/

namespace Store

/-- What an operation may be answered, and the records and the blobs that it may leave. -/
inductive Step (s : Store) (r : Records) (policy : Policy) (stamp : Stamp) :
    Operation → Except Failure Answer → Records → Blobs → Prop where
  /-- What fails changes nothing, as a rule. -/
  | failed {operation : Operation} (failure : Failure) :
      Step s r policy stamp operation (.error failure) r s.blobs
  | asked {operation : Operation} (answer : Answer) : operation.isQuestion = true →
      Step s r policy stamp operation (.ok answer) r s.blobs
  /-- A version is put on top of its parent, and heads its branch. -/
  | committed {content : Json} {request : NewVersion} {parent? : Option String}
      {version : Version} : request.check content = .ok () →
      r.parentFor request = .ok parent? →
      version = r.newVersion request (stamp.prepared content) parent? →
      Step s r policy stamp (.commit content request)
        (.ok (.receipt ⟨version.id, version.number, version.contentHash⟩))
        (r.record version stamp.time)
        (Keyed.insert stamp.id (Document.contentBytes content) s.blobs)
  /-- Bringing back a version commits its content. -/
  | restored {id branch author : String} {message? : Option String} {source : Version}
      {content : Json} {answer : Except Failure Answer} {r' : Records} {blobs : Blobs} :
      r.version? id = some source → Blobs.content id s.blobs = .ok content →
      Step s r policy stamp (.commit content (restoring source branch author message?)) answer r'
        blobs →
      Step s r policy stamp (.restore id branch author message?) answer r' blobs
  | branched {request : NewBranch} : r.branch? request.name request.plan = none →
      Owns r.versions request.plan request.base →
      Step s r policy stamp (.createBranch request)
        (.ok (.branch (request.created stamp.time))) (r.addBranch (request.created stamp.time))
        s.blobs
  | moved {name head : String} {plan : PlanId} {branch : Branch} :
      r.branch? name plan = some branch → Owns r.versions plan head →
      Step s r policy stamp (.updateHead name plan branch.head head) (.ok .done)
        (r.setHead name plan head branch.status stamp.time) s.blobs
  /-- A request records the divergences of the heads of its branches. -/
  | opened {request : NewMerge} {source target : String} {base? : Option String}
      {found : List Divergence} : request.check = .ok () →
      r.tables.mergeHeads policy.detection request = .ok (source, target, base?) →
      divergencesIn s.blobs base? source target = .ok found →
      Step s r policy stamp (.openMerge request)
        (.ok (.opened ⟨stamp.id, .opened found, stamp.conflicts found⟩))
        (r.addMerge (request.opened stamp policy.strategy (.opened found) source target base?)
          (stamp.conflicts found)) s.blobs
  /-- A conflict is settled before its request is over. -/
  | settled {id resolution actor : String} {conflict : Conflict} {request : MergeRequest} :
      Text.isBlank resolution = false → r.conflict? id = some conflict →
      r.merge? conflict.merge = some request → request.status.isTerminal = false →
      conflict.resolution? = none →
      Step s r policy stamp (.resolve id resolution actor) (.ok (.id id))
        (r.settle id resolution actor stamp.time) s.blobs
  /-- The label that settled a conflict is given again. -/
  | repeated {id resolution actor : String} {conflict : Conflict} :
      r.conflict? id = some conflict → conflict.resolution? = some resolution →
      Step s r policy stamp (.resolve id resolution actor) (.ok (.id id)) r s.blobs
  /-- A request is executed on the heads that it recorded, once its conflicts are settled and
  the row that its plan reads is read. -/
  | executed {request : MergeRequest} {target : Branch} {actor : String} {plan : MergePlan}
      {blobs : Blobs} : request ∈ r.merges → request.status.isTerminal = false →
      r.tables.countUnresolved request.id = 0 →
      r.branch? request.targetBranch request.plan = some target → target.head = request.target →
      s.planMerge stamp ⟨r.summary request, r.conflictsOf request.id⟩ actor = .ok (plan, blobs) →
      Planned s r stamp request actor plan blobs → plan.Reads s.tables request →
      Step s r policy stamp (.execute request.id actor)
        (.ok (.outcome ⟨request.id, plan.head request.target, plan.creates⟩))
        (r.executed request target.status actor stamp.time plan) blobs
  /-- A request is marked failed if the row that its plan reads is not read. -/
  | abandoned {request : MergeRequest} {actor : String} {plan : MergePlan} {blobs : Blobs} :
      request ∈ r.merges → request.status.isTerminal = false →
      r.tables.countUnresolved request.id = 0 →
      s.planMerge stamp ⟨r.summary request, r.conflictsOf request.id⟩ actor = .ok (plan, blobs) →
      Planned s r stamp request actor plan blobs → ¬ plan.Reads s.tables request →
      Step s r policy stamp (.execute request.id actor) (.error .illegible) (r.fail request.id)
        s.blobs
  | noted {request : NewNote} : Owns r.versions request.plan request.version →
      Step s r policy stamp (.addNote request) (.ok (.id stamp.id))
        { r with notes := r.notes ++ [NoteRow.store (request.attached stamp.id stamp.time)] }
        s.blobs
  | commented {request : NewComment} :
      r.tables.requireParent request.parent request.parentKind = .ok () →
      Step s r policy stamp (.addComment request) (.ok (.id stamp.id))
        { r with
          comments := r.comments ++ [CommentRow.store (request.attached stamp.id stamp.time)] }
        s.blobs

/-- A step puts versions at the end. -/
theorem Step.versions_longer {s : Store} {r r' : Records} {policy : Policy} {stamp : Stamp}
    {operation : Operation} {answer : Except Failure Answer} {blobs : Blobs}
    (step : s.Step r policy stamp operation answer r' blobs) :
    r.versions <+: r'.versions := by
  induction step with
  | committed =>
    rw [Records.versions_record]
    exact List.prefix_append _ _
  | restored _ _ _ ih => exact ih
  | @executed request target actor plan blobs =>
    show r.versions <+: (r.carriedOut request target.status stamp.time plan).versions
    rw [versions_carriedOut]
    split
    · exact List.prefix_append _ _
    · exact List.prefix_refl _
  -- The others leave the versions.
  | _ => exact List.prefix_refl _

/-- Whether the answer to an operation and the store after it are those of a step to a sound
store. -/
def Steps (s : Store) (r : Records) (policy : Policy) (stamp : Stamp) (operation : Operation)
    (result : Except Failure Answer × Store) : Prop :=
  ∃ r', result.2.Sound r' ∧ s.Step r policy stamp operation result.1 r' result.2.blobs

variable {s : Store} {r : Records} {policy : Policy} {stamp : Stamp} {operation : Operation}

theorem Sound.steps_failed (sound : s.Sound r) (failure : Failure) :
    s.Steps r policy stamp operation (.error failure, s) :=
  ⟨r, sound, .failed failure⟩

/-- A question is answered or fails, and leaves the store. -/
theorem Sound.steps_asked (sound : s.Sound r) (h : operation.isQuestion = true)
    (answer : Except Failure Answer) : s.Steps r policy stamp operation (answer, s) := by
  cases answer with
  | error failure => exact sound.steps_failed failure
  | ok answer => exact ⟨r, sound, .asked answer h⟩

/-- A change of the tables is a step if it is one where it succeeds. -/
theorem Sound.steps_transact (sound : s.Sound r) {α : Type} (answer : α → Answer)
    {change : Tables → Except Failure (α × Tables)}
    (h : ∀ value tables, change s.tables = .ok (value, tables) →
      s.Steps r policy stamp operation (.ok (answer value), ⟨tables, s.blobs⟩)) :
    s.Steps r policy stamp operation
      ((s.transact change).1.map answer, (s.transact change).2) := by
  rw [Store.transact]
  cases hchange : change s.tables with
  | error failure => exact sound.steps_failed failure
  | ok outcome => exact h outcome.1 outcome.2 hchange

/-! ### Versions -/

/-- A commit that is not refused leaves a sound store. -/
theorem Sound.committed (sound : s.Sound r) (fresh : stamp.Fresh s) {content : Json}
    {request : NewVersion} (hcontent : content.Ordered)
    (metadata : (Json.object request.metadata).Ordered)
    {parent? : Option String} (hcheck : request.check content = .ok ())
    (hparent : r.parentFor request = .ok parent?) :
    Sound ⟨(r.record (r.newVersion request (stamp.prepared content) parent?) stamp.time).tables,
        Keyed.insert stamp.id (Document.contentBytes content) s.blobs⟩
      (r.record (r.newVersion request (stamp.prepared content) parent?) stamp.time) := by
  obtain ⟨named, accepted⟩ := check_eq_ok hcheck
  exact sound.record (r.newVersion request (stamp.prepared content) parent?)
    ⟨fresh.time, metadata⟩ (sound.version?_eq_none fresh) rfl
    (Records.owns_of_parentFor sound.branches hparent) fresh.safe
    ⟨hcontent, accepted⟩ rfl rfl named fresh.time

theorem Sound.steps_commit (sound : s.Sound r) (fresh : stamp.Fresh s) {content : Json}
    {request : NewVersion} (hcontent : content.Ordered)
    (metadata : (Json.object request.metadata).Ordered) :
    s.Steps r policy stamp (.commit content request)
      ((s.commit stamp content request).1.map .receipt, (s.commit stamp content request).2) := by
  rw [commit_eq sound fresh content metadata]
  cases hcheck : request.check content with
  | error failure => exact sound.steps_failed failure
  | ok =>
    cases hparent : r.parentFor request with
    | error failure => exact sound.steps_failed failure
    | ok parent? =>
      exact ⟨_, sound.committed fresh hcontent metadata hcheck hparent,
        .committed hcheck hparent rfl⟩

theorem within_metadata_restoring (source : Version) (branch author : String)
    (message? : Option String) :
    (Json.object (restoring source branch author message?).metadata).Within Json.nestingLimit := by
  refine Json.within_texts (List.pairwise_singleton _ _) fun member hmem => ⟨source.id, ?_⟩
  rw [List.mem_singleton.mp hmem]

theorem Sound.steps_restore (sound : s.Sound r) (fresh : stamp.Fresh s)
    (id branch author : String) (message? : Option String) :
    s.Steps r policy stamp (.restore id branch author message?)
      ((s.restore stamp id branch author message?).1.map .receipt,
        (s.restore stamp id branch author message?).2) := by
  rw [Store.restore, content_blobs]
  cases hread : s.tables.version id with
  | error failure => exact sound.steps_failed failure
  | ok source =>
    cases hcontent : Blobs.content id s.blobs with
    | error failure => exact sound.steps_failed failure
    | ok document =>
      have hversion := sound.version?_eq hread
      obtain ⟨valid, -⟩ :=
        sound.versions.holds_of_owns (Records.owns_of_version? hversion) hcontent
      have hcommit : s.Steps r policy stamp
          (.commit document (restoring source branch author message?)) _ :=
        sound.steps_commit fresh valid.ordered
          (within_metadata_restoring source branch author message?).ordered
      obtain ⟨r', hsound, hstep⟩ := hcommit
      exact ⟨r', hsound, .restored hversion hcontent hstep⟩

/-! ### Branches, notes and comments -/

theorem Sound.steps_createBranch (sound : s.Sound r) (fresh : stamp.Fresh s)
    (request : NewBranch) :
    s.Steps r policy stamp (.createBranch request)
      ((s.createBranch stamp request).1.map .branch, (s.createBranch stamp request).2) := by
  refine sound.steps_transact .branch fun answer tables h => ?_
  obtain ⟨⟨⟩, hname, h⟩ := bind_eq_ok_iff.mp h
  obtain ⟨⟨⟩, hplan, h⟩ := bind_eq_ok_iff.mp h
  obtain ⟨base, hbase, h⟩ := bind_eq_ok_iff.mp h
  obtain ⟨⟨⟩, howner, h⟩ := bind_eq_ok_iff.mp h
  obtain ⟨branch?, hbranch, h⟩ := bind_eq_ok_iff.mp h
  have howns := owns_of_requireOwner (sound.version?_eq hbase) howner
  rw [sound.tables, Records.branch?_tables sound.storable, mapError_eq_ok_iff,
    Except.ok.injEq] at hbranch
  subst hbranch
  cases hfound : r.branch? request.name request.plan with
  | some found => simp [hfound, throw, throwThe, MonadExceptOf.throw] at h
  | none =>
    rw [hfound] at h
    dsimp only at h
    obtain ⟨inserted, hinsert, h⟩ := bind_eq_ok_iff.mp h
    have hcreated : r.tables.insertBranch (request.created stamp.time)
        = .ok (r.addBranch (request.created stamp.time)).tables :=
      Records.insertBranch_tables hfound (Records.isSome_version? howns)
        (Records.isSome_version? howns)
    rw [sound.tables, mapError_eq_ok_iff] at hinsert
    obtain rfl := Except.ok.inj (hcreated.symm.trans hinsert)
    obtain ⟨rfl, rfl⟩ := Prod.mk.inj (Except.ok.inj h)
    have hfitting : BranchesSound (r.versions ++ []) (r.branches ++ [request.created stamp.time]) :=
      sound.branches.add [] ⟨fresh.time, fresh.time⟩ (Records.branch?_eq_none_iff.mp hfound)
        howns.append howns.append ⟨hname, hplan⟩ (by simp)
    rw [List.append_nil] at hfitting
    refine ⟨_, sound.withBranches hfitting ?_, .branched hfound howns⟩
    rintro name plan ⟨branch, hmem, hsame⟩
    exact ⟨branch, List.mem_append_left _ hmem, hsame⟩

theorem Sound.steps_updateHead (sound : s.Sound r) (fresh : stamp.Fresh s) (name : String)
    (plan : PlanId) (expected head : String) :
    s.Steps r policy stamp (.updateHead name plan expected head)
      ((s.updateHead stamp name plan expected head).1.map fun _ => .done,
        (s.updateHead stamp name plan expected head).2) := by
  refine sound.steps_transact (fun _ => .done) fun answer tables h => ?_
  obtain ⟨moved, hmove, hanswer⟩ := bind_eq_ok_iff.mp h
  obtain ⟨-, rfl⟩ := Prod.mk.inj (Except.ok.inj hanswer)
  obtain ⟨branch, hbranch, hadvance⟩ := bind_eq_ok_iff.mp hmove
  have hfound := sound.branch?_eq hbranch
  obtain ⟨version, hversion, hrest⟩ := bind_eq_ok_iff.mp hadvance
  obtain ⟨⟨⟩, howner, -⟩ := bind_eq_ok_iff.mp hrest
  obtain ⟨hversion, hlegible⟩ := sound.version_eq_ok_iff.mp hversion
  have howns := owns_of_requireOwner hversion howner
  rw [sound.tables, Records.advanceHead_tables sound.storable sound.branches.namesDiffer hfound
    expected hversion (requireOwner_eq_ok_iff.mp howner), if_pos hlegible] at hadvance
  split at hadvance
  next hhead =>
    rw [← Except.ok.inj hadvance, ← hhead]
    exact ⟨_, sound.setHead name howns branch.status fresh.time, .moved hfound howns⟩
  next => simp at hadvance

theorem Sound.steps_addNote (sound : s.Sound r) (request : NewNote) :
    s.Steps r policy stamp (.addNote request)
      ((s.addNote stamp request).1.map .id, (s.addNote stamp request).2) := by
  refine sound.steps_transact .id fun answer tables h => ?_
  obtain ⟨⟨⟩, -, h⟩ := bind_eq_ok_iff.mp h
  obtain ⟨noted, hnoted, hanswer⟩ := bind_eq_ok_iff.mp h
  obtain ⟨rfl, rfl⟩ := Prod.mk.inj (Except.ok.inj hanswer)
  obtain ⟨version, hversion, hrest⟩ := bind_eq_ok_iff.mp hnoted
  obtain ⟨⟨⟩, howner, hinsert⟩ := bind_eq_ok_iff.mp hrest
  have howns := owns_of_requireOwner (sound.version?_eq hversion) howner
  rw [sound.tables] at hinsert
  rw [Records.insertNote_tables (mapError_eq_ok_iff.mp hinsert)]
  exact ⟨_, sound.withNotes _ r.comments, .noted howns⟩

theorem Sound.steps_addComment (sound : s.Sound r) (request : NewComment) :
    s.Steps r policy stamp (.addComment request)
      ((s.addComment stamp request).1.map .id, (s.addComment stamp request).2) := by
  refine sound.steps_transact .id fun answer tables h => ?_
  obtain ⟨⟨⟩, -, h⟩ := bind_eq_ok_iff.mp h
  obtain ⟨commented, hcommented, hanswer⟩ := bind_eq_ok_iff.mp h
  obtain ⟨rfl, rfl⟩ := Prod.mk.inj (Except.ok.inj hanswer)
  obtain ⟨⟨⟩, hparent, hinsert⟩ := bind_eq_ok_iff.mp hcommented
  rw [sound.tables] at hparent hinsert
  rw [Records.insertComment_tables (mapError_eq_ok_iff.mp hinsert)]
  exact ⟨_, sound.withNotes r.notes _, .commented hparent⟩

/-! ### Merge requests -/

theorem Sound.steps_openMerge (sound : s.Sound r) (fresh : stamp.Fresh s) (request : NewMerge) :
    s.Steps r policy stamp (.openMerge request)
      ((s.openMerge stamp policy request).1.map .opened,
        (s.openMerge stamp policy request).2) := by
  -- Whatever fails does so before the request is inserted.
  cases hcheck : request.check with
  | error failure =>
    rw [Store.openMerge, Store.transact, hcheck]
    exact sound.steps_failed failure
  | ok =>
    cases hheads : r.tables.mergeHeads policy.detection request with
    | error failure =>
      rw [Store.openMerge, Store.transact, hcheck, sound.tables]
      dsimp only [bind, Except.bind]
      rw [hheads]
      exact sound.steps_failed failure
    | ok heads =>
      obtain ⟨source, target, base?⟩ := heads
      cases hfound : divergencesIn s.blobs base? source target with
      | error failure =>
        have hfound : s.divergencesSince base? source target = .error failure := hfound
        rw [Store.openMerge, Store.transact, hcheck, sound.tables]
        dsimp only [bind, Except.bind]
        rw [hheads]
        dsimp only
        rw [hfound]
        exact sound.steps_failed failure
      | ok found =>
        rw [openMerge_of_found sound fresh hcheck hheads hfound]
        exact ⟨_, sound.opened fresh hheads hfound, .opened hcheck hheads hfound⟩

theorem Sound.steps_resolve (sound : s.Sound r) (fresh : stamp.Fresh s)
    (id resolution actor : String) :
    s.Steps r policy stamp (.resolve id resolution actor)
      ((s.resolve stamp id resolution actor).1.map .id,
        (s.resolve stamp id resolution actor).2) := by
  rw [resolve_eq sound]
  split
  next => exact sound.steps_failed _
  next hblank =>
    cases hconflict : r.conflict? id with
    | none => exact sound.steps_failed _
    | some conflict =>
      dsimp only
      cases hrequest : r.merge? conflict.merge with
      | none => exact sound.steps_failed _
      | some request =>
        dsimp only
        split
        next => exact sound.steps_failed _
        next hopen =>
          cases hsettled : conflict.resolution? with
          | some settled =>
            dsimp only
            split
            next hsame => exact ⟨r, sound, .repeated hconflict (hsettled.trans (by rw [hsame]))⟩
            next => exact sound.steps_failed _
          | none =>
            exact ⟨_, sound.settle id resolution actor fresh.time,
              .settled (Bool.eq_false_iff.mpr hblank) hconflict hrequest
                (Bool.eq_false_iff.mpr hopen) hsettled⟩

theorem Sound.steps_execute (sound : s.Sound r) (fresh : stamp.Fresh s) (id actor : String) :
    s.Steps r policy stamp (.execute id actor)
      ((s.execute stamp id actor).1.map .outcome, (s.execute stamp id actor).2) := by
  cases hrequest : r.merge? id with
  | none =>
    rw [Store.execute, sound.tables, Records.mergeDetails_tables sound.storable, hrequest]
    exact sound.steps_failed _
  | some request =>
    -- In a sound store a plan can always be made, and only the four checks can refuse it.
    obtain ⟨target, plan, blobs, htarget, planned, hplan, hexecute⟩ :=
      execute_eq sound fresh hrequest actor
    obtain rfl := Records.id_of_merge? hrequest
    have hmem : request ∈ r.merges := List.mem_of_find?_eq_some hrequest
    rw [hexecute]
    split
    next => exact sound.steps_failed _
    next hopen =>
      split
      next => exact sound.steps_failed _
      next hsettled =>
        split
        next hreads =>
          split
          next hhead =>
            exact ⟨_, sound.executed fresh hmem htarget planned,
              .executed hmem (Bool.eq_false_iff.mpr hopen) (not_not.mp hsettled) htarget hhead
                hplan planned hreads⟩
          next => exact sound.steps_failed _
        next hunread =>
          exact ⟨_, sound.fail request.id, .abandoned hmem (Bool.eq_false_iff.mpr hopen)
            (not_not.mp hsettled) hplan planned hunread⟩

end Store

/-! ### Operations -/

/-- Every operation of a sound store is a step to a sound store. -/
theorem Store.Sound.step {repository : Repository} {r : Records} {stamp : Stamp}
    {operation : Operation} (sound : repository.store.Sound r)
    (fresh : stamp.Fresh repository.store) (given : operation.Ordered) :
    ∃ r', (repository.perform stamp operation).2.store.Sound r'
      ∧ repository.store.Step r repository.policy stamp operation
        (repository.perform stamp operation).1 r'
        (repository.perform stamp operation).2.store.blobs := by
  cases operation with
  | commit content request =>
    exact sound.steps_commit fresh given.1 given.2
  | restore version branch author message? =>
    exact sound.steps_restore fresh version branch author message?
  | createBranch request => exact sound.steps_createBranch fresh request
  | updateHead name plan expected head => exact sound.steps_updateHead fresh name plan expected head
  | openMerge request => exact sound.steps_openMerge fresh request
  | resolve conflict resolution actor => exact sound.steps_resolve fresh conflict resolution actor
  | execute merge actor => exact sound.steps_execute fresh merge actor
  | addNote request => exact sound.steps_addNote request
  | addComment request => exact sound.steps_addComment request
  -- The other operations are questions.
  | _ => exact sound.steps_asked rfl _

end PlanHistory
