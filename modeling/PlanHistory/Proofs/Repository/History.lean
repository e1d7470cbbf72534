/-
History is complete and in order.

The deeds of a chronicle tell which versions were made, oldest first: those that were committed,
restored or written by a merge, as the answers tell of them (`Deed.entry?`).  Operations that
fail, and those that make no version, leave no entry.

* **`Store.Step.entries`** — what one step adds to the versions is what its answer tells;
* **`Repository.Chronicle.entries`** — the versions of a repository are those of its deeds;
* **`Repository.Chronicle.history`** — the history of a plan is its part of them, newest first,
  that of a branch a part of this, and the places on the branch are 1, 2 and so on.  It is
  listed if all of its rows are read.
-/
import PlanHistory.Proofs.Repository.Restored
import PlanHistory.Proofs.Repository.Unbroken

namespace PlanHistory

/-- A version that was made, on a branch of a plan. -/
structure Entry where
  version : String
  plan : PlanId
  branch : String
deriving DecidableEq

/-- The entry that a version has in a journal. -/
def VersionEntry.entry {ι τ μ : Type} (version : VersionEntry ι τ μ) : Entry :=
  ⟨version.id, version.plan, version.branch⟩

namespace Store

/-- The entry of the version that an operation made, by its answer: on the branch that it was
committed or restored to, or that the request is into.  A merge may make none. -/
def made? (s : Store) : Operation → Except Failure Answer → Option Entry
  | .commit _ request, .ok (.receipt receipt) =>
    some ⟨receipt.version, request.plan, request.branch⟩
  | .restore id branch _ _, .ok (.receipt receipt) =>
    (s.tables.versionRow? id).map fun source => ⟨receipt.version, source.plan, branch⟩
  | .execute id _, .ok (.outcome outcome) =>
    if outcome.createdVersion then
      (s.tables.merge id).toOption.map fun summary =>
        ⟨outcome.head, summary.request.plan, summary.request.targetBranch⟩
    else none
  | _, _ => none

variable {s : Store} {r r' : Records} {policy : Policy} {stamp : Stamp} {operation : Operation}
  {answer : Except Failure Answer} {blobs : Blobs}

theorem made?_error (s : Store) (operation : Operation) (failure : Failure) :
    s.made? operation (.error failure) = none := by
  cases operation <;> rfl

theorem made?_of_isQuestion (h : operation.isQuestion = true) (answer : Except Failure Answer) :
    s.made? operation answer = none := by
  cases operation <;> first | rfl | exact absurd h Bool.false_ne_true

/-- A version that is brought back is entered as a commit of its content. -/
theorem made?_restore {id branch author : String} {message? : Option String} {source : Version}
    (hsource : s.tables.versionRow? id = some (VersionRow.store source)) (content : Json)
    (answer : Except Failure Answer) :
    s.made? (.restore id branch author message?) answer
      = s.made? (.commit content (restoring source branch author message?)) answer := by
  rcases answer with failure | answer
  · rfl
  · cases answer with
    | receipt receipt =>
      rw [made?, made?, hsource]
      rfl
    | _ => rfl

theorem Sound.versionRow?_eq (sound : s.Sound r) {id : String} {version : Version}
    (h : r.version? id = some version) :
    s.tables.versionRow? id = some (VersionRow.store version) := by
  rw [sound.tables, Records.versionRow?_tables, h, Option.map_some]

/-- A step adds the version that its answer tells of, and no other. -/
theorem Step.entries (step : s.Step r policy stamp operation answer r' blobs)
    (sound : s.Sound r) :
    r'.versions.map VersionEntry.entry
      = r.versions.map VersionEntry.entry ++ (s.made? operation answer).toList := by
  induction step with
  | failed failure => rw [made?_error, Option.toList_none, List.append_nil]
  | asked answer hquestion =>
    rw [made?_of_isQuestion hquestion, Option.toList_none, List.append_nil]
  | @committed content request parent? version _ _ hversion =>
    rw [Records.versions_record, List.map_append, List.map_singleton, hversion]
    rfl
  | @restored id branch author message? source content answer r' blobs hsource _ _ ih =>
    rw [ih, made?_restore (sound.versionRow?_eq hsource)]
  | @executed request target actor plan blobs hmem _ _ _ _ _ planned =>
    have hversions : (r.executed request target.status actor stamp.time plan).versions = _ :=
      versions_carriedOut target.status stamp.time plan
    have hmerge : s.tables.merge request.id = .ok (r.summary request) :=
      sound.merge_eq_ok (Records.merge?_of_mem sound.merges.idsDiffer hmem)
    rw [hversions, made?, hmerge]
    -- Only a merge that commits has a version of its own.
    cases planned with
    | moveHead => exact (List.append_nil _).symm
    | keepHead => exact (List.append_nil _).symm
    | commit =>
      rw [List.map_append, List.map_singleton]
      rfl
  | _ => exact (List.append_nil _).symm

/-- The versions of a plan, or of a branch of it, are listed if the rows of all are read. -/
theorem Sound.versionsOf_eq (sound : s.Sound r) (plan : PlanId) (branch? : Option String) :
    (s.tables.versionsOf plan branch?).mapError Failure.ofTable
      = if ∀ version ∈ r.versionsOf plan branch?, s.tables.Reads version.id then
          .ok (r.versionsOf plan branch?)
        else .error .illegible := by
  have hreads : (∀ version ∈ r.versionsOf plan branch?, s.tables.Reads version.id)
      ↔ ∀ version ∈ r.versionsOf plan branch?, Legible version.metadata :=
    forall₂_congr fun version hmem => sound.reads_iff (Records.mem_of_versionsOf hmem)
  have hlisted : s.tables.versionsOf plan branch? = _ :=
    sound.tables ▸ Records.versionsOf_tables sound.storable plan branch?
  rw [hlisted]
  by_cases hlegible : ∀ version ∈ r.versionsOf plan branch?, Legible version.metadata
  · rw [if_pos hlegible, if_pos (hreads.mpr hlegible)]
    rfl
  · rw [if_neg hlegible, if_neg (mt hreads.mp hlegible)]
    rfl

end Store

/-- The entry of the version that a deed made, if it did. -/
def Deed.entry? (deed : Deed) : Option Entry :=
  deed.found.made? deed.operation deed.answer

namespace Repository

variable {repository : Repository} {deeds : List Deed}

/-- The versions of a repository are those that the deeds made, in their order. -/
theorem Chronicle.entries (h : Chronicle repository deeds) :
    ∃ r, repository.store.Sound r
      ∧ r.versions.map VersionEntry.entry = deeds.filterMap Deed.entry? := by
  refine @Chronicle.invariant repository deeds
    (fun deeds r => r.versions.map VersionEntry.entry = deeds.filterMap Deed.entry?) h rfl ?_
  intro s r r' policy stamp operation answer blobs deeds sound fresh step hr
  rw [step.entries sound, hr, List.filterMap_append]
  refine congrArg (deeds.filterMap Deed.entry? ++ ·) ?_
  cases hmade : s.made? operation answer <;> simp [Deed.entry?, hmade]

theorem answer_history {r : Records} (sound : repository.store.Sound r) (stamp : Stamp)
    (plan : PlanId) (branch? : Option String) :
    (repository.perform stamp (.history plan branch?)).1
      = if ∀ version ∈ r.versionsOf plan branch?, repository.store.tables.Reads version.id then
          .ok (.versions (r.versionsOf plan branch?))
        else .error .illegible := by
  have hlisted := congrArg (Except.map Answer.versions) (sound.versionsOf_eq plan branch?)
  exact hlisted.trans (apply_ite _ _ _ _)

/-- The versions of a plan that are on a branch. -/
theorem filter_branch_reverse (versions : List Version) (plan : PlanId) (branch : String) :
    ((versions.filter fun version => version.plan == plan).reverse.filter fun version =>
        version.branch == branch)
      = (versionsOn versions plan branch).reverse := by
  rw [List.filter_reverse, List.filter_filter, versionsOn]
  exact congrArg List.reverse (List.filter_congr fun version _ => Bool.and_comm _ _)

/-- **History is complete and in order.**  The versions of a plan are those that the deeds have
made for it, newest first, each once and no others; those of a branch are the part of them that
was made on the branch, and the places there are 1, 2 and so on from the oldest to the newest.
The history of the plan or of the branch lists them if the rows of all are read, and fails
otherwise. -/
theorem Chronicle.history (h : Chronicle repository deeds) (stamp : Stamp) (plan : PlanId) :
    ((deeds.filterMap Deed.entry?).map Entry.version).Nodup
      ∧ ∃ versions : List Version,
        versions.map VersionRow.store = repository.store.tables.rowsOf plan none
          ∧ versions.map VersionEntry.entry
            = ((deeds.filterMap Deed.entry?).filter fun entry => entry.plan == plan).reverse
          ∧ (repository.perform stamp (.history plan none)).1
            = (if ∀ version ∈ versions, repository.store.tables.Reads version.id then
                .ok (.versions versions) else .error .illegible)
          ∧ ∀ branch, ∃ here, (versions.filter fun version => version.branch == branch) = here
            ∧ (repository.perform stamp (.history plan (some branch))).1
              = (if ∀ version ∈ here, repository.store.tables.Reads version.id then
                  .ok (.versions here) else .error .illegible)
            ∧ here.reverse.map (fun version => version.sequence)
              = (List.range here.length).map fun i : Nat => (i : Int) + 1 := by
  obtain ⟨r, sound, hentries⟩ := h.entries
  rw [← hentries]
  have hids : (r.versions.map VersionEntry.entry).map Entry.version
      = r.versions.map fun version => version.id := List.map_map
  have hplan : r.versionsOf plan none
      = (r.versions.filter fun version => version.plan == plan).reverse := by
    rw [Records.versionsOf]
    simp only [Option.isNone_none, Bool.true_or, Bool.and_true]
  have hrows : repository.store.tables.rowsOf plan none
      = (r.versionsOf plan none).map VersionRow.store := by
    rw [sound.tables, Records.rowsOf_tables]
  refine ⟨hids ▸ sound.versions.idsDiffer, r.versionsOf plan none, hrows.symm, ?_,
    answer_history sound stamp plan none, fun branch => ⟨r.versionsOf plan (some branch), ?_,
      answer_history sound stamp plan (some branch), ?_⟩⟩
  · rw [hplan, List.filter_map, List.map_reverse]
    rfl
  · rw [hplan, filter_branch_reverse, Records.versionsOf_branch]
  · rw [Records.versionsOf_branch, List.reverse_reverse, List.length_reverse]
    exact sound.versions.sequences plan branch

/-- After the merge someone commits on top of a version that is no longer the head, and the
first version is brought back. -/
def historySteps : List (String × Operation) :=
  mergedSteps ++ [("stale", .commit (Merge.hallFloor Merge.largeSize) (onTopOf "first" "draft")),
    ("again", .restore "first" "draft" "clerk" none)]

theorem ordered_historySteps : ∀ step ∈ historySteps, step.2.Ordered :=
  List.forall_mem_append.mpr ⟨ordered_mergedSteps, List.forall_mem_cons.mpr
    ⟨⟨(ordered_drawHall "draft" Merge.largeSize).1, ordered_noMetadata⟩,
      List.forall_mem_singleton.mpr trivial⟩⟩

theorem history_hall :
    Chronicle ((empty .standard).play historySteps) ((empty .standard).deeds historySteps)
      ∧ ((empty .standard).deeds historySteps).filterMap Deed.entry?
        = [⟨"first", hallPlan, "main"⟩, ⟨"other", hallPlan, "draft"⟩, ⟨"run", hallPlan, "main"⟩,
          ⟨"again", hallPlan, "draft"⟩]
      ∧ ∃ versions,
        (((empty .standard).play historySteps).perform (.named "ask") (.history hallPlan none)).1
            = .ok (.versions versions)
          ∧ versions.map (fun version => version.id) = ["again", "run", "other", "first"]
          ∧ (((empty .standard).play historySteps).perform (.named "ask")
              (.history hallPlan (some "draft"))).1
            = .ok (.versions (versions.filter fun version => version.branch == "draft")) := by
  have hruns : (empty .standard).admits historySteps = true
      ∧ ((empty .standard).deeds historySteps).filterMap Deed.entry?
        = [⟨"first", hallPlan, "main"⟩, ⟨"other", hallPlan, "draft"⟩, ⟨"run", hallPlan, "main"⟩,
          ⟨"again", hallPlan, "draft"⟩]
      ∧ ∀ row ∈ ((empty .standard).play historySteps).store.tables.versions.rows,
        ((empty .standard).play historySteps).store.tables.Reads row.id := by
    decide +kernel
  obtain ⟨hnew, hentries, hreads⟩ := hruns
  have hchronicle := chronicle_play .standard hnew ordered_historySteps
  obtain ⟨-, versions, hrows, hlisted, hhistory, hbranches⟩ :=
    hchronicle.history (.named "ask") hallPlan
  have hread : ∀ version ∈ versions,
      ((empty .standard).play historySteps).store.tables.Reads version.id := by
    intro version hmem
    have hrow := List.mem_map_of_mem (f := VersionRow.store) hmem
    rw [hrows] at hrow
    exact hreads (VersionRow.store version) (Tables.mem_of_rowsOf hrow)
  rw [if_pos hread] at hhistory
  refine ⟨hchronicle, hentries, versions, hhistory, ?_, ?_⟩
  · rw [hentries] at hlisted
    have hids := congrArg (List.map Entry.version) hlisted
    rw [List.map_map] at hids
    exact hids
  · obtain ⟨_, rfl, hdraft, -⟩ := hbranches "draft"
    rw [if_pos fun version hmem => hread version (List.mem_filter.mp hmem).1] at hdraft
    exact hdraft

/-- One version that is not read fails the history of its plan. -/
theorem Reachable.history_of_unread (h : Reachable repository) {plan : PlanId} {id : String}
    (hrow : id ∈ (repository.store.tables.rowsOf plan none).map fun row => row.id)
    (hunread : ¬ repository.store.tables.Reads id) (stamp : Stamp) :
    (repository.perform stamp (.history plan none)).1 = .error .illegible := by
  obtain ⟨r, sound⟩ := h.sound
  rw [sound.tables, Records.rowsOf_tables, List.map_map] at hrow
  obtain ⟨version, hmem, rfl⟩ := List.mem_map.mp hrow
  rw [answer_history sound, if_neg fun hall => hunread (hall version hmem)]

/-- Two versions of the hall were made, and its history lists none. -/
theorem history_unreadDraft :
    Reachable unreadDraft
      ∧ (unreadDraft.store.tables.rowsOf hallPlan none).map (fun row => row.id)
        = ["other", "first"]
      ∧ ∀ stamp, (unreadDraft.perform stamp (.history hallPlan none)).1 = .error .illegible := by
  obtain ⟨-, -, hrows, -⟩ := unreadDraft_facts
  have hother : "other"
      ∈ (unreadDraft.store.tables.rowsOf hallPlan none).map fun row => row.id := by
    rw [hrows]
    exact List.mem_cons_self
  exact ⟨reachable_unreadDraft, hrows,
    reachable_unreadDraft.history_of_unread hother unread_unreadDraft⟩

end Repository

end PlanHistory
