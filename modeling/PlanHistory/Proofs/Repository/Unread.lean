/-
Rows that are written and not read.

Metadata are written however deep they nest, and read back only if they nest no deeper than the
reader goes.  A version with deeper ones is there and not read:

* **`Repository.Reachable.unread_of_commit`** — such a version is written by a commit;
* **`Repository.Leads.unread`** — no later operation has it read;
* **`Repository.Reachable.execute_of_unread`** — it fails a request whose plan looks at it.

The head of a draft is such a version (`Repository.unreadDraft`): it is not verified, restored or
listed, and a request to merge it fails.
-/
import PlanHistory.Proofs.Repository.Reachable

namespace PlanHistory

/-! ### The row that a plan looks at -/

namespace Store

/-- The version whose row the plan of a request looks at, if any. -/
def looksAt? (s : Store) (stamp : Stamp) (id actor : String) : Option String :=
  match s.tables.mergeDetails id with
  | .error _ => none
  | .ok details =>
    match s.planMerge stamp details actor with
    | .error _ => none
    | .ok (plan, _) => plan.looksAt? details.request

/-- Whether the row that the plan of a request looks at, if any, is read. -/
def readsPlan (s : Store) (stamp : Stamp) (id actor : String) : Bool :=
  decide (∀ read ∈ s.looksAt? stamp id actor, s.tables.Reads read)

theorem readsPlan_of_plan {s : Store} {stamp : Stamp} {id actor : String} {details : MergeDetails}
    {plan : MergePlan} {blobs : Blobs} (hdetails : s.tables.mergeDetails id = .ok details)
    (hplan : s.planMerge stamp details actor = .ok (plan, blobs)) :
    s.readsPlan stamp id actor = decide (plan.Reads s.tables details.request) := by
  have hlooks : s.looksAt? stamp id actor = plan.looksAt? details.request := by
    rw [looksAt?, hdetails]
    dsimp only
    rw [hplan]
  rw [readsPlan, hlooks]
  rfl

end Store

namespace Repository

variable {repository later : Repository} {stamp : Stamp}

/-- What the execution of a request is answered, and what it leaves. -/
theorem perform_execute {r : Records} (sound : repository.store.Sound r)
    (fresh : stamp.Fresh repository.store) {id : String} {request : MergeRequest}
    (hrequest : r.merge? id = some request) (actor : String) :
    ∃ target outcome after, r.branch? request.targetBranch request.plan = some target
      ∧ repository.perform stamp (.execute id actor)
        = if request.status.isTerminal then
            (.error (.mergeOver id (label request.status)), repository)
          else if r.tables.countUnresolved id ≠ 0 then
            (.error (.unresolved id (r.tables.countUnresolved id)), repository)
          else if repository.store.readsPlan stamp id actor = false then
            (.error .illegible, { repository with
              store.tables := (repository.store.tables.setMergeStatus id .failed).2 })
          else if target.head ≠ request.target then
            (.error (.headMoved request.targetBranch request.target target.head), repository)
          else (.ok (.outcome outcome), after) := by
  obtain ⟨target, plan, blobs, htarget, -, hplan, hexecute⟩ :=
    Store.execute_eq sound fresh hrequest actor
  have hdetails := Records.mergeDetails_tables sound.storable id
  rw [← sound.tables, hrequest] at hdetails
  refine ⟨target, ⟨id, plan.head request.target, plan.creates⟩, { repository with
    store := ⟨(r.executed request target.status actor stamp.time plan).tables, blobs⟩ }, htarget,
    ?_⟩
  have hplanned : repository.store.readsPlan stamp id actor
      = decide (plan.Reads repository.store.tables request) :=
    Store.readsPlan_of_plan hdetails hplan
  rw [perform, write, hexecute]
  by_cases hover : request.status.isTerminal = true
  · rw [if_pos hover, if_pos hover]
    rfl
  rw [if_neg hover, if_neg hover]
  by_cases hresolved : r.tables.countUnresolved id = 0
  swap
  · rw [if_pos hresolved, if_pos hresolved]
    rfl
  rw [if_neg (not_not_intro hresolved), if_neg (not_not_intro hresolved)]
  by_cases hreads : plan.Reads repository.store.tables request
  swap
  · rw [if_neg hreads, if_pos (hplanned.trans (decide_eq_false hreads)), sound.tables,
      Records.setMergeStatus_tables]
    rfl
  have hplanRead : ¬ repository.store.readsPlan stamp id actor = false := by
    rw [hplanned, decide_eq_true hreads]
    decide
  rw [if_pos hreads, if_neg hplanRead]
  by_cases hhead : target.head = request.target
  · rw [if_pos hhead, if_neg (not_not_intro hhead)]
    rfl
  · rw [if_neg hhead, if_pos hhead]
    rfl

/-- A request that is open and settled fails if the row that its plan looks at is not read. -/
theorem Reachable.execute_of_unread (h : Reachable repository)
    (fresh : stamp.Fresh repository.store) {id actor : String} {details : MergeDetails}
    (hdetails : repository.store.tables.mergeDetails id = .ok details)
    (hopen : details.request.status.isTerminal = false) (hsettled : details.unresolved = 0)
    (hunread : repository.store.readsPlan stamp id actor = false) :
    repository.perform stamp (.execute id actor)
      = (.error .illegible, { repository with
          store.tables := (repository.store.tables.setMergeStatus id .failed).2 }) := by
  obtain ⟨r, sound⟩ := h.sound
  obtain ⟨request, hrequest, rfl⟩ := sound.of_mergeDetails hdetails
  obtain ⟨target, outcome, after, -, hperform⟩ := perform_execute sound fresh hrequest actor
  have hopen : ¬ request.status.isTerminal = true := Bool.eq_false_iff.mp hopen
  have hsettled : r.tables.countUnresolved id = 0 :=
    (Records.countUnresolved_tables id).trans hsettled
  rw [hperform, if_neg hopen, if_neg (not_not_intro hsettled), if_pos hunread]

/-! ### A version that is not read -/

/-- A commit of metadata that are not legible leaves no version that is read. -/
theorem Reachable.unread_of_commit (h : Reachable repository) (fresh : stamp.Fresh repository.store)
    {content : Json} {request : NewVersion} (given : (Operation.commit content request).Ordered)
    (hillegible : ¬ Legible request.metadata) :
    ¬ (repository.perform stamp (.commit content request)).2.store.tables.Reads stamp.id := by
  obtain ⟨r, sound⟩ := h.sound
  obtain ⟨r', sound', step⟩ := sound.step fresh given
  rw [sound'.tables, Records.reads_tables sound'.storable]
  rintro ⟨version, hversion, hlegible⟩
  generalize (repository.perform stamp (.commit content request)).1 = answer at step
  generalize (repository.perform stamp (.commit content request)).2.store.blobs = blobs at step
  cases step with
  | failed => simp [sound.version?_eq_none fresh] at hversion
  | asked _ hquestion => cases hquestion
  | @committed _ _ parent? _ _ _ hnew =>
    subst hnew
    have hfound := Records.version?_record (r.newVersion request (stamp.prepared content) parent?)
      (sound.version?_eq_none fresh) sound.versions.idsDiffer stamp.time
    obtain rfl := Option.some_inj.mp (hfound.symm.trans hversion)
    exact hillegible hlegible

/-- A version that is there and not read is never read later. -/
theorem Leads.unread (hleads : Leads repository later) (h : Reachable repository) {id : String}
    (hthere : repository.store.tables.hasVersion id = true)
    (hunread : ¬ repository.store.tables.Reads id) : ¬ later.store.tables.Reads id := by
  obtain ⟨r, sound⟩ := h.sound
  rw [sound.tables, Records.hasVersion_tables] at hthere
  obtain ⟨version, hversion⟩ := Option.isSome_iff_exists.mp hthere
  obtain ⟨r', sound', hkept⟩ : ∃ r', later.store.Sound r' ∧ r'.version? id = some version :=
    hleads.invariant sound hversion fun _ _ step => Records.version?_of_longer step.versions_longer
  rw [sound.tables, Records.reads_tables sound.storable] at hunread
  rw [sound'.tables, Records.reads_tables sound'.storable]
  rintro ⟨found, hfound, hlegible⟩
  obtain rfl := Option.some_inj.mp (hkept.symm.trans hfound)
  exact hunread ⟨version, hversion, hlegible⟩

/-! ### A draft that is not read -/

/-- Arrays in an array, some levels deep. -/
def nested : Nat → Json
  | 0 => .array []
  | levels + 1 => .array [nested levels]

theorem within_nested (levels : Nat) : (nested levels).Within (levels + 1) := by
  induction levels with
  | zero => exact Json.within_array.mpr (by simp)
  | succ levels ih => exact Json.within_array.mpr (by simpa using ih)

theorem nesting_nested (levels : Nat) : (nested levels).nesting = levels + 1 := by
  induction levels with
  | zero => rfl
  | succ levels ih =>
    rw [nested, Json.nesting, Json.nestingOfItems, Json.nestingOfItems, ih, Nat.max_zero]

/-- Metadata that nest one level deeper than the reader goes. -/
def deepMetadata : Keyed Json := [("mark", nested 126)]

theorem ordered_deepMetadata : (Json.object deepMetadata).Ordered := by
  have hwithin : (Json.object deepMetadata).Within (127 + 1) := by
    refine Json.within_object (List.pairwise_singleton _ _) fun key value h => ?_
    obtain ⟨-, rfl⟩ := Prod.mk.inj (List.mem_singleton.mp (Keyed.mem_of_get? h))
    exact within_nested 126
  exact hwithin.ordered

theorem illegible_deepMetadata : ¬ Legible deepMetadata := by
  have hnesting : (Json.object deepMetadata).nesting = 128 := by
    simp [deepMetadata, Json.nesting, Json.nestingOfMembers, nesting_nested]
  rw [Legible, hnesting]
  decide

/-- A version on a branch, with the metadata. -/
def markedOn (branch : String) : NewVersion :=
  ⟨hallPlan, branch, "hall", "clerk", none, .minor, deepMetadata⟩

/-- The hall is drawn on a branch, with the metadata. -/
def markHall (branch : String) : Operation :=
  .commit (Merge.hallFloor Merge.smallSize) (markedOn branch)

theorem ordered_markHall (branch : String) : (markHall branch).Ordered :=
  ⟨Merge.ordered_hallFloor Merge.smallSize, ordered_deepMetadata⟩

/-- The hall is drawn on the main branch. -/
def unmarked : Repository := ((empty .standard).perform (.named "first")
  (drawHall "main" Merge.smallSize)).2

/-- The hall is drawn with the metadata as the first version of the draft. -/
def markedDraft : Repository := (unmarked.perform (.named "other") (markHall "draft")).2

/-- There is a request to merge the draft with the metadata. -/
def unreadDraft : Repository := (markedDraft.perform (.named "open") (.openMerge mergeDraft)).2

/-- The names that the draft is made under are new when they come to be used. -/
theorem isNew_unreadDraft :
    Stamp.isNew "first" (empty .standard).store = true
      ∧ Stamp.isNew "other" unmarked.store = true
      ∧ Stamp.isNew "open" markedDraft.store = true
      ∧ Stamp.isNew "run" unreadDraft.store = true := by
  decide +kernel

/-- The draft is there with its content, and there is nothing to settle before it is merged. -/
theorem unreadDraft_facts :
    markedDraft.store.tables.hasVersion "other" = true
      ∧ unreadDraft.store.tables.hasVersion "other" = true
      ∧ (unreadDraft.store.tables.rowsOf hallPlan none).map (fun row => row.id)
        = ["other", "first"]
      ∧ (unreadDraft.store.content "other").toOption.isSome = true
      ∧ unreadDraft.headOf "main" = some "first"
      ∧ (unreadDraft.store.tables.mergeDetails "open").toOption.map (fun details =>
        (details.request.targetBranch, details.request.plan, details.request.target,
          details.request.status, details.unresolved))
        = some ("main", hallPlan, "first", .pending, 0)
      ∧ unreadDraft.store.looksAt? (.named "run") "open" "clerk" = some "other"
      ∧ ((((unreadDraft.store.tables.setMergeStatus "open" .failed).2.mergeDetails
        "open").toOption.map fun details => details.request.status) = some .failed) := by
  decide +kernel

theorem reachable_unmarked : Reachable unmarked :=
  (Reachable.empty .standard).perform _ _ (Stamp.fresh_named isNew_unreadDraft.1)
    (ordered_drawHall _ _)

theorem fresh_other : (Stamp.named "other").Fresh unmarked.store :=
  Stamp.fresh_named isNew_unreadDraft.2.1

theorem reachable_markedDraft : Reachable markedDraft :=
  reachable_unmarked.perform _ _ fresh_other (ordered_markHall _)

theorem leads_unreadDraft : Leads markedDraft unreadDraft :=
  (Leads.refl _).perform _ _ (Stamp.fresh_named isNew_unreadDraft.2.2.1) trivial

theorem reachable_unreadDraft : Reachable unreadDraft :=
  reachable_markedDraft.leads leads_unreadDraft

theorem fresh_unreadDraft : (Stamp.named "run").Fresh unreadDraft.store :=
  Stamp.fresh_named isNew_unreadDraft.2.2.2

/-- The head of the draft is not read. -/
theorem unread_unreadDraft : ¬ unreadDraft.store.tables.Reads "other" :=
  leads_unreadDraft.unread reachable_markedDraft unreadDraft_facts.1
    (reachable_unmarked.unread_of_commit fresh_other (ordered_markHall _) illegible_deepMetadata)

/-- The request to merge the draft. -/
theorem exists_request_unreadDraft : ∃ details,
    unreadDraft.store.tables.mergeDetails "open" = .ok details
      ∧ details.request.targetBranch = "main" ∧ details.request.plan = hallPlan
      ∧ details.request.target = "first" ∧ details.request.status = .pending
      ∧ details.unresolved = 0 := by
  obtain ⟨-, -, -, -, -, hrequest, -⟩ := unreadDraft_facts
  obtain ⟨details, hdetails, hrequest⟩ := Option.map_eq_some_iff.mp hrequest
  exact ⟨details, eq_ok_of_toOption hdetails, by simpa [Prod.mk.injEq] using hrequest⟩

/-- The request to merge the draft fails. -/
theorem execute_unreadDraft : unreadDraft.perform (.named "run") (.execute "open" "clerk")
    = (.error .illegible, { unreadDraft with
        store.tables := (unreadDraft.store.tables.setMergeStatus "open" .failed).2 }) := by
  obtain ⟨-, -, -, -, -, -, hlooks, -⟩ := unreadDraft_facts
  obtain ⟨details, hdetails, -, -, -, hstatus, hsettled⟩ := exists_request_unreadDraft
  have hopen : details.request.status.isTerminal = false := by
    rw [hstatus]
    rfl
  refine reachable_unreadDraft.execute_of_unread fresh_unreadDraft hdetails hopen hsettled ?_
  rw [Store.readsPlan, hlooks, decide_eq_false_iff_not]
  exact fun hreads => unread_unreadDraft (hreads "other" rfl)

end Repository

end PlanHistory
