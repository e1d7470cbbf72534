/-
How merge requests and their conflicts change.

A request of a reachable repository is pending, in conflict, completed or failed, and its
status agrees with its conflicts and with what it records of its completion
(`MergeDetails.Staged`).  It is failed only if the row of a version that it was to be executed
on is not read (`Tables.Excuses`).  From one repository to a later one a request keeps what it
was opened with, and all of its conflicts; once it is over, nothing of it changes
(`MergeDetails.Kept`).

* **`Store.Step.merges_cases`** — what a step may do to the requests and the conflicts;
* **`Store.Step.staged`**, **`Store.Step.kept`** — what one step preserves;
* **`Repository.Reachable.progress`** — what every run preserves.
-/
import PlanHistory.Proofs.Repository.Unread

namespace PlanHistory

/-- A request as it was opened: without what became of it. -/
def MergeRequest.asOpened (request : MergeRequest) : MergeRequest :=
  { request with status := .pending, result? := none, mergedBy? := none, mergedAt? := none }

/-- A conflict as it was found: without what settles it. -/
def Conflict.asFound (conflict : Conflict) : Conflict :=
  { conflict with resolution? := none, resolvedBy? := none, resolvedAt? := none }

namespace MergeDetails

/-- Whether the status of a request agrees with its conflicts and with what it records of
its completion. -/
structure Staged (details : MergeDetails) : Prop where
  status : details.request.status ≠ .inProgress
  pending : details.request.status.isTerminal = false →
    (details.request.status = .pending ↔ details.conflicts = [])
  resolved : details.request.status.isTerminal = true →
    ∀ conflict ∈ details.conflicts, conflict.isResolved = true
  completed : details.request.status = .completed →
    details.request.mergedBy?.isSome ∧ details.request.mergedAt?.isSome
      ∧ details.request.result?.isSome
  others : details.request.status ≠ .completed →
    details.request.mergedBy? = none ∧ details.request.mergedAt? = none
      ∧ details.request.result? = none

/-- Whether a request is still what it was opened as, with the same conflicts, and is the
same in all if it was over. -/
structure Kept (before after : MergeDetails) : Prop where
  request : after.request.asOpened = before.request.asOpened
  conflictIds : after.summary.conflictIds = before.summary.conflictIds
  conflicts : after.conflicts.map Conflict.asFound = before.conflicts.map Conflict.asFound
  ended : before.request.status.isTerminal = true → after = before

theorem Kept.refl (details : MergeDetails) : details.Kept details :=
  ⟨rfl, rfl, rfl, fun _ => rfl⟩

theorem Kept.of_eq {before after : MergeDetails} (h : after = before) : before.Kept after :=
  h ▸ .refl after

theorem Kept.trans {first second third : MergeDetails} (h : first.Kept second)
    (h' : second.Kept third) : first.Kept third where
  request := h'.request.trans h.request
  conflictIds := h'.conflictIds.trans h.conflictIds
  conflicts := h'.conflicts.trans h.conflicts
  ended hover := by
    have hsecond := h.ended hover
    rw [← hsecond] at hover
    exact (h'.ended hover).trans hsecond

/-- A completed request stays as it is. -/
theorem Kept.completed {before after : MergeDetails} (h : before.Kept after)
    (hcompleted : before.request.status = .completed) : after = before :=
  h.ended (by rw [hcompleted]; rfl)

end MergeDetails

/-- Whether the row of a version of the plan is not read that a request may be executed on: of
one that it recorded, or by the fast-forward strategy of any. -/
def Tables.Excuses (tables : Tables) (request : MergeRequest) : Prop :=
  ∃ row ∈ tables.versions.rows, row.plan = request.plan ∧ ¬ tables.Reads row.id
    ∧ (request.strategy = label Strategy.fastForward ∨ row.id = request.source
      ∨ row.id = request.target)

/-! ### Requests with their conflicts -/

namespace Records

variable {r r' : Records} {request : MergeRequest}

/-- A request with its conflicts. -/
def details (r : Records) (request : MergeRequest) : MergeDetails :=
  ⟨r.summary request, r.conflictsOf request.id⟩

theorem details_congr (h : r'.conflictsOf request.id = r.conflictsOf request.id) :
    r'.details request = r.details request := by
  rw [details, details, summary, summary, h]

/-- Whether the metadata of a version that a request may be executed on are not legible. -/
def Excuses (r : Records) (request : MergeRequest) : Prop :=
  ∃ version ∈ r.versions, version.plan = request.plan ∧ ¬ Legible version.metadata
    ∧ (request.strategy = label Strategy.fastForward ∨ version.id = request.source
      ∨ version.id = request.target)

/-- Whether every request has the status that its conflicts and its result call for, and none is
failed without excuse. -/
structure Staged (r : Records) : Prop where
  details : ∀ request ∈ r.merges, (r.details request).Staged
  excused : ∀ request ∈ r.merges, request.status = .failed → r.Excuses request

theorem conflictsOf_congr (h : r'.conflicts = r.conflicts) (merge : String) :
    r'.conflictsOf merge = r.conflictsOf merge := by
  rw [conflictsOf, conflictsOf, h]

/-- More conflicts of other requests. -/
theorem conflictsOf_append {added : List Conflict} {merge : String}
    (h : ∀ conflict ∈ added, conflict.merge ≠ merge) (hr : r'.conflicts = r.conflicts ++ added) :
    r'.conflictsOf merge = r.conflictsOf merge := by
  rw [conflictsOf, conflictsOf, hr, List.filter_append, filter_merge_of_ne h, List.append_nil]

/-- Settling leaves a conflict as it was found. -/
theorem asFound_settledConflict (id resolution actor : String) (now : Timestamp)
    (conflict : Conflict) :
    (settledConflict id resolution actor now conflict).asFound = conflict.asFound := by
  rw [settledConflict]
  split <;> rfl

/-- A conflict that is settled is not settled again. -/
theorem settledConflict_of_isResolved {conflict : Conflict} (h : conflict.isResolved = true)
    (id resolution actor : String) (now : Timestamp) :
    settledConflict id resolution actor now conflict = conflict := by
  have hnone : conflict.resolution?.isNone = false := by
    rwa [← Option.not_isSome, Bool.not_eq_false']
  rw [settledConflict, hnone, Bool.and_false, if_neg Bool.false_ne_true]

/-- A request that is not over, and says so of its conflicts and its result. -/
theorem staged_of_open (hstatus : request.status = .pending ∨ request.status = .conflict)
    (hpending : request.status = .pending ↔ r.conflictsOf request.id = [])
    (hresult : request.mergedBy? = none ∧ request.mergedAt? = none ∧ request.result? = none) :
    (r.details request).Staged := by
  have hopen : request.status.isTerminal = false := by
    rcases hstatus with h | h <;> rw [h] <;> rfl
  refine ⟨fun h => ?_, fun _ => hpending, fun h => ?_, fun h => ?_, fun _ => hresult⟩
  · have h : request.status = .inProgress := h
    rcases hstatus with hstatus | hstatus <;> exact nomatch hstatus.symm.trans h
  · exact absurd (h.symm.trans hopen) (by decide)
  · have h : request.status = .completed := h
    rw [h] at hopen
    exact absurd hopen (by decide)

/-- The requests once one of them, found by its id, is changed. -/
theorem mem_change (ids : (r.merges.map fun request => request.id).Nodup) {old : MergeRequest}
    (hold : old ∈ r.merges) {applies : MergeRequest → Bool} {change : MergeRequest → MergeRequest}
    (happlies : ∀ other ∈ r.merges, applies other = true ↔ other.id = old.id) :
    request ∈ r.merges.map (fun other => if applies other then change other else other)
      ↔ (request ∈ r.merges ∧ request.id ≠ old.id) ∨ request = change old := by
  rw [List.mem_map]
  constructor
  · rintro ⟨other, hmem, rfl⟩
    by_cases hid : other.id = old.id
    · obtain rfl := List.inj_on_of_nodup_map ids hmem hold hid
      exact Or.inr (if_pos ((happlies other hmem).mpr rfl))
    · have hkept := mt (happlies other hmem).mp hid
      rw [if_neg hkept]
      exact Or.inl ⟨hmem, hid⟩
  · rintro (⟨hmem, hid⟩ | rfl)
    · exact ⟨request, hmem, if_neg (mt (happlies request hmem).mp hid)⟩
    · exact ⟨old, hold, if_pos ((happlies old hold).mpr rfl)⟩

/-- The request of an id once it is completed. -/
theorem mem_complete {id actor result : String} {now : Timestamp} :
    request ∈ (r.complete id actor result now).merges
      ↔ (request ∈ r.merges ∧ request.id ≠ id)
        ∨ ∃ old ∈ r.merges, old.id = id ∧ request = { old with
            status := .completed
            mergedBy? := some actor
            mergedAt? := some now
            result? := some result } := by
  rw [complete, List.mem_map]
  constructor
  · rintro ⟨old, hmem, rfl⟩
    by_cases hid : old.id = id
    · rw [if_pos (beq_iff_eq.mpr hid)]
      exact Or.inr ⟨old, hmem, hid, rfl⟩
    · rw [if_neg (by rwa [beq_iff_eq])]
      exact Or.inl ⟨hmem, hid⟩
  · rintro (⟨hmem, hid⟩ | ⟨old, hmem, hid, rfl⟩)
    · exact ⟨request, hmem, if_neg (by rwa [beq_iff_eq])⟩
    · exact ⟨old, hmem, if_pos (beq_iff_eq.mpr hid)⟩

end Records

namespace Store

variable {s : Store} {r r' : Records} {policy : Policy} {stamp : Stamp} {operation : Operation}
  {answer : Except Failure Answer} {blobs : Blobs}

/-! ### One step -/

/-- What becomes of a request when it is over: it is completed with a result, or failed with an
excuse. -/
inductive Ends (r : Records) (request : MergeRequest) : MergeRequest → Prop where
  | completed (actor result : String) (now : Timestamp) :
      Ends r request { request with
        status := .completed
        mergedBy? := some actor
        mergedAt? := some now
        result? := some result }
  | failed : r.Excuses request → Ends r request { request with status := .failed }

theorem Ends.asOpened {ended : MergeRequest} (h : Ends r request ended) :
    ended.asOpened = request.asOpened := by
  cases h <;> rfl

theorem Ends.isTerminal {ended : MergeRequest} (h : Ends r request ended) :
    ended.status.isTerminal = true := by
  cases h <;> rfl

theorem Ends.staged {request ended : MergeRequest} (h : Ends r request ended)
    (hstaged : (r.details request).Staged) (hopen : request.status.isTerminal = false)
    (hresolved : ∀ conflict ∈ r'.conflictsOf ended.id, conflict.isResolved = true) :
    (r'.details ended).Staged := by
  cases h with
  | completed =>
    exact ⟨nofun, nofun, fun _ => hresolved, fun _ => ⟨rfl, rfl, rfl⟩, fun hne => absurd rfl hne⟩
  | failed =>
    -- A request that was not over has no result yet.
    have hnone := hstaged.others fun hcompleted => by
      have hcompleted : request.status = .completed := hcompleted
      rw [hcompleted] at hopen
      exact absurd hopen (by decide)
    exact ⟨nofun, nofun, fun _ => hresolved, nofun, fun _ => hnone⟩

/-- A plan that reads a row that is not read excuses its request. -/
theorem Sound.excuses (sound : s.Sound r) (fresh : stamp.Fresh s) {request : MergeRequest}
    (hmem : request ∈ r.merges) {actor : String} {plan : MergePlan}
    (planned : Planned s r stamp request actor plan blobs)
    (hplan : s.planMerge stamp (r.details request) actor = .ok (plan, blobs))
    (hunread : ¬ plan.Reads s.tables request) : r.Excuses request := by
  -- The version that the plan looks at is one of the plan, and the request may be executed on it.
  have hlooked {id : String} (hlooks : plan.looksAt? request = some id)
      (howns : Owns r.versions request.plan id)
      (hon : request.strategy = label Strategy.fastForward ∨ id = request.source
        ∨ id = request.target) : r.Excuses request := by
    obtain ⟨version, hversion, hversionPlan⟩ :=
      Records.exists_version? sound.versions.idsDiffer howns
    obtain ⟨hthere, rfl⟩ := Records.mem_of_version? hversion
    rw [sound.tables, MergePlan.reads_iff sound.storable hlooks hversion] at hunread
    exact ⟨version, hthere, hversionPlan, hunread, hon⟩
  by_cases hforward : request.strategy = label Strategy.fastForward
  · cases planned with
    | moveHead howns => exact hlooked rfl howns (Or.inl hforward)
    | keepHead => exact absurd MergePlan.reads_keepHead hunread
    | commit => exact hlooked rfl (sound.merges.targets request hmem) (Or.inl hforward)
  · obtain ⟨source, target, base?, -, -, -, -, hmerged⟩ := sound.mergedContent hmem
    obtain ⟨hvalid, -⟩ := sound.valid_merged hmem hmerged
    have hstrategy : (r.details request).request.strategy ≠ label Strategy.fastForward := hforward
    rcases plan_of_materialize sound fresh hstrategy hmerged hvalid.accepted hplan with
      ⟨-, rfl, -⟩ | ⟨-, -, rfl, -⟩ | ⟨-, -, rfl, -⟩
    · exact hlooked rfl (sound.merges.sources request hmem) (Or.inr (Or.inl rfl))
    · exact absurd MergePlan.reads_keepHead hunread
    · exact hlooked rfl (sound.merges.targets request hmem) (Or.inr (Or.inr rfl))

/-- A step leaves all requests and conflicts, or opens a request, or settles a conflict of a
request that is not over, or ends a request whose conflicts are settled. -/
theorem Step.merges_cases (step : s.Step r policy stamp operation answer r' blobs)
    (sound : s.Sound r) (fresh : stamp.Fresh s) :
    (r'.merges = r.merges ∧ r'.conflicts = r.conflicts)
      ∨ (∃ (request : MergeRequest) (found : List Divergence),
        request.id = stamp.id ∧ request.status = .opened found ∧ request.result? = none
          ∧ request.mergedBy? = none ∧ request.mergedAt? = none
          ∧ r'.merges = r.merges ++ [request] ∧ r'.conflicts = r.conflicts ++ stamp.conflicts found)
      ∨ (∃ id resolution actor,
        r'.merges = r.merges
          ∧ ∀ merge, r'.conflictsOf merge = (r.conflictsOf merge).map
            (Records.settledConflict id resolution actor stamp.time))
      ∨ ∃ old ∈ r.merges, ∃ ended, old.status.isTerminal = false
        ∧ r.tables.countUnresolved old.id = 0 ∧ Ends r old ended
        ∧ (∀ request, request ∈ r'.merges
          ↔ (request ∈ r.merges ∧ request.id ≠ old.id) ∨ request = ended)
        ∧ r'.conflicts = r.conflicts := by
  induction step with
  | failed failure => exact Or.inl ⟨rfl, rfl⟩
  | asked answer => exact Or.inl ⟨rfl, rfl⟩
  | committed => exact Or.inl ⟨Records.merges_record _ _, Records.conflicts_record _ _⟩
  | restored _ _ _ ih => exact ih
  | branched => exact Or.inl ⟨rfl, rfl⟩
  | moved => exact Or.inl ⟨rfl, rfl⟩
  | opened => exact Or.inr (Or.inl ⟨_, _, rfl, rfl, rfl, rfl, rfl, rfl, rfl⟩)
  | @settled id resolution actor =>
    exact Or.inr (Or.inr (Or.inl ⟨id, resolution, actor, rfl,
      Records.conflictsOf_settle id resolution actor stamp.time⟩))
  | repeated => exact Or.inl ⟨rfl, rfl⟩
  | @executed request target actor plan blobs hmem hopen hsettled htarget hhead hplan planned =>
    refine Or.inr (Or.inr (Or.inr ⟨request, hmem, _, hopen, hsettled,
      .completed actor (plan.head request.target) stamp.time, fun other => ?_,
      conflicts_carriedOut target.status stamp.time plan⟩))
    rw [merges_executed target.status stamp.time plan]
    exact Records.mem_change sound.merges.idsDiffer hmem fun _ _ => beq_iff_eq
  | @abandoned request actor plan blobs hmem hopen hsettled hplan planned hunread =>
    refine Or.inr (Or.inr (Or.inr ⟨request, hmem, _, hopen, hsettled,
      .failed (sound.excuses fresh hmem planned hplan hunread), fun other => ?_, rfl⟩))
    refine Records.mem_change sound.merges.idsDiffer hmem fun other hother => ?_
    rw [Bool.and_eq_true, beq_iff_eq, Bool.not_eq_true', and_iff_left_iff_imp]
    intro hid
    rwa [List.inj_on_of_nodup_map sound.merges.idsDiffer hother hmem hid]
  | noted => exact Or.inl ⟨rfl, rfl⟩
  | commented => exact Or.inl ⟨rfl, rfl⟩

theorem Sound.mergeDetails_of_mem (sound : s.Sound r) {request : MergeRequest}
    (hmem : request ∈ r.merges) :
    s.tables.mergeDetails request.id = .ok (r.details request) := by
  rw [sound.tables, Records.mergeDetails_tables sound.storable,
    Records.merge?_of_mem sound.merges.idsDiffer hmem]
  rfl

/-- A request that is there is read with its conflicts. -/
theorem Sound.exists_mergeDetails (sound : s.Sound r) {id : String}
    (h : s.tables.hasMerge id = true) :
    ∃ request ∈ r.merges, s.tables.mergeDetails id = .ok (r.details request) := by
  rw [sound.tables, Records.hasMerge_tables, Option.isSome_iff_exists] at h
  obtain ⟨request, hrequest⟩ := h
  obtain rfl := Records.id_of_merge? hrequest
  have hmem : request ∈ r.merges := List.mem_of_find?_eq_some hrequest
  exact ⟨request, hmem, sound.mergeDetails_of_mem hmem⟩

/-- The new conflicts are of the new request, and the older ones of older requests. -/
theorem Sound.filter_opened (sound : s.Sound r) (fresh : stamp.Fresh s) (found : List Divergence) :
    (r.conflicts ++ stamp.conflicts found).filter (fun conflict => conflict.merge == stamp.id)
      = stamp.conflicts found := by
  refine filter_merge_append (fun conflict hconflict => ?_) fun conflict => Stamp.merge_of_mem
  obtain ⟨request, hmem, hid⟩ := sound.merges.owners conflict hconflict
  exact hid ▸ sound.mergeId_ne fresh hmem

/-- A request that was there before another one was opened is read as it was. -/
theorem Sound.details_opened (sound : s.Sound r) (fresh : stamp.Fresh s) {found : List Divergence}
    {request : MergeRequest} (hmem : request ∈ r.merges)
    (hconflicts : r'.conflicts = r.conflicts ++ stamp.conflicts found) :
    r'.details request = r.details request := by
  have hne := sound.mergeId_ne fresh hmem
  refine Records.details_congr
    (Records.conflictsOf_append (fun conflict hconflict => ?_) hconflicts)
  exact (Stamp.merge_of_mem hconflict).trans_ne hne.symm

/-- One step keeps every request at a status that its conflicts call for. -/
theorem Step.staged_details (step : s.Step r policy stamp operation answer r' blobs)
    (sound : s.Sound r) (fresh : stamp.Fresh s)
    (h : ∀ request ∈ r.merges, (r.details request).Staged)
    {request : MergeRequest} (hmem : request ∈ r'.merges) : (r'.details request).Staged := by
  rcases step.merges_cases sound fresh with ⟨hmerges, hconflicts⟩
    | ⟨opened, found, hid, hstatus, hresult, hby, hat, hmerges, hconflicts⟩
    | ⟨id, resolution, actor, hmerges, hmap⟩
    | ⟨old, hold, ended, hopen, hsettled, hends, hmerges, hconflicts⟩
  · rw [hmerges] at hmem
    rw [Records.details_congr (Records.conflictsOf_congr hconflicts request.id)]
    exact h request hmem
  · rw [hmerges, List.mem_append, List.mem_singleton] at hmem
    rcases hmem with hmem | rfl
    · rw [sound.details_opened fresh hmem hconflicts]
      exact h request hmem
    · -- The status of a new request says whether it has conflicts.
      have hnone : r'.conflictsOf request.id = [] ↔ found = [] := by
        rw [Records.conflictsOf, hconflicts, hid, sound.filter_opened fresh,
          ← List.length_eq_zero_iff, List.length_mergeSort, List.length_eq_zero_iff,
          ← List.isEmpty_iff, Stamp.isEmpty_conflicts, List.isEmpty_iff]
      have hopen : request.status = if found = [] then .pending else .conflict := by
        rw [hstatus, MergeStatus.opened]
        cases found <;> rfl
      refine Records.staged_of_open ?_ ?_ ⟨hby, hat, hresult⟩
      · rw [hopen]
        split <;> simp
      · rw [hnone, hopen]
        split
        next hfound => simp [hfound]
        next hfound => simp [hfound]
  · rw [hmerges] at hmem
    obtain ⟨status, pending, resolved, completed, others⟩ := h request hmem
    refine ⟨status, fun hopen => ?_, fun hover conflict hconflict => ?_, completed, others⟩
    · refine (pending hopen).trans ?_
      show r.conflictsOf request.id = [] ↔ r'.conflictsOf request.id = []
      rw [hmap request.id, List.map_eq_nil_iff]
    · have hconflict : conflict ∈ r'.conflictsOf request.id := hconflict
      rw [hmap request.id] at hconflict
      obtain ⟨before, hbefore, rfl⟩ := List.mem_map.mp hconflict
      rw [Records.settledConflict_of_isResolved (resolved hover before hbefore)]
      exact resolved hover before hbefore
  · rcases (hmerges request).mp hmem with ⟨hmem, -⟩ | rfl
    · rw [Records.details_congr (Records.conflictsOf_congr hconflicts request.id)]
      exact h request hmem
    · -- No conflict is left open when a request is ended.
      have hid : request.id = old.id := congrArg (fun opened => opened.id) hends.asOpened
      have hresolved : ∀ conflict ∈ r'.conflictsOf request.id, conflict.isResolved = true := by
        intro conflict hconflict
        rw [Records.countUnresolved_tables, List.countP_eq_zero] at hsettled
        rw [hid, Records.conflictsOf_congr hconflicts] at hconflict
        have hresolved := hsettled conflict hconflict
        rwa [Bool.not_eq_true, Option.isNone_eq_false_iff] at hresolved
      exact hends.staged (h old hold) hopen hresolved

/-- An excuse is found in the rows. -/
theorem Sound.excuses_tables (sound : s.Sound r) {request : MergeRequest} (h : r.Excuses request) :
    s.tables.Excuses request := by
  obtain ⟨version, hmem, hplan, hillegible, hon⟩ := h
  have hrow : VersionRow.store version ∈ s.tables.versions.rows := by
    rw [sound.tables, Records.tables, Roll.rows_ofRows]
    exact List.mem_map_of_mem hmem
  exact ⟨_, hrow, hplan, mt (sound.reads_iff hmem).mp hillegible, hon⟩

/-- An excuse stays, since versions do. -/
theorem excuses_of_longer (hlonger : r.versions <+: r'.versions) {request : MergeRequest}
    (h : r.Excuses request) : r'.Excuses request := by
  obtain ⟨version, hmem, hexcuse⟩ := h
  exact ⟨version, hlonger.subset hmem, hexcuse⟩

/-- One step fails no request without excuse. -/
theorem Step.staged (step : s.Step r policy stamp operation answer r' blobs) (sound : s.Sound r)
    (fresh : stamp.Fresh s) (h : r.Staged) : r'.Staged := by
  refine ⟨fun request => step.staged_details sound fresh h.details, fun request hmem hfailed => ?_⟩
  have hold (hmem : request ∈ r.merges) : r'.Excuses request :=
    excuses_of_longer step.versions_longer (h.excused request hmem hfailed)
  rcases step.merges_cases sound fresh with ⟨hmerges, -⟩
    | ⟨opened, found, -, hstatus, -, -, -, hmerges, -⟩
    | ⟨id, resolution, actor, hmerges, -⟩
    | ⟨old, hmemOld, ended, -, -, hends, hmerges, -⟩
  · exact hold (hmerges ▸ hmem)
  · rw [hmerges, List.mem_append, List.mem_singleton] at hmem
    rcases hmem with hmem | rfl
    · exact hold hmem
    · rw [hstatus, MergeStatus.opened] at hfailed
      split at hfailed <;> cases hfailed
  · exact hold (hmerges ▸ hmem)
  · rcases (hmerges request).mp hmem with ⟨hmem, -⟩ | rfl
    · exact hold hmem
    · cases hends with
      | completed => cases hfailed
      | failed hexcuse => exact excuses_of_longer step.versions_longer hexcuse

/-- One step keeps what every request was opened with, and requests that are over as they are. -/
theorem Step.kept (step : s.Step r policy stamp operation answer r' blobs) (sound : s.Sound r)
    (fresh : stamp.Fresh s) (h : r.Staged) {request : MergeRequest} (hmem : request ∈ r.merges) :
    ∃ request' ∈ r'.merges, request'.id = request.id
      ∧ (r.details request).Kept (r'.details request') := by
  rcases step.merges_cases sound fresh with ⟨hmerges, hconflicts⟩
    | ⟨opened, found, hid, -, -, -, -, hmerges, hconflicts⟩
    | ⟨id, resolution, actor, hmerges, hmap⟩
    | ⟨old, hold, ended, hopen, hsettled, hends, hmerges, hconflicts⟩
  · have hsame := Records.details_congr (Records.conflictsOf_congr hconflicts request.id)
    exact ⟨request, hmerges ▸ hmem, rfl, .of_eq hsame⟩
  · have hsame := sound.details_opened fresh hmem hconflicts
    exact ⟨request, hmerges ▸ List.mem_append_left _ hmem, rfl, .of_eq hsame⟩
  · refine ⟨request, hmerges ▸ hmem, rfl, ?_⟩
    refine
      { request := rfl, conflictIds := ?conflictIds, conflicts := ?conflicts,
        ended := fun hover => ?ended }
    case conflictIds =>
      show (r'.conflictsOf request.id).map _ = (r.conflictsOf request.id).map _
      rw [hmap request.id, List.map_map]
      exact List.map_congr_left fun conflict _ => Records.id_settledConflict ..
    case conflicts =>
      show (r'.conflictsOf request.id).map _ = (r.conflictsOf request.id).map _
      rw [hmap request.id, List.map_map]
      exact List.map_congr_left fun conflict _ => Records.asFound_settledConflict ..
    case ended =>
      -- All conflicts of a request that is over are settled already.
      refine Records.details_congr ((hmap request.id).trans ?_)
      refine (List.map_congr_left fun conflict hconflict => ?_).trans (List.map_id _)
      exact Records.settledConflict_of_isResolved ((h.details request hmem).resolved hover conflict
        hconflict) ..
  · have hconflictsOf := Records.conflictsOf_congr hconflicts request.id
    by_cases hid : request.id = old.id
    · obtain rfl := List.inj_on_of_nodup_map sound.merges.idsDiffer hmem hold hid
      have hsameId : ended.id = request.id := congrArg (fun opened => opened.id) hends.asOpened
      rw [← hsameId] at hconflictsOf
      refine ⟨ended, (hmerges ended).mpr (Or.inr rfl), hsameId, ?_⟩
      exact
        { request := hends.asOpened
          conflictIds := by
            show (r'.conflictsOf ended.id).map _ = (r.conflictsOf request.id).map _
            rw [hconflictsOf, hsameId]
          conflicts := by
            show (r'.conflictsOf ended.id).map _ = (r.conflictsOf request.id).map _
            rw [hconflictsOf, hsameId]
          -- What is over does not end again.
          ended := fun hover => absurd (hover.symm.trans hopen) (by decide) }
    · exact ⟨request, (hmerges request).mpr (Or.inl ⟨hmem, hid⟩), rfl,
        .of_eq (Records.details_congr hconflictsOf)⟩

end Store

/-! ### Runs -/

namespace Repository

variable {repository later : Repository} {id : String} {details : MergeDetails}

theorem Reachable.staged (h : Reachable repository) :
    ∃ r, repository.store.Sound r ∧ r.Staged := by
  exact h.invariant ⟨by simp [Records.empty], by simp [Records.empty]⟩
    fun sound fresh step hr => step.staged sound fresh hr

/-- All that follows keeps what is read of a request. -/
theorem Leads.kept (h : Reachable repository) (hleads : Leads repository later)
    (hdetails : repository.store.tables.mergeDetails id = .ok details) :
    ∃ details', later.store.tables.mergeDetails id = .ok details' ∧ details.Kept details' := by
  obtain ⟨r, sound, hstaged⟩ := h.staged
  obtain ⟨request, hrequest, rfl⟩ := sound.of_mergeDetails hdetails
  obtain rfl := Records.id_of_merge? hrequest
  obtain ⟨r', sound', -, request', hmem', hid, hkept⟩ : ∃ r', later.store.Sound r' ∧ r'.Staged
      ∧ ∃ request' ∈ r'.merges, request'.id = request.id
        ∧ (r.details request).Kept (r'.details request') := by
    refine hleads.invariant sound
      ⟨hstaged, request, List.mem_of_find?_eq_some hrequest, rfl, .refl _⟩ ?_
    rintro s r' r'' policy stamp operation answer blobs sound' fresh step
      ⟨hstaged', request', hmem', hid, hkept⟩
    obtain ⟨request'', hmem'', hid', hkept'⟩ := step.kept sound' fresh hstaged' hmem'
    exact ⟨step.staged sound' fresh hstaged', request'', hmem'', hid'.trans hid,
      hkept.trans hkept'⟩
  exact ⟨r'.details request', hid ▸ sound'.mergeDetails_of_mem hmem', hkept⟩

/-- **Every merge request is pending, in conflict, completed or failed, as its conflicts and its
result call for, and keeps what it was opened with.**  It is failed only if the row of a version
that it was to be executed on is not read.  It keeps its conflicts, too, and nothing of it
changes once it is over. -/
theorem Reachable.progress (h : Reachable repository) :
    (∀ id, repository.store.tables.hasMerge id = true → ∃ details,
      repository.store.tables.mergeDetails id = .ok details ∧ details.Staged
        ∧ (details.request.status = .failed →
          repository.store.tables.Excuses details.request))
      ∧ ∀ later, Leads repository later → ∀ id details,
        repository.store.tables.mergeDetails id = .ok details → ∃ details',
          later.store.tables.mergeDetails id = .ok details' ∧ details.Kept details' := by
  refine ⟨fun id hid => ?_, fun later hleads id details => hleads.kept h⟩
  obtain ⟨r, sound, hstaged⟩ := h.staged
  obtain ⟨request, hmem, hdetails⟩ := sound.exists_mergeDetails hid
  exact ⟨r.details request, hdetails, hstaged.details request hmem,
    fun hfailed => sound.excuses_tables (hstaged.excused request hmem hfailed)⟩

/-- The request about the size of the hall is in conflict, and completed in the end. -/
theorem progress_resize :
    Reachable ((empty .standard).play resizeSteps)
      ∧ Leads ((empty .standard).play resizeSteps)
        (((empty .standard).play resizeSteps).play (settleSteps "source_wins"))
      ∧ ∃ before after,
        ((empty .standard).play resizeSteps).store.tables.mergeDetails "open" = .ok before
          ∧ (((empty .standard).play resizeSteps).play
            (settleSteps "source_wins")).store.tables.mergeDetails "open" = .ok after
          ∧ before.request.status = .conflict ∧ after.request.status = .completed
          ∧ before.Staged ∧ before.Kept after := by
  have hruns : (empty .standard).admits (resizeSteps ++ settleSteps "source_wins") = true
      ∧ ((empty .standard).play resizeSteps).store.tables.hasMerge "open" = true
      ∧ (((empty .standard).play resizeSteps).store.tables.mergeDetails "open").toOption.map
        (fun details => details.request.status) = some .conflict
      ∧ ((((empty .standard).play resizeSteps).play
        (settleSteps "source_wins")).store.tables.mergeDetails "open").toOption.map
          (fun details => details.request.status) = some .completed := by
    decide +kernel
  obtain ⟨hnew, hmerge, hbefore, hafter⟩ := hruns
  rw [admits_append, Bool.and_eq_true] at hnew
  have hreachable : Reachable ((empty .standard).play resizeSteps) :=
    (Reachable.empty .standard).play hnew.1 ordered_resizeSteps
  have hleads := leads_play hnew.2 (ordered_settleSteps "source_wins")
  obtain ⟨before, hdetails, hstaged, -⟩ := hreachable.progress.1 "open" hmerge
  obtain ⟨after, hdetails', hkept⟩ := hreachable.progress.2 _ hleads "open" before hdetails
  rw [hdetails] at hbefore
  rw [hdetails'] at hafter
  exact ⟨hreachable, hleads, before, after, hdetails, hdetails', Option.some_inj.mp hbefore,
    Option.some_inj.mp hafter, hstaged, hkept⟩

/-- A request whose conflicts are settled is failed where the head of its source is not read. -/
theorem failed_unreadDraft :
    Reachable (unreadDraft.perform (.named "run") (.execute "open" "clerk")).2
      ∧ ∃ details, (unreadDraft.perform (.named "run")
          (.execute "open" "clerk")).2.store.tables.mergeDetails "open" = .ok details
        ∧ details.request.status = .failed := by
  obtain ⟨-, -, -, -, -, -, -, hfailed⟩ := unreadDraft_facts
  obtain ⟨details, hdetails, hstatus⟩ := Option.map_eq_some_iff.mp hfailed
  refine ⟨reachable_unreadDraft.perform _ _ fresh_unreadDraft trivial, details, ?_, hstatus⟩
  rw [execute_unreadDraft]
  exact eq_ok_of_toOption hdetails

end Repository

end PlanHistory
