/-
Settling conflicts in any order.

Labels for different conflicts do not get in each other's way.  Each is answered as if it came
first, and what they leave is the same in any order, but for the times at which the conflicts
were settled (`Repository.untimed`).  Merging looks at the labels and never at these times, so that
a request comes to the same whatever the order of the labels was.

* **`Records.answered_comm`** — labels for different conflicts commute, each at its own time;
* **`Records.untimed_answered`**, **`Store.Sound.execute_untimed`** — the times make no
  difference to a label or to a merge;
* **`Repository.Reachable.resolutions`** — conflicts are settled once, answer labels by what they
  are, and are settled in any order.
-/
import PlanHistory.Proofs.Repository.Outcome
import PlanHistory.Proofs.Repository.WrittenOnce

namespace PlanHistory

/-- A label that someone gives to a conflict. -/
structure Settlement where
  conflict : String
  resolution : String
  actor : String

/-- The request that gives a label. -/
def Settlement.operation (call : Settlement) : Operation :=
  .resolve call.conflict call.resolution call.actor

/-! ### Times aside -/

/-- A conflict without the time at which it was settled: if it was, the time at which it was
found stands for it. -/
def ConflictEntry.untimed {ι κ ν τ : Type} (conflict : ConflictEntry ι κ ν τ) :
    ConflictEntry ι κ ν τ :=
  { conflict with resolvedAt? := conflict.resolvedAt?.map fun _ => conflict.createdAt }

/-- A store without the times at which its conflicts were settled. -/
def Store.untimed (s : Store) : Store :=
  { s with tables := { s.tables with conflicts := s.tables.conflicts.map ConflictEntry.untimed } }

/-- A repository without the times at which its conflicts were settled. -/
def Repository.untimed (repository : Repository) : Repository :=
  { repository with store := repository.store.untimed }

theorem ConflictEntry.untimed_untimed {ι κ ν τ : Type} (conflict : ConflictEntry ι κ ν τ) :
    conflict.untimed.untimed = conflict.untimed := by
  rw [untimed, untimed, Option.map_map]
  rfl

theorem ConflictRow.untimed_store (conflict : Conflict) :
    ConflictEntry.untimed (ConflictRow.store conflict) = ConflictRow.store conflict.untimed := by
  rw [ConflictEntry.untimed, ConflictEntry.untimed, ConflictRow.store, ConflictRow.store,
    Option.map_map, Option.map_map]
  rfl

theorem Stamp.Fresh.untimed_iff {stamp : Stamp} {s : Store} :
    stamp.Fresh s.untimed ↔ stamp.Fresh s := by
  have hids : (∀ i, ∀ row ∈ s.untimed.tables.conflicts, row.id ≠ some (stamp.conflictId i))
      ↔ ∀ i, ∀ row ∈ s.tables.conflicts, row.id ≠ some (stamp.conflictId i) :=
    forall_congr' fun i => List.forall_mem_map
  constructor
  · rintro ⟨time, safe, version, merge, conflicts, conflictsDiffer, versionsLeft, mergesLeft⟩
    exact ⟨time, safe, version, merge, hids.mp conflicts, conflictsDiffer, versionsLeft,
      mergesLeft⟩
  · rintro ⟨time, safe, version, merge, conflicts, conflictsDiffer, versionsLeft, mergesLeft⟩
    exact ⟨time, safe, version, merge, hids.mpr conflicts, conflictsDiffer, versionsLeft,
      mergesLeft⟩

namespace Records

variable {r : Records}

/-- The records without the times at which conflicts were settled. -/
def untimed (r : Records) : Records :=
  { r with conflicts := r.conflicts.map ConflictEntry.untimed }

theorem untimed_untimed (r : Records) : r.untimed.untimed = r.untimed := by
  rw [untimed, untimed, List.map_map]
  exact congrArg (fun conflicts => { r with conflicts })
    (List.map_congr_left fun conflict _ => ConflictEntry.untimed_untimed conflict)

theorem conflict?_untimed (id : String) :
    r.untimed.conflict? id = (r.conflict? id).map ConflictEntry.untimed :=
  @conflict?_map r ConflictEntry.untimed (fun _ => rfl) id

theorem conflictsOf_untimed (merge : String) :
    r.untimed.conflictsOf merge = (r.conflictsOf merge).map ConflictEntry.untimed :=
  @conflictsOf_map r ConflictEntry.untimed (fun _ => ⟨rfl, rfl, rfl⟩) merge

theorem summary_untimed (request : MergeRequest) :
    r.untimed.summary request = r.summary request := by
  rw [summary, summary, conflictsOf_untimed, List.map_map]
  rfl

theorem countUnresolved_untimed (merge : String) :
    r.untimed.tables.countUnresolved merge = r.tables.countUnresolved merge := by
  rw [countUnresolved_tables, countUnresolved_tables, conflictsOf_untimed, List.countP_map]
  rfl

end Records

/-! ### Labels -/

namespace Records

variable {r : Records} {id other : String}

/-- What a label for a conflict is answered. -/
def answerTo (r : Records) (call : Settlement) : Except Failure String :=
  if Text.isBlank call.resolution then .error (.invalid (.blank .resolution))
  else
    match r.conflict? call.conflict with
    | none => .error (.notFound .conflict call.conflict)
    | some conflict =>
      match r.merge? conflict.merge with
      | none => .error (.notFound .mergeRequest conflict.merge)
      | some request =>
        if request.status.isTerminal then
          .error (.mergeOver request.id (label request.status))
        else
          match conflict.resolution? with
          | some settled =>
            if settled = call.resolution then .ok call.conflict
            else .error (.conflictResolved call.conflict settled)
          | none => .ok call.conflict

/-- The records once a label is answered. -/
def answered (r : Records) (call : Settlement) (now : Timestamp) : Records :=
  match r.answerTo call with
  | .ok _ => r.settle call.conflict call.resolution call.actor now
  | .error _ => r

theorem settledConflict_of_ne {conflict : Conflict} (h : conflict.id ≠ id)
    (resolution actor : String) (now : Timestamp) :
    settledConflict id resolution actor now conflict = conflict := by
  rw [settledConflict, beq_false_of_ne h, Bool.false_and, if_neg Bool.false_ne_true]

/-- A conflict is one of two at most, so that it is settled by one label at most. -/
theorem settledConflict_comm (h : id ≠ other) (resolution resolution' actor actor' : String)
    (now now' : Timestamp) (conflict : Conflict) :
    settledConflict id resolution actor now
        (settledConflict other resolution' actor' now' conflict)
      = settledConflict other resolution' actor' now'
        (settledConflict id resolution actor now conflict) := by
  by_cases hid : conflict.id = id
  · have hother : conflict.id ≠ other := hid.trans_ne h
    have hsettled : (settledConflict id resolution actor now conflict).id ≠ other := by
      rwa [id_settledConflict]
    rw [settledConflict_of_ne hother, settledConflict_of_ne hsettled]
  · have hsettled : (settledConflict other resolution' actor' now' conflict).id ≠ id := by
      rwa [id_settledConflict]
    rw [settledConflict_of_ne hid, settledConflict_of_ne hsettled]

theorem settle_comm (h : id ≠ other) (resolution resolution' actor actor' : String)
    (now now' : Timestamp) :
    (r.settle id resolution actor now).settle other resolution' actor' now'
      = (r.settle other resolution' actor' now').settle id resolution actor now := by
  rw [settle, settle, settle, settle, List.map_map, List.map_map]
  exact congrArg (fun conflicts => { r with conflicts }) (List.map_congr_left fun conflict _ =>
    settledConflict_comm h.symm resolution' resolution actor' actor now' now conflict)

/-- Settling a conflict again changes nothing. -/
theorem settle_of_isResolved (ids : (r.conflicts.map fun conflict => conflict.id).Nodup)
    {conflict : Conflict} (h : r.conflict? id = some conflict)
    (hresolved : conflict.isResolved = true) (resolution actor : String) (now : Timestamp) :
    r.settle id resolution actor now = r := by
  have hfixed : ∀ found ∈ r.conflicts,
      settledConflict id resolution actor now found = found := by
    intro found hmem
    by_cases hid : found.id = id
    · obtain rfl : conflict = found :=
        Option.some_inj.mp (h.symm.trans (hid ▸ conflict?_of_mem ids hmem))
      exact settledConflict_of_isResolved hresolved id resolution actor now
    · exact settledConflict_of_ne hid resolution actor now
  rw [settle, List.map_congr_left hfixed, List.map_id'']
  exact fun _ => rfl

/-- A label is answered as before any label for another conflict. -/
theorem answerTo_answered {call call' : Settlement} (h : call.conflict ≠ call'.conflict)
    (now : Timestamp) : (r.answered call' now).answerTo call = r.answerTo call := by
  rw [answered]
  split
  · rw [answerTo, answerTo, conflict?_settle_of_ne h]
    rfl
  · rfl

/-- Labels for different conflicts commute. -/
theorem answered_comm {call call' : Settlement} (h : call.conflict ≠ call'.conflict)
    (now now' : Timestamp) :
    (r.answered call now).answered call' now' = (r.answered call' now').answered call now := by
  have hanswer : (r.answered call' now').answerTo call = _ := answerTo_answered h now'
  have hanswer' : (r.answered call now).answerTo call' = _ := answerTo_answered h.symm now
  rw [answered.eq_def (r.answered call now), answered.eq_def (r.answered call' now'), hanswer,
    hanswer', answered, answered]
  cases r.answerTo call with
  | error failure => cases r.answerTo call' <;> rfl
  | ok answer =>
    cases r.answerTo call' with
    | error failure' => rfl
    | ok answer' => exact settle_comm h _ _ _ _ now now'

theorem answerTo_untimed (call : Settlement) : r.untimed.answerTo call = r.answerTo call := by
  rw [answerTo, answerTo, conflict?_untimed]
  cases r.conflict? call.conflict <;> rfl

/-- What a label leaves does not depend on the time, nor on earlier times, but for these. -/
theorem untimed_answered (call : Settlement) (now now' : Timestamp) :
    (r.answered call now).untimed = (r.untimed.answered call now').untimed := by
  have hconflict : ∀ conflict : Conflict,
      (settledConflict call.conflict call.resolution call.actor now conflict).untimed
        = (settledConflict call.conflict call.resolution call.actor now'
          conflict.untimed).untimed := by
    intro conflict
    by_cases hopen : (conflict.id == call.conflict && conflict.resolution?.isNone) = true
    · have hopen' : (conflict.untimed.id == call.conflict
          && conflict.untimed.resolution?.isNone) = true := hopen
      rw [settledConflict, settledConflict, if_pos hopen, if_pos hopen']
      rfl
    · have hopen' : ¬ (conflict.untimed.id == call.conflict
          && conflict.untimed.resolution?.isNone) = true := hopen
      rw [settledConflict, settledConflict, if_neg hopen, if_neg hopen', conflict.untimed_untimed]
  rw [answered, answered, answerTo_untimed]
  split
  · rw [settle, settle, untimed, untimed, untimed, List.map_map, List.map_map, List.map_map]
    exact congrArg (fun conflicts => { r with conflicts })
      (List.map_congr_left fun conflict _ => hconflict conflict)
  · exact r.untimed_untimed.symm

/-- Labels for different conflicts commute, times aside. -/
theorem foldl_answered_perm {calls calls' : List Settlement} (h : calls.Perm calls')
    (ids : (calls.map fun call => call.conflict).Nodup) (r : Records) (now : Timestamp) :
    calls.foldl (fun r call => (r.answered call now).untimed) r
      = calls'.foldl (fun r call => (r.answered call now).untimed) r := by
  refine h.foldl_eq' (fun call hcall call' hcall' r => ?_) r
  rw [← untimed_answered call now now, ← untimed_answered call' now now]
  by_cases hsame : call = call'
  · rw [hsame]
  · rw [answered_comm]
    exact fun hid => hsame (List.inj_on_of_nodup_map ids hcall hcall' hid)

end Records

namespace Store

variable {s : Store} {r : Records} {stamp : Stamp}

theorem Sound.untimed_eq (sound : s.Sound r) : s.untimed = ⟨r.untimed.tables, s.blobs⟩ := by
  have hrows : s.tables.conflicts.map ConflictEntry.untimed
      = r.untimed.conflicts.map ConflictRow.store := by
    rw [sound.tables, Records.tables, Records.untimed, List.map_map, List.map_map]
    exact List.map_congr_left fun conflict _ => ConflictRow.untimed_store conflict
  rw [untimed, hrows, sound.tables]
  rfl

/-- A sound store stays so without the times. -/
theorem Sound.untimed (sound : s.Sound r) : s.untimed.Sound r.untimed := by
  rw [sound.untimed_eq]
  refine sound.withMerges (sound.merges.settle (fun _ => true) ConflictEntry.untimed
    (fun _ => ⟨rfl, rfl, rfl⟩) fun conflict h => ⟨h.source?, h.target?, h.createdAt, ?_⟩)
  intro time htime
  obtain ⟨_, -, rfl⟩ := Option.map_eq_some_iff.mp htime
  exact h.createdAt

/-- What settling a conflict answers and leaves behind. -/
theorem Sound.resolve_answered (sound : s.Sound r) (call : Settlement) :
    s.resolve stamp call.conflict call.resolution call.actor
      = (r.answerTo call, ⟨(r.answered call stamp.time).tables, s.blobs⟩) := by
  have kept : s = ⟨r.tables, s.blobs⟩ := by rw [← sound.tables]
  rw [resolve_eq sound, Records.answered, Records.answerTo]
  by_cases hblank : Text.isBlank call.resolution = true
  · rw [if_pos hblank, if_pos hblank]
    exact Prod.ext rfl kept
  rw [if_neg hblank, if_neg hblank]
  cases hconflict : r.conflict? call.conflict with
  | none => exact Prod.ext rfl kept
  | some conflict =>
    dsimp only
    cases hrequest : r.merge? conflict.merge with
    | none => exact Prod.ext rfl kept
    | some request =>
      dsimp only
      by_cases hover : request.status.isTerminal = true
      · rw [if_pos hover, if_pos hover]
        exact Prod.ext rfl kept
      rw [if_neg hover, if_neg hover]
      cases hsettled : conflict.resolution? with
      | none => rfl
      | some settled =>
        dsimp only
        by_cases hsame : settled = call.resolution
        · have hresolved : conflict.isResolved = true := by
            rw [Conflict.isResolved, hsettled]
            rfl
          rw [if_pos hsame, if_pos hsame, Records.settle_of_isResolved
            sound.merges.conflictIdsDiffer hconflict hresolved]
          exact Prod.ext rfl kept
        · rw [if_neg hsame, if_neg hsame]
          exact Prod.ext rfl kept

theorem Sound.answered (sound : s.Sound r) (call : Settlement) {now : Timestamp}
    (hnow : now.Writable) :
    Sound ⟨(r.answered call now).tables, s.blobs⟩ (r.answered call now) := by
  rw [Records.answered]
  split
  · exact sound.settle call.conflict call.resolution call.actor hnow
  · exact sound.tables ▸ sound

/-! ### Merging -/

theorem untimed_executed (request : MergeRequest) (status : BranchStatus) (actor : String)
    (now : Timestamp) (plan : MergePlan) :
    (r.executed request status actor now plan).untimed
      = r.untimed.executed request status actor now plan := by
  cases plan with
  | moveHead head => rfl
  | keepHead => rfl
  | commit new prepared =>
    have hrecord : (r.record (r.newVersion new prepared (some request.target)) now).untimed
        = r.untimed.record (r.newVersion new prepared (some request.target)) now := by
      have hbranch (name : String) (plan : PlanId) :
          r.untimed.branch? name plan = r.branch? name plan := rfl
      rw [Records.record, Records.record, hbranch]
      split <;> rfl
    exact congrArg (fun r => (r.complete request.id actor prepared.id now).setBranchStatus
      request.sourceBranch request.plan .merged now) hrecord

/-- A plan goes by the labels, and not by when they were given. -/
theorem planMerge_untimed (request : MergeRequest) (id actor : String) :
    s.untimed.planMerge stamp ⟨r.untimed.summary request, r.untimed.conflictsOf id⟩ actor
      = s.planMerge stamp ⟨r.summary request, r.conflictsOf id⟩ actor := by
  have hrulings : (r.untimed.conflictsOf id).map Conflict.ruling
      = (r.conflictsOf id).map Conflict.ruling := by
    rw [Records.conflictsOf_untimed, List.map_map]
    rfl
  have hmerged : s.untimed.mergedContent ⟨r.summary request, r.untimed.conflictsOf id⟩
      = s.mergedContent ⟨r.summary request, r.conflictsOf id⟩ := by
    rw [Store.mergedContent, Store.mergedContent]
    dsimp only
    rw [hrulings]
    rfl
  rw [Records.summary_untimed, planMerge, planMerge, hmerged]
  rfl

/-- Executing a request goes by the labels, and not by when they were given. -/
theorem Sound.execute_untimed (sound : s.Sound r) (fresh : stamp.Fresh s) (id actor : String) :
    (s.untimed.execute stamp id actor).1 = (s.execute stamp id actor).1
      ∧ (s.untimed.execute stamp id actor).2.untimed = (s.execute stamp id actor).2.untimed := by
  have again : s.untimed.untimed = s.untimed := by
    rw [sound.untimed.untimed_eq, sound.untimed_eq, Records.untimed_untimed]
  cases hrequest : r.merge? id with
  | none =>
    have hrequest' : r.untimed.merge? id = none := hrequest
    have hmissing : ∀ {t : Store} {r' : Records}, t.Sound r' → r'.merge? id = none →
        t.execute stamp id actor = (.error (.notFound .mergeRequest id), t) := by
      intro t r' sound' hnone
      rw [execute, sound'.tables, Records.mergeDetails_tables sound'.storable, hnone]
    rw [hmissing sound hrequest, hmissing sound.untimed hrequest']
    exact ⟨rfl, again⟩
  | some request =>
    have hrequest' : r.untimed.merge? id = some request := hrequest
    obtain ⟨target, plan, blobs, htarget, planned, hplan, hexecute⟩ :=
      execute_eq sound fresh hrequest actor
    obtain ⟨target', plan', blobs', htarget', planned', hplan', hexecute'⟩ :=
      execute_eq sound.untimed (Stamp.Fresh.untimed_iff.mpr fresh) hrequest' actor
    -- The target branch is one, and so is the plan.
    obtain rfl : target = target' := Option.some_inj.mp (htarget.symm.trans htarget')
    rw [planMerge_untimed, hplan] at hplan'
    obtain ⟨rfl, rfl⟩ := Prod.mk.inj (Except.ok.inj hplan')
    have hreads : plan.Reads s.untimed.tables request ↔ plan.Reads s.tables request := Iff.rfl
    rw [hexecute, hexecute', Records.countUnresolved_untimed]
    split
    · exact ⟨rfl, again⟩
    split
    · exact ⟨rfl, again⟩
    by_cases hread : plan.Reads s.tables request
    swap
    · rw [if_neg hread, if_neg (mt hreads.mp hread)]
      refine ⟨rfl, ?_⟩
      have hfailed : (r.fail id).untimed.untimed = (r.fail id).untimed := Records.untimed_untimed _
      rw [(sound.fail id).untimed_eq, (sound.untimed.fail id).untimed_eq]
      exact congrArg (fun failed : Records => Store.mk failed.tables s.blobs) hfailed
    rw [if_pos hread, if_pos (hreads.mpr hread)]
    split
    · have hmem : request ∈ r.merges := List.mem_of_find?_eq_some hrequest
      have hafter := sound.executed fresh hmem htarget planned
      have hafter' := sound.untimed.executed (Stamp.Fresh.untimed_iff.mpr fresh) hmem htarget'
        planned'
      refine ⟨rfl, ?_⟩
      rw [hafter.untimed_eq, hafter'.untimed_eq, untimed_executed, untimed_executed,
        Records.untimed_untimed]
    · exact ⟨rfl, again⟩

/-- Stores that are the same, times aside, execute a request alike. -/
theorem Sound.execute_congr {t : Store} {r' : Records} (sound : s.Sound r) (sound' : t.Sound r')
    (h : s.untimed = t.untimed) (fresh : stamp.Fresh s) (id actor : String) :
    (s.execute stamp id actor).1 = (t.execute stamp id actor).1
      ∧ (s.execute stamp id actor).2.untimed = (t.execute stamp id actor).2.untimed := by
  have fresh' : stamp.Fresh t := Stamp.Fresh.untimed_iff.mp (h ▸ Stamp.Fresh.untimed_iff.mpr fresh)
  have hs := sound.execute_untimed fresh id actor
  have ht := sound'.execute_untimed fresh' id actor
  rw [h] at hs
  exact ⟨hs.1.symm.trans ht.1, hs.2.symm.trans ht.2⟩

end Store

/-! ### Runs -/

namespace Repository

variable {repository : Repository}

/-- The repository once labels are given, one after the other, each under its stamp. -/
def settleAll (repository : Repository) : List (Stamp × Settlement) → Repository
  | [] => repository
  | (stamp, call) :: calls => (repository.perform stamp call.operation).2.settleAll calls

/-- How a conflict answers a label: by its own label and by the status of its request.  A label
that settles the conflict leaves everything else, and any other label leaves everything. -/
def AnswersLabels (repository : Repository) (id : String) (conflict : Conflict) : Prop :=
  ∃ summary, repository.store.tables.merge conflict.merge = .ok summary
    ∧ ∀ (stamp : Stamp) (resolution actor : String),
      repository.perform stamp (.resolve id resolution actor)
        = if Text.isBlank resolution then (.error (.invalid (.blank .resolution)), repository)
          else if summary.request.status.isTerminal then
            (.error (.mergeOver conflict.merge (label summary.request.status)), repository)
          else
            match conflict.resolution? with
            | some settled =>
              if settled = resolution then (.ok (.id id), repository)
              else (.error (.conflictResolved id settled), repository)
            | none =>
              (.ok (.id id), { repository with store :=
                ⟨(repository.store.tables.resolveConflict id resolution actor stamp.time).2,
                  repository.store.blobs⟩ })

theorem Reachable.answersLabels (h : Reachable repository) {id : String} {conflict : Conflict}
    (hconflict : repository.store.tables.conflict id = .ok conflict) :
    repository.AnswersLabels id conflict := by
  obtain ⟨r, sound⟩ := h.sound
  obtain ⟨summary, hsummary, hresolve⟩ := sound.resolve_of_conflict hconflict
  refine ⟨summary, hsummary, fun stamp resolution actor => ?_⟩
  rw [Repository.perform, Repository.write, hresolve]
  by_cases hblank : Text.isBlank resolution = true
  · rw [if_pos hblank, if_pos hblank]
    rfl
  by_cases hover : summary.request.status.isTerminal = true
  · rw [if_neg hblank, if_neg hblank, if_pos hover, if_pos hover]
    rfl
  rw [if_neg hblank, if_neg hblank, if_neg hover, if_neg hover]
  cases conflict.resolution? with
  | none => rfl
  | some settled =>
    dsimp only
    by_cases hsame : settled = resolution
    · rw [if_pos hsame, if_pos hsame]
      rfl
    · rw [if_neg hsame, if_neg hsame]
      rfl

theorem perform_settlement {r : Records} (sound : repository.store.Sound r) (stamp : Stamp)
    (call : Settlement) :
    repository.perform stamp call.operation
      = ((r.answerTo call).map .id, { repository with store :=
          ⟨(r.answered call stamp.time).tables, repository.store.blobs⟩ }) := by
  have hresolve : repository.store.resolve stamp call.conflict call.resolution call.actor = _ :=
    sound.resolve_answered call
  rw [Settlement.operation, perform, hresolve]
  rfl

theorem sound_perform_settlement {r : Records} (sound : repository.store.Sound r) {stamp : Stamp}
    (hwritable : stamp.time.Writable) (call : Settlement) :
    (repository.perform stamp call.operation).2.store.Sound (r.answered call stamp.time) := by
  rw [perform_settlement sound]
  exact sound.answered call hwritable

/-- A label is answered as it is before a label for another conflict. -/
theorem fst_perform_settlement {r : Records} (sound : repository.store.Sound r)
    {call other : Settlement} (h : call.conflict ≠ other.conflict) {stamp : Stamp}
    (hwritable : stamp.time.Writable) (stamp' stamp'' : Stamp) :
    ((repository.perform stamp other.operation).2.perform stamp' call.operation).1
      = (repository.perform stamp'' call.operation).1 := by
  rw [perform_settlement (sound_perform_settlement sound hwritable other),
    perform_settlement sound stamp'' call, Records.answerTo_answered h]

/-- What labels leave, times aside, depends on the labels and not on when they were given. -/
theorem exists_settleAll {r : Records} (sound : repository.store.Sound r) (now : Timestamp)
    {calls : List (Stamp × Settlement)} (writable : ∀ call ∈ calls, call.1.time.Writable) :
    ∃ r', (repository.settleAll calls).store.Sound r'
      ∧ r'.untimed = (calls.map Prod.snd).foldl (fun r call => (r.answered call now).untimed)
        r.untimed
      ∧ (repository.settleAll calls).untimed
        = ⟨repository.policy, r'.untimed.tables, repository.store.blobs⟩ := by
  induction calls generalizing repository r with
  | nil =>
    refine ⟨r, sound, rfl, ?_⟩
    rw [settleAll, untimed, sound.untimed_eq]
  | cons call calls ih =>
    obtain ⟨stamp, call⟩ := call
    have hnext :=
      sound_perform_settlement sound (writable (stamp, call) List.mem_cons_self) call
    obtain ⟨r', sound', hr', hafter⟩ :=
      ih hnext fun other hmem => writable other (List.mem_cons_of_mem _ hmem)
    refine ⟨r', sound', ?_, hafter.trans ?_⟩
    · rw [hr', List.map_cons, List.foldl_cons, Records.untimed_answered call stamp.time now]
    · rw [perform_settlement sound]

/-- Labels for conflicts that differ leave the same in any order, times aside. -/
theorem untimed_settleAll_perm {r : Records} (sound : repository.store.Sound r)
    {calls calls' : List (Stamp × Settlement)}
    (h : (calls.map Prod.snd).Perm (calls'.map Prod.snd))
    (ids : (calls.map fun call => call.2.conflict).Nodup)
    (writable : ∀ call ∈ calls, call.1.time.Writable)
    (writable' : ∀ call ∈ calls', call.1.time.Writable) :
    (repository.settleAll calls).untimed = (repository.settleAll calls').untimed := by
  have now : Timestamp := (Stamp.named "").time
  obtain ⟨r₁, -, hr₁, hafter⟩ := exists_settleAll sound now writable
  obtain ⟨r₂, -, hr₂, hafter'⟩ := exists_settleAll sound now writable'
  have hids : ((calls.map Prod.snd).map fun call : Settlement => call.conflict).Nodup := by
    rwa [List.map_map]
  rw [hafter, hafter', hr₁, hr₂, Records.foldl_answered_perm h hids]

/-- **Conflicts are settled once, and in any order.**  A conflict is settled by one call at most,
and answers every label by what it is.  Two labels for different conflicts are answered alike in
both orders, and leave the same, times aside.  So do the labels of a list in any order, and a
request that is executed after them comes to the same. -/
theorem Reachable.resolutions (h : Reachable repository) :
    (∀ id conflict, repository.store.tables.conflict id = .ok conflict →
      repository.SettledOnce id conflict ∧ repository.AnswersLabels id conflict)
      ∧ (∀ (x y : Settlement) (a b c d : Stamp), x.conflict ≠ y.conflict →
        a.time.Writable → b.time.Writable → c.time.Writable → d.time.Writable →
          (repository.perform a x.operation).1
              = ((repository.perform c y.operation).2.perform d x.operation).1
            ∧ ((repository.perform a x.operation).2.perform b y.operation).1
              = (repository.perform c y.operation).1
            ∧ ((repository.perform a x.operation).2.perform b y.operation).2.untimed
              = ((repository.perform c y.operation).2.perform d x.operation).2.untimed)
      ∧ ∀ calls calls' : List (Stamp × Settlement),
        (calls.map Prod.snd).Perm (calls'.map Prod.snd) →
        (calls.map fun call => call.2.conflict).Nodup →
        (∀ call ∈ calls, call.1.time.Writable) → (∀ call ∈ calls', call.1.time.Writable) →
          (repository.settleAll calls).untimed = (repository.settleAll calls').untimed
            ∧ ∀ (stamp : Stamp) (merge actor : String),
              stamp.Fresh (repository.settleAll calls).store →
              ((repository.settleAll calls).perform stamp (.execute merge actor)).1
                  = ((repository.settleAll calls').perform stamp (.execute merge actor)).1
                ∧ ((repository.settleAll calls).perform stamp (.execute merge actor)).2.untimed
                  = ((repository.settleAll calls').perform stamp (.execute merge actor)).2.untimed
                ∧ ∀ version,
                  ((repository.settleAll calls).perform stamp
                      (.execute merge actor)).2.store.content version
                    = ((repository.settleAll calls').perform stamp
                      (.execute merge actor)).2.store.content version := by
  obtain ⟨r, sound⟩ := h.sound
  refine ⟨fun id conflict hconflict => ⟨h.settledOnce hconflict, h.answersLabels hconflict⟩,
    fun x y a b c d hne ha hb hc hd => ?_, fun calls calls' hperm ids writable writable' => ?_⟩
  · refine ⟨(fst_perform_settlement sound hne hc d a).symm,
      fst_perform_settlement sound hne.symm ha b c, ?_⟩
    have hswap : ([(a, x), (b, y)].map Prod.snd).Perm ([(c, y), (d, x)].map Prod.snd) :=
      List.Perm.swap y x []
    have hids : ([(a, x), (b, y)].map fun call => call.2.conflict).Nodup :=
      List.nodup_cons.mpr ⟨mt List.mem_singleton.mp hne, List.nodup_singleton _⟩
    refine untimed_settleAll_perm sound hswap hids ?_ ?_
    · exact List.forall_mem_cons.mpr ⟨ha, List.forall_mem_singleton.mpr hb⟩
    · exact List.forall_mem_cons.mpr ⟨hc, List.forall_mem_singleton.mpr hd⟩
  · have hsame := untimed_settleAll_perm sound hperm ids writable writable'
    refine ⟨hsame, fun stamp merge actor fresh => ?_⟩
    have now : Timestamp := stamp.time
    obtain ⟨_, sound₁, -⟩ := exists_settleAll sound now writable
    obtain ⟨_, sound₂, -⟩ := exists_settleAll sound now writable'
    have hpolicy := congrArg Repository.policy hsame
    obtain ⟨hanswer, hstore⟩ :=
      sound₁.execute_congr sound₂ (congrArg Repository.store hsame) fresh merge actor
    have hafter : ((repository.settleAll calls).perform stamp (.execute merge actor)).2.untimed
        = ((repository.settleAll calls').perform stamp (.execute merge actor)).2.untimed :=
      congrArg₂ Repository.mk hpolicy hstore
    -- Contents are read of the blobs, which have no times.
    exact ⟨congrArg (Except.map Answer.outcome) hanswer, hafter, fun version =>
      congrArg (fun after => after.store.content version) hafter⟩

/-! ### Two sizes for a hall -/

/-- The hall gets a third size on a sketch, and a request to merge this, too. -/
def sketchSteps : List (String × Operation) :=
  resizeSteps ++ [("aside", .createBranch ⟨"sketch", hallPlan, "first", "clerk", none⟩),
    ("third", drawHall "sketch" Merge.greatSize),
    ("ask", .openMerge ⟨"sketch", "main", hallPlan, "clerk", none⟩)]

theorem ordered_sketchSteps : ∀ step ∈ sketchSteps, step.2.Ordered :=
  List.forall_mem_append.mpr ⟨ordered_resizeSteps, List.forall_mem_cons.mpr
    ⟨trivial, List.forall_mem_cons.mpr
      ⟨ordered_drawHall _ _, List.forall_mem_singleton.mpr trivial⟩⟩⟩

/-- Two requests to merge into one branch, each with a conflict about the hall. -/
def sketched : Repository := (empty .standard).play sketchSteps

/-- The hall is to get a size of its own from the draft. -/
def enlarge : Stamp × Settlement := (.named "enlarge", ⟨"open", sizeLabel, "clerk"⟩)

/-- The hall is to get nothing from the sketch. -/
def ignore : Stamp × Settlement := (.named "ignore", ⟨"ask", "target_wins", "clerk"⟩)

theorem answer_execute {stamp : Stamp} {merge actor : String} {outcome : MergeOutcome}
    (h : (repository.store.execute stamp merge actor).1 = .ok outcome) :
    (repository.perform stamp (.execute merge actor)).1 = .ok (.outcome outcome) := by
  rw [perform, write, h]
  rfl

/-- Whichever conflict is settled first, merging the draft comes to the same new version. -/
theorem resolutions_sketched :
    Reachable sketched
      ∧ ∃ outcome, outcome.createdVersion = true
        ∧ ((sketched.settleAll [enlarge, ignore]).perform (.named "run")
            (.execute "open" "clerk")).1 = .ok (.outcome outcome)
        ∧ ((sketched.settleAll [ignore, enlarge]).perform (.named "run")
            (.execute "open" "clerk")).1 = .ok (.outcome outcome)
        ∧ ((sketched.settleAll [enlarge, ignore]).perform (.named "run")
              (.execute "open" "clerk")).2.store.content outcome.head
          = ((sketched.settleAll [ignore, enlarge]).perform (.named "run")
              (.execute "open" "clerk")).2.store.content outcome.head := by
  have hruns : (empty .standard).admits sketchSteps = true
      ∧ Stamp.isNew "run" (sketched.settleAll [enlarge, ignore]).store = true
      ∧ ((sketched.settleAll [enlarge, ignore]).store.execute (.named "run") "open"
          "clerk").1.toOption.map (fun outcome => outcome.createdVersion) = some true := by
    decide +kernel
  obtain ⟨hnew, hrun, hcreates⟩ := hruns
  have hreachable : Reachable sketched := (Reachable.empty .standard).play hnew ordered_sketchSteps
  obtain ⟨outcome, hexecuted, hcreated⟩ := Option.map_eq_some_iff.mp hcreates
  have hfirst := answer_execute (eq_ok_of_toOption hexecuted)
  have henlarge : enlarge.1.time.Writable := Stamp.writable_named "enlarge"
  have hignore : ignore.1.time.Writable := Stamp.writable_named "ignore"
  obtain ⟨-, -, hlists⟩ := hreachable.resolutions
  obtain ⟨-, hexecute⟩ := hlists [enlarge, ignore] [ignore, enlarge] (List.Perm.swap _ _ [])
    (by decide)
    (List.forall_mem_cons.mpr ⟨henlarge, List.forall_mem_singleton.mpr hignore⟩)
    (List.forall_mem_cons.mpr ⟨hignore, List.forall_mem_singleton.mpr henlarge⟩)
  obtain ⟨hanswer, -, hcontent⟩ := hexecute (.named "run") "open" "clerk" (Stamp.fresh_named hrun)
  exact ⟨hreachable, outcome, hcreated, hfirst, hanswer.symm.trans hfirst, hcontent outcome.head⟩

/-- **A conflict does not always take the label that settled it again.**  Once its request is
completed, it takes none; and a blank label is not acceptable at any time. -/
theorem same_label_refused :
    Reachable ((empty .standard).play (resizeSteps ++ settleSteps "source_wins"))
      ∧ ∃ conflict,
        ((empty .standard).play (resizeSteps ++ settleSteps "source_wins")).store.tables.conflict
            "open" = .ok conflict
          ∧ conflict.resolution? = some "source_wins"
          ∧ ((empty .standard).play (resizeSteps ++ settleSteps "source_wins")).perform
              (.named "again") (.resolve "open" "source_wins" "clerk")
            = (.error (.mergeOver "open" "completed"),
                (empty .standard).play (resizeSteps ++ settleSteps "source_wins"))
          ∧ ((empty .standard).play (resizeSteps ++ settleSteps "source_wins")).perform
              (.named "again") (.resolve "open" " " "clerk")
            = (.error (.invalid (.blank .resolution)),
                (empty .standard).play (resizeSteps ++ settleSteps "source_wins")) := by
  generalize hsteps : resizeSteps ++ settleSteps "source_wins" = steps
  have hruns : (empty .standard).admits steps = true
      ∧ (((empty .standard).play steps).store.tables.conflict "open").toOption.map
        (fun conflict => (conflict.merge, conflict.resolution?)) = some ("open", some "source_wins")
      ∧ (((empty .standard).play steps).store.tables.merge "open").toOption.map
        (fun summary => summary.request.status) = some .completed := by
    rw [← hsteps]
    decide +kernel
  obtain ⟨hnew, hconflict, hmerge⟩ := hruns
  have hreachable : Reachable ((empty .standard).play steps) :=
    (Reachable.empty .standard).play hnew (hsteps ▸ List.forall_mem_append.mpr
      ⟨ordered_resizeSteps, ordered_settleSteps "source_wins"⟩)
  obtain ⟨conflict, hfound, hfacts⟩ := Option.map_eq_some_iff.mp hconflict
  obtain ⟨hid, hresolution⟩ := Prod.mk.inj hfacts
  have hconflict := eq_ok_of_toOption hfound
  obtain ⟨summary, hsummary, hanswers⟩ := hreachable.answersLabels hconflict
  rw [hid] at hsummary
  rw [hsummary] at hmerge
  have hstatus : summary.request.status = .completed := Option.some_inj.mp hmerge
  have hover : summary.request.status.isTerminal = true := by
    rw [hstatus]
    rfl
  have hnotBlank : Text.isBlank "source_wins" = false := by decide +kernel
  have hblank : Text.isBlank " " = true := by decide +kernel
  refine ⟨hreachable, conflict, hconflict, hresolution, ?_, ?_⟩
  · rw [hanswers, hnotBlank, if_neg Bool.false_ne_true, if_pos hover, hstatus, hid]
    rfl
  · rw [hanswers, hblank, if_pos rfl]

end Repository

end PlanHistory
