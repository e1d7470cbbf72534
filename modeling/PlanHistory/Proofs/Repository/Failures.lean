/-
Operations that fail.

An operation that fails leaves the repository as it was, whatever was stored before and
whatever it was asked: the tables are changed as a whole or not at all, and a blob that was
written is dropped again.  Only one thing may change.  A merge request that may be executed,
and whose execution fails in storage, is marked failed (`Repository.MarkedFailed`).

* **`Store.attemptMerge_error`**, **`Store.commit_error`** — no blob outlives a failure;
* **`Store.execute_error`** — what a failed execution leaves behind;
* **`Repository.perform_error`** — what any failed operation leaves behind.
-/
import PlanHistory.Proofs.Repository.Mergeable

namespace PlanHistory

/-! ### Reading a request whose status was set -/

/-- A text that reads as a value is the label of the value. -/
theorem Cell.label_of_labelled {α : Type} [Labelled α] {column : Nat} {text : String} {value : α}
    (h : Cell.labelled column text = .ok value) : label value = text := by
  rw [Cell.labelled, ofLabel] at h
  cases hfound : (ofLabel? text : Option α) with
  | none => simp [hfound] at h
  | some found =>
    have hlabel := List.find?_some hfound
    simp only [hfound, Except.ok.injEq] at h
    rw [← h]
    exact beq_iff_eq.mp hlabel

/-- Setting the status of a row sets that of the request which is read of it. -/
theorem MergeRow.read_withStatus {row : MergeRow} {request : MergeRequest}
    (h : MergeRow.read row = .ok request) (status : MergeStatus) :
    MergeRow.read { row with status := label status } = .ok { request with status } := by
  rw [MergeRow.read] at h
  obtain ⟨old, -, h⟩ := bind_eq_ok_iff.mp h
  obtain ⟨createdAt, hcreatedAt, h⟩ := bind_eq_ok_iff.mp h
  obtain ⟨mergedAt?, hmergedAt, h⟩ := bind_eq_ok_iff.mp h
  obtain rfl := Except.ok.inj h
  simp only [MergeRow.read, Cell.labelled_mergeStatus, hcreatedAt, hmergedAt]
  rfl

theorem MergeRow.status_of_read {row : MergeRow} {request : MergeRequest}
    (h : MergeRow.read row = .ok request) :
    row.status = label request.status ∧ row.id = request.id := by
  obtain ⟨status, hstatus, h⟩ := bind_eq_ok_iff.mp h
  obtain ⟨createdAt, -, h⟩ := bind_eq_ok_iff.mp h
  obtain ⟨mergedAt?, -, h⟩ := bind_eq_ok_iff.mp h
  obtain rfl := Except.ok.inj h
  exact ⟨(Cell.label_of_labelled hstatus).symm, rfl⟩

namespace Roll

variable {ρ : Type}

theorem rows_update (applies : ρ → Bool) (change : ρ → ρ) (roll : Roll ρ) :
    (roll.update applies change).2.rows
      = roll.rows.map fun row => if applies row then change row else row := by
  rw [rows, rows, update, List.map_map, List.map_map]
  refine List.map_congr_left fun entry _ => ?_
  rw [Function.comp_apply, Function.comp_apply]
  split <;> rfl

end Roll

namespace Tables

variable {tables : Tables} {id : String}

/-- The details of a request are what is read of its row and of the rows of its
conflicts. -/
theorem mergeDetails_eq_ok_iff {details : MergeDetails} :
    tables.mergeDetails id = .ok details
      ↔ ∃ row, tables.merges.rows.find? (fun row => row.id == id) = some row
        ∧ MergeRow.read row = .ok details.request
        ∧ readRows ConflictRow.readId (tables.conflictRows row.id)
          = .ok details.summary.conflictIds
        ∧ tables.conflictsOf id = .ok details.conflicts := by
  constructor
  -- Each reading that can fail did not.
  · intro h
    obtain ⟨summary, hsummary, h⟩ := bind_eq_ok_iff.mp h
    obtain ⟨conflicts, hconflicts, h⟩ := bind_eq_ok_iff.mp h
    obtain rfl := Except.ok.inj h
    have hmerge : tables.merge? id = .ok (some summary) := by
      rw [merge, present.eq_def] at hsummary
      split at hsummary
      next found hfound => rw [hfound, Except.ok.inj hsummary]
      all_goals simp at hsummary
    obtain ⟨request?, hrequest, hmerge⟩ := bind_eq_ok_iff.mp hmerge
    cases hfind : tables.merges.rows.find? (fun row => row.id == id) with
    | none =>
      rw [hfind] at hrequest
      obtain rfl := Except.ok.inj hrequest
      simp [pure, Except.pure] at hmerge
    | some row =>
      cases hread : MergeRow.read row with
      | error cell => simp [hfind, readRow?, readRow, hread, Except.map] at hrequest
      | ok request =>
        simp only [hfind, readRow?, readRow, hread, Except.map, Except.ok.injEq] at hrequest
        subst hrequest
        cases hids : readRows ConflictRow.readId (tables.conflictRows request.id) with
        | error fault => simp [withConflicts, hids, bind, Except.bind, Except.map] at hmerge
        | ok conflictIds =>
          simp only [withConflicts, hids, bind, Except.bind, Except.map, pure, Except.pure,
            Except.ok.injEq, Option.some.injEq] at hmerge
          subst hmerge
          refine ⟨row, rfl, hread, ?_, mapError_eq_ok_iff.mp hconflicts⟩
          rw [(MergeRow.status_of_read hread).2, hids]
  · rintro ⟨row, hfind, hread, hids, hconflicts⟩
    rw [(MergeRow.status_of_read hread).2] at hids
    obtain ⟨⟨request, conflictIds⟩, conflicts⟩ := details
    have hread : MergeRow.read row = .ok request := hread
    have hids : readRows ConflictRow.readId (tables.conflictRows request.id) = .ok conflictIds :=
      hids
    simp only [mergeDetails, merge, merge?, hfind, readRow?, readRow, hread, withConflicts, hids,
      hconflicts, Except.map, present, Except.mapError, bind, Except.bind, pure, Except.pure]

/-- A request that is not over is marked failed in its row, and read so. -/
theorem mergeDetails_setMergeStatus {details : MergeDetails}
    (h : tables.mergeDetails id = .ok details)
    (hopen : details.request.status.isTerminal = false) (status : MergeStatus) :
    (tables.setMergeStatus id status).2.mergeDetails id
      = .ok ⟨⟨{ details.request with status }, details.summary.conflictIds⟩,
          details.conflicts⟩ := by
  obtain ⟨row, hfind, hread, hids, hconflicts⟩ := mergeDetails_eq_ok_iff.mp h
  refine mergeDetails_eq_ok_iff.mpr ⟨{ row with status := label status }, ?_,
    MergeRow.read_withStatus hread status, hids, hconflicts⟩
  have hid := List.find?_some hfind
  obtain ⟨hstatus, -⟩ := MergeRow.status_of_read hread
  have happlies : (row.id == id && row.status != label MergeStatus.completed
      && row.status != label MergeStatus.failed) = true := by
    rw [hid, hstatus]
    cases hs : details.request.status with
    | completed => simp [hs, MergeStatus.isTerminal] at hopen
    | failed => simp [hs, MergeStatus.isTerminal] at hopen
    | pending => decide
    | inProgress => decide
    | conflict => decide
  -- Setting a status changes no id, so that the row is found where it was.
  have hids : (fun row : MergeRow => row.id == id) ∘ (fun row : MergeRow =>
      if row.id == id && row.status != label MergeStatus.completed
        && row.status != label MergeStatus.failed then { row with status := label status } else row)
        = fun row => row.id == id := by
    funext other
    rw [Function.comp_apply]
    split <;> rfl
  rw [setMergeStatus, Roll.rows_update, List.find?_map, hids, hfind, Option.map_some,
    if_pos happlies]

end Tables

/-! ### Stores after a failure -/

namespace Store

variable {s : Store} {stamp : Stamp} {failure : Failure}

theorem transact_error {α : Type} {change : Tables → Except Failure (α × Tables)}
    (h : (s.transact change).1 = .error failure) : (s.transact change).2 = s := by
  rw [transact] at h ⊢
  cases hchange : change s.tables with
  | error other => rfl
  | ok outcome => simp [hchange] at h

/-- What is prepared can be dropped again. -/
theorem discard_of_prepare {content : Json} {blobs after : Blobs} {prepared : Prepared}
    (h : prepare stamp content blobs = .ok (prepared, after)) :
    Blobs.discard prepared.id after = blobs := by
  rw [prepare] at h
  cases hwrite : Blobs.write stamp.id (Document.contentBytes content) blobs with
  | error fault => simp [hwrite] at h
  | ok written =>
    simp only [hwrite, Except.ok.injEq, Prod.mk.injEq] at h
    obtain ⟨rfl, rfl⟩ := h
    exact Blobs.discard_of_write hwrite

/-- A commit that fails leaves no blob. -/
theorem commit_error {content : Json} {request : NewVersion}
    (h : (s.commit stamp content request).1 = .error failure) :
    (s.commit stamp content request).2 = s := by
  rw [commit] at h ⊢
  cases hcheck : request.check content with
  | error other => rfl
  | ok =>
    cases hprepare : prepare stamp content s.blobs with
    | error other => rfl
    | ok written =>
      obtain ⟨prepared, blobs⟩ := written
      cases hrecord : s.tables.recordVersion request prepared stamp.time with
      | ok recorded => simp [hcheck, hprepare, hrecord] at h
      | error other =>
        dsimp only
        rw [hrecord]
        dsimp only
        rw [discard_of_prepare hprepare]

theorem restore_error {id branch author : String} {message? : Option String}
    (h : (s.restore stamp id branch author message?).1 = .error failure) :
    (s.restore stamp id branch author message?).2 = s := by
  rw [restore] at h ⊢
  cases hversion : s.tables.version id with
  | error other => rfl
  | ok source =>
    cases hcontent : s.content id with
    | error other => rfl
    | ok document =>
      rw [hversion, hcontent] at h
      exact commit_error h

/-- Planning writes a blob only if it commits, and then a new one. -/
theorem abandon_of_planMerge {details : MergeDetails} {actor : String} {plan : MergePlan}
    {blobs : Blobs} (h : s.planMerge stamp details actor = .ok (plan, blobs)) :
    abandon plan blobs = s.blobs := by
  rw [planMerge] at h
  dsimp only at h
  split at h
  · obtain ⟨source, -, h⟩ := bind_eq_ok_iff.mp h
    obtain ⟨rfl, rfl⟩ := Prod.mk.inj (Except.ok.inj h)
    rfl
  · obtain ⟨⟨merged, source, target⟩, -, h⟩ := bind_eq_ok_iff.mp h
    dsimp only at h
    split at h
    · obtain ⟨rfl, rfl⟩ := Prod.mk.inj (Except.ok.inj h)
      rfl
    · split at h
      · obtain ⟨rfl, rfl⟩ := Prod.mk.inj (Except.ok.inj h)
        rfl
      · obtain ⟨⟨⟩, -, h⟩ := bind_eq_ok_iff.mp h
        obtain ⟨⟨prepared, written⟩, hprepare, h⟩ := bind_eq_ok_iff.mp h
        obtain ⟨rfl, rfl⟩ := Prod.mk.inj (Except.ok.inj h)
        exact discard_of_prepare hprepare

/-- A merge that fails moves no head and leaves no blob. -/
theorem attemptMerge_error {details : MergeDetails} {actor : String}
    (h : (s.attemptMerge stamp details actor).1 = .error failure) :
    (s.attemptMerge stamp details actor).2 = s := by
  rw [attemptMerge] at h ⊢
  cases hplan : s.planMerge stamp details actor with
  | error other => rfl
  | ok planned =>
    obtain ⟨plan, blobs⟩ := planned
    cases happly : s.tables.applyMerge details.request plan actor stamp.time with
    | ok applied => simp [hplan, happly] at h
    | error other =>
      dsimp only
      rw [happly]
      dsimp only
      rw [abandon_of_planMerge hplan]

/-- What an execution that fails leaves behind: the store as it was, but for the status of
a request that may be executed when storage fails. -/
theorem execute_error {id actor : String} (h : (s.execute stamp id actor).1 = .error failure) :
    (s.execute stamp id actor).2
      = match s.tables.mergeDetails id with
        | .error _ => s
        | .ok details =>
          match executable id details with
          | .error _ => s
          | .ok () =>
            if failure.isStorage then
              { s with tables := (s.tables.setMergeStatus id .failed).2 }
            else s := by
  rw [execute] at h ⊢
  -- The store is marked only after an attempt, and an attempt that fails left it as it was.
  cases hdetails : s.tables.mergeDetails id with
  | error other => rfl
  | ok details =>
    cases hexecutable : executable id details with
    | error other => simp only [hexecutable]
    | ok =>
      simp only [hdetails, hexecutable] at h ⊢
      have hkept : (s.attemptMerge stamp details actor).1 = .error failure →
          (s.attemptMerge stamp details actor).2 = s := attemptMerge_error
      cases hattempt : s.attemptMerge stamp details actor with
      | mk result after =>
        rw [hattempt] at h hkept
        cases result with
        | ok outcome => simp at h
        | error other =>
          dsimp only at h hkept ⊢
          have hsame : other = failure := by
            split at h <;> exact Except.error.inj h
          subst hsame
          rw [hkept rfl]
          split <;> rfl

end Store

/-! ### Repositories after a failure -/

namespace Repository

variable {repository : Repository} {stamp : Stamp} {operation : Operation} {failure : Failure}

/-- Whether a request is marked failed, and nothing else is changed. -/
structure MarkedFailed (before after : Repository) (id : String) (details : MergeDetails) :
    Prop where
  /-- The request is read as before, but for its status. -/
  request : after.store.tables.mergeDetails id
    = .ok ⟨⟨{ details.request with status := .failed }, details.summary.conflictIds⟩,
        details.conflicts⟩
  /-- No other request is changed, and none is added or removed. -/
  rows : List.Forall₂ (fun old new => new = old ∨ old.row.id = id
      ∧ new = { old with row := { old.row with status := label MergeStatus.failed } })
    before.store.tables.merges.entries after.store.tables.merges.entries
  last : after.store.tables.merges.last = before.store.tables.merges.last
  /-- The policy, the blobs and the other tables are as they were. -/
  others : after = { before with store := { before.store with tables :=
    { before.store.tables with merges := after.store.tables.merges } } }

theorem markedFailed_setMergeStatus {id : String} {details : MergeDetails}
    (hdetails : repository.store.tables.mergeDetails id = .ok details)
    (hexecutable : Store.executable id details = .ok ()) :
    MarkedFailed repository { repository with store := { repository.store with
      tables := (repository.store.tables.setMergeStatus id .failed).2 } } id details := by
  have hopen : details.request.status.isTerminal = false := by
    rw [Store.executable] at hexecutable
    split at hexecutable
    next => simp at hexecutable
    next hopen => exact Bool.eq_false_iff.mpr hopen
  refine ⟨Tables.mergeDetails_setMergeStatus hdetails hopen .failed, ?_, rfl, rfl⟩
  refine List.forall₂_map_right_iff.mpr (List.forall₂_same.mpr fun entry _ => ?_)
  split
  next happlies =>
    simp only [Bool.and_eq_true, beq_iff_eq] at happlies
    exact Or.inr ⟨happlies.1.1, rfl⟩
  next => exact Or.inl rfl

theorem write_error {α : Type} {answer : α → Answer} {result : Except Failure α × Store}
    (h : (repository.write answer result).1 = .error failure)
    (kept : result.1 = .error failure → result.2 = repository.store) :
    (repository.write answer result).2 = repository := by
  rw [write] at h ⊢
  cases hresult : result.1 with
  | ok value => simp [hresult, Except.map] at h
  | error other =>
    rw [hresult] at h
    rw [kept (hresult.trans (congrArg Except.error (Except.error.inj h)))]

/-- **An operation that fails leaves the repository as it was.**  The one exception is a
merge request that may be executed and whose execution fails in storage: the request is
marked failed. -/
theorem perform_error (h : (repository.perform stamp operation).1 = .error failure) :
    (∀ id actor details, operation = .execute id actor →
      repository.store.tables.mergeDetails id = .ok details →
      Store.executable id details = .ok () → failure.isStorage = true →
        MarkedFailed repository (repository.perform stamp operation).2 id details)
      ∧ ((∀ id actor details, operation = .execute id actor →
          repository.store.tables.mergeDetails id = .ok details →
          Store.executable id details = .ok () → failure.isStorage = false) →
        (repository.perform stamp operation).2 = repository) := by
  cases operation with
  | execute id actor =>
    have hexecute : (repository.store.execute stamp id actor).1 = .error failure := by
      cases hresult : (repository.store.execute stamp id actor).1 with
      | ok outcome => simp [perform, write, hresult, Except.map] at h
      | error other =>
        simp only [perform, write, hresult, Except.map, Except.error.injEq] at h
        rw [h]
    have hafter := Store.execute_error hexecute
    constructor
    · rintro _ _ details heq hdetails hexecutable hstorage
      obtain ⟨rfl, rfl⟩ := Operation.execute.inj heq
      simp only [hdetails, hexecutable, hstorage, if_true] at hafter
      rw [perform, write, hafter]
      exact markedFailed_setMergeStatus hdetails hexecutable
    · intro hrefused
      rw [perform, write, hafter]
      cases hdetails : repository.store.tables.mergeDetails id with
      | error other => rfl
      | ok details =>
        cases hexecutable : Store.executable id details with
        | error other => simp only [hexecutable]
        | ok =>
          have hstorage := hrefused id actor details rfl hdetails hexecutable
          simp only [hexecutable, hstorage, Bool.false_eq_true, if_false]
  | commit content request =>
    exact ⟨by simp, fun _ => write_error h Store.commit_error⟩
  | restore version branch author message? =>
    exact ⟨by simp, fun _ => write_error h Store.restore_error⟩
  | createBranch request => exact ⟨by simp, fun _ => write_error h Store.transact_error⟩
  | updateHead name plan expected head =>
    exact ⟨by simp, fun _ => write_error h Store.transact_error⟩
  | openMerge request => exact ⟨by simp, fun _ => write_error h Store.transact_error⟩
  | resolve conflict resolution actor =>
    exact ⟨by simp, fun _ => write_error h Store.transact_error⟩
  | addNote request => exact ⟨by simp, fun _ => write_error h Store.transact_error⟩
  | addComment request => exact ⟨by simp, fun _ => write_error h Store.transact_error⟩
  -- Opening under another policy does not fail, and the other operations only read.
  | reopen policy => simp [perform] at h
  | _ => exact ⟨by simp, fun _ => rfl⟩

/-- The repository once the bytes of a version were replaced from outside. -/
def overwritten (id : String) (bytes : ByteArray) (repository : Repository) : Repository :=
  { repository with store := { repository.store with
    blobs := Keyed.insert id bytes repository.store.blobs } }

/-- A request to merge a draft whose first version is no document any more. -/
def damagedDraft : Repository :=
  ((empty .standard).play draftSteps).overwritten "first" "hall".toUTF8

theorem perform_error_damagedDraft : ∃ details,
    damagedDraft.store.tables.mergeDetails "open" = .ok details
      ∧ Store.executable "open" details = .ok ()
      ∧ (damagedDraft.perform (.named "run") (.execute "open" "clerk")).1
        = .error (.storage .unreadableContent)
      ∧ MarkedFailed damagedDraft (damagedDraft.perform (.named "run") (.execute "open" "clerk")).2
        "open" details := by
  have hruns : (damagedDraft.store.tables.mergeDetails "open").toOption.map
        (Store.executable "open") = some (.ok ())
      ∧ (match (damagedDraft.perform (.named "run") (.execute "open" "clerk")).1 with
        | .error failure => some failure
        | .ok _ => none) = some (.storage .unreadableContent) := by
    decide +kernel
  obtain ⟨hexecutable, hfailure⟩ := hruns
  obtain ⟨details, hdetails, hexecutable⟩ := Option.map_eq_some_iff.mp hexecutable
  have hdetails := eq_ok_of_toOption hdetails
  have hanswer : (damagedDraft.perform (.named "run") (.execute "open" "clerk")).1
      = .error (.storage .unreadableContent) := by
    split at hfailure
    next failure hfailed => rw [hfailed, Option.some_inj.mp hfailure]
    next => simp at hfailure
  exact ⟨details, hdetails, hexecutable, hanswer,
    (perform_error hanswer).1 "open" "clerk" details rfl hdetails hexecutable rfl⟩

end Repository

end PlanHistory
