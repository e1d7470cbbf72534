/-
Conflicts mirror what comparing contents finds.

The conflicts of a request are read as they were found when it was opened: comparing the
contents of the versions that it recorded finds them again, in the order in which they are
listed, whatever was done since (`Store.Finds`).  The rows are sorted by object and then by
property, which is how divergences are found.

* **`Store.Sound.finds`** — in a sound store, comparing contents finds the conflicts;
* **`Repository.Reachable.mirrors`** — all listings of the conflicts of a request agree with
  what was found, now and later.
-/
import PlanHistory.Proofs.Repository.Progress

namespace PlanHistory

/-- Whether comparing the contents of the versions that a request recorded finds some
divergences: against the base if there is one. -/
def Store.Finds (s : Store) (request : MergeRequest) (found : List Divergence) : Prop :=
  ∃ source target, s.content request.source = .ok source ∧ s.content request.target = .ok target
    ∧ match request.base? with
      | some base => ∃ content, s.content base = .ok content
          ∧ found = Divergence.threeWay content source target
      | none => found = Divergence.twoWay source target

namespace Store

variable {s : Store} {r : Records} {request : MergeRequest}

theorem Sound.finds (sound : s.Sound r) (hmem : request ∈ r.merges) :
    s.Finds request ((r.conflictsOf request.id).map Conflict.divergence) := by
  -- The records keep what was compared in the order of rows, which is the order of reading.
  have hcompared := sound.merges.compared request hmem
  rw [← sound.conflictsOf_eq hmem] at hcompared
  obtain ⟨source, target, base?, hsource, htarget, hbase, hfound⟩ :=
    divergencesIn_eq_ok_iff.mp hcompared
  refine ⟨source, target, hsource, htarget, ?_⟩
  cases hb : request.base? with
  | none =>
    rw [hb] at hbase
    obtain rfl := Except.ok.inj hbase
    exact hfound.symm
  | some base =>
    rw [hb, baseContent] at hbase
    cases hcontent : Blobs.content base s.blobs with
    | error failure => simp [hcontent, Except.map] at hbase
    | ok content =>
      rw [hcontent] at hbase
      obtain rfl := Except.ok.inj hbase
      exact ⟨content, hcontent, hfound.symm⟩

/-- A request is listed among those of its plan and of its status. -/
theorem Sound.mem_mergesOf (sound : s.Sound r) (hmem : request ∈ r.merges)
    {status? : Option MergeStatus} (hstatus : ∀ status ∈ status?, status = request.status) :
    ∃ summaries, s.tables.mergesOf request.plan status? = .ok summaries
      ∧ r.summary request ∈ summaries := by
  rw [sound.tables, Records.mergesOf_tables sound.storable]
  refine ⟨_, rfl, List.mem_map_of_mem (List.mem_reverse.mpr (List.mem_filter.mpr ⟨hmem, ?_⟩))⟩
  rw [beq_self_eq_true, Bool.true_and]
  cases status? with
  | none => rfl
  | some status =>
    rw [hstatus status rfl]
    exact beq_self_eq_true _

/-- What is listed of a request is what is read of it. -/
theorem Sound.of_mem_mergesOf (sound : s.Sound r) {plan : PlanId} {status? : Option MergeStatus}
    {summaries : List MergeSummary} {summary : MergeSummary}
    (h : s.tables.mergesOf plan status? = .ok summaries) (hmem : summary ∈ summaries) :
    ∃ details, s.tables.mergeDetails summary.request.id = .ok details
      ∧ details.summary = summary := by
  rw [sound.tables, Records.mergesOf_tables sound.storable, Except.ok.injEq] at h
  subst h
  obtain ⟨request, hrequest, rfl⟩ := List.mem_map.mp hmem
  have hmerges := (List.mem_filter.mp (List.mem_reverse.mp hrequest)).1
  exact ⟨r.details request, sound.mergeDetails_of_mem hmerges, rfl⟩

/-- What opening a request that is answered leaves. -/
theorem Step.of_openMerge {r' : Records} {policy : Policy} {stamp : Stamp} {new : NewMerge}
    {receipt : MergeReceipt} {blobs : Blobs}
    (step : s.Step r policy stamp (.openMerge new) (.ok (.opened receipt)) r' blobs) :
    ∃ added found, added.id = stamp.id ∧ r' = r.addMerge added (stamp.conflicts found)
      ∧ receipt = ⟨stamp.id, .opened found, stamp.conflicts found⟩ := by
  cases step with
  | asked _ hquestion => simp [Operation.isQuestion] at hquestion
  | opened => exact ⟨_, _, rfl, rfl, rfl⟩

end Store

namespace Repository

variable {repository : Repository} {stamp : Stamp}

/-- What is read of a request right after it was opened is what its opener was told. -/
theorem Reachable.mergeDetails_of_opened (h : Reachable repository)
    (fresh : stamp.Fresh repository.store) {request : NewMerge} {receipt : MergeReceipt}
    (hopened : (repository.perform stamp (.openMerge request)).1 = .ok (.opened receipt)) :
    ∃ details,
      (repository.perform stamp (.openMerge request)).2.store.tables.mergeDetails receipt.merge
          = .ok details
        ∧ details.conflicts = receipt.conflicts
        ∧ details.summary.conflictIds = receipt.conflicts.map fun conflict => conflict.id := by
  obtain ⟨r, sound⟩ := h.sound
  have hread : (Operation.openMerge request).Ordered := trivial
  obtain ⟨r', sound', step⟩ := sound.step fresh hread
  rw [hopened] at step
  obtain ⟨added, found, hid, rfl, rfl⟩ := step.of_openMerge
  have hmem : added ∈ (r.addMerge added (stamp.conflicts found)).merges :=
    List.mem_append_right _ (List.mem_singleton_self added)
  -- No older conflict is of the new request, so that its conflicts are the new ones.
  have hconflicts : (r.addMerge added (stamp.conflicts found)).conflictsOf added.id
      = stamp.conflicts found := by
    rw [sound'.conflictsOf_eq hmem, hid]
    exact sound.filter_opened fresh found
  have hdetails := sound'.mergeDetails_of_mem hmem
  rw [hid] at hdetails
  exact ⟨_, hdetails, hconflicts,
    congrArg (List.map fun conflict : Conflict => conflict.id) hconflicts⟩

/-- **The conflicts of a request are what comparing the contents of its versions finds.**
They come in that order in the request, in its own list of their ids and in the lists of
requests.  Its opener was told of them in the order in which they are ever read. -/
theorem Reachable.mirrors (h : Reachable repository) :
    (∀ id, repository.store.tables.hasMerge id = true → ∃ details,
      repository.store.tables.mergeDetails id = .ok details
        ∧ repository.store.Finds details.request (details.conflicts.map Conflict.divergence)
        ∧ details.summary.conflictIds = details.conflicts.map (fun conflict => conflict.id)
        ∧ ∀ status?, (∀ status ∈ status?, status = details.request.status) → ∃ summaries,
          repository.store.tables.mergesOf details.request.plan status? = .ok summaries
            ∧ details.summary ∈ summaries)
      ∧ (∀ plan status? summaries, repository.store.tables.mergesOf plan status? = .ok summaries →
        ∀ summary ∈ summaries, ∃ details,
          repository.store.tables.mergeDetails summary.request.id = .ok details
            ∧ details.summary = summary)
      ∧ ∀ stamp request receipt later, stamp.Fresh repository.store →
        (repository.perform stamp (.openMerge request)).1 = .ok (.opened receipt) →
        Leads (repository.perform stamp (.openMerge request)).2 later → ∃ details,
          later.store.tables.mergeDetails receipt.merge = .ok details
            ∧ details.conflicts.map Conflict.asFound = receipt.conflicts.map Conflict.asFound
            ∧ details.summary.conflictIds = receipt.conflicts.map fun conflict => conflict.id := by
  obtain ⟨r, sound⟩ := h.sound
  refine ⟨fun id hid => ?_, fun plan status? summaries hlisted summary =>
    sound.of_mem_mergesOf hlisted, fun stamp request receipt later fresh hopened hleads => ?_⟩
  · obtain ⟨request, hrequest, hdetails⟩ := sound.exists_mergeDetails hid
    exact ⟨r.details request, hdetails, sound.finds hrequest, rfl,
      fun status? => sound.mem_mergesOf hrequest⟩
  · obtain ⟨first, hfirst, hconflicts, hids⟩ := h.mergeDetails_of_opened fresh hopened
    have hreachable := h.perform stamp (.openMerge request) fresh trivial
    obtain ⟨details, hdetails, hkept⟩ := hleads.kept hreachable hfirst
    refine ⟨details, hdetails, ?_, hkept.conflictIds.trans hids⟩
    rw [hkept.conflicts, hconflicts]

/-- The hall is drawn on two branches, in two sizes. -/
def drawSteps : List (String × Operation) :=
  hallSteps ++ [("other", drawHall "draft" Merge.largeSize)]

/-- What the conflict about the size is found and read as, once it is settled and merged. -/
theorem mirrors_draw :
    Reachable ((empty .standard).play drawSteps)
      ∧ ∃ receipt details,
        (((empty .standard).play drawSteps).perform (.named "open") (.openMerge mergeDraft)).1
            = .ok (.opened receipt)
          ∧ receipt.conflicts.length = 1
          ∧ ((((empty .standard).play drawSteps).perform (.named "open")
            (.openMerge mergeDraft)).2.play (settleSteps "source_wins")).store.tables.mergeDetails
              receipt.merge = .ok details
          ∧ details.conflicts.map Conflict.asFound = receipt.conflicts.map Conflict.asFound := by
  have hruns : (empty .standard).admits (drawSteps ++ ("open", .openMerge mergeDraft)
        :: settleSteps "source_wins") = true
      ∧ (match (((empty .standard).play drawSteps).perform (.named "open")
          (.openMerge mergeDraft)).1 with
        | .ok (.opened receipt) => receipt.conflicts.length == 1
        | _ => false) = true := by
    decide +kernel
  obtain ⟨hnew, hanswer⟩ := hruns
  rw [admits_append, Bool.and_eq_true] at hnew
  obtain ⟨hopen, hrest⟩ := Bool.and_eq_true_iff.mp hnew.2
  have hreachable : Reachable ((empty .standard).play drawSteps) :=
    (Reachable.empty .standard).play hnew.1 (List.forall_mem_append.mpr
      ⟨ordered_hallSteps, List.forall_mem_singleton.mpr (ordered_drawHall _ _)⟩)
  split at hanswer
  next receipt hopened =>
    obtain ⟨details, hdetails, hconflicts, -⟩ := hreachable.mirrors.2.2 _ mergeDraft receipt _
      (Stamp.fresh_named hopen) hopened (leads_play hrest (ordered_settleSteps "source_wins"))
    exact ⟨hreachable, receipt, details, hopened, beq_iff_eq.mp hanswer, hdetails, hconflicts⟩
  next => simp at hanswer

end Repository

end PlanHistory
