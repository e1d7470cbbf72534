/-
Which merge requests are executed.

A request of a reachable repository is executed exactly if it may be (`Tables.Mergeable`), and
the row that its plan looks at is read (`Store.readsPlan`).  It may be executed if it is there
and not over, its conflicts are settled, and the target branch is where it was when the request
was opened.  Otherwise it is refused for the first reason that applies, and nothing changes but
for a row that is not read, which fails the request:
**`Repository.Reachable.execute_answer`**.
-/
import PlanHistory.Proofs.Repository.Progress

namespace PlanHistory

/-- Whether a merge request may be executed. -/
def Tables.Mergeable (tables : Tables) (id : String) : Prop :=
  ∃ details target, tables.mergeDetails id = .ok details
    ∧ tables.branch details.request.targetBranch details.request.plan = .ok target
    ∧ details.request.status.isTerminal = false
    ∧ details.unresolved = 0
    ∧ target.head = details.request.target

instance (tables : Tables) (id : String) : Decidable (tables.Mergeable id) :=
  match hdetails : tables.mergeDetails id with
  | .error _ => isFalse fun ⟨_, _, hok, _⟩ => nomatch hdetails.symm.trans hok
  | .ok details =>
    match hbranch : tables.branch details.request.targetBranch details.request.plan with
    | .error _ => isFalse fun ⟨_, _, hok, hfound, _⟩ => by
        obtain rfl := Except.ok.inj (hdetails.symm.trans hok)
        exact nomatch hbranch.symm.trans hfound
    | .ok target =>
      decidable_of_iff (details.request.status.isTerminal = false ∧ details.unresolved = 0
          ∧ target.head = details.request.target) <| by
        constructor
        · intro h
          exact ⟨details, target, hdetails, hbranch, h⟩
        · rintro ⟨found, branch, hok, hfound, h⟩
          obtain rfl := Except.ok.inj (hdetails.symm.trans hok)
          obtain rfl := Except.ok.inj (hbranch.symm.trans hfound)
          exact h

namespace Store

variable {s : Store} {r : Records} {id : String}

/-- A request that is not there may not be executed. -/
theorem Sound.not_mergeable (sound : s.Sound r) (hrequest : r.merge? id = none) :
    ¬ s.tables.Mergeable id := by
  rintro ⟨details, target, hdetails, -⟩
  rw [sound.tables, Records.mergeDetails_tables sound.storable, hrequest] at hdetails
  simp at hdetails

/-- When a request that is there may be executed. -/
theorem Sound.mergeable_iff (sound : s.Sound r) {request : MergeRequest} {target : Branch}
    (hrequest : r.merge? id = some request)
    (htarget : r.branch? request.targetBranch request.plan = some target) :
    s.tables.Mergeable id ↔ request.status.isTerminal = false
      ∧ r.tables.countUnresolved id = 0 ∧ target.head = request.target := by
  have hdetails : s.tables.mergeDetails id = .ok ⟨r.summary request, r.conflictsOf id⟩ := by
    rw [sound.tables, Records.mergeDetails_tables sound.storable, hrequest]
  have hbranch : s.tables.branch request.targetBranch request.plan = .ok target :=
    sound.branch_eq_ok htarget
  rw [Records.countUnresolved_tables]
  constructor
  · rintro ⟨details, found, hok, hfound, hmay⟩
    obtain rfl := Except.ok.inj (hdetails.symm.trans hok)
    obtain rfl := Except.ok.inj (hbranch.symm.trans hfound)
    exact hmay
  · intro hmay
    exact ⟨_, target, hdetails, hbranch, hmay⟩

end Store

namespace Repository

variable {repository : Repository} {stamp : Stamp}

/-- A request whose plan looks at a row that is not read is excused. -/
theorem excuses_of_readsPlan {r : Records} (sound : repository.store.Sound r)
    (fresh : stamp.Fresh repository.store) {id actor : String} {request : MergeRequest}
    (hrequest : r.merge? id = some request)
    (hunread : repository.store.readsPlan stamp id actor = false) :
    repository.store.tables.Excuses request := by
  obtain ⟨target, plan, blobs, -, planned, hplan, -⟩ :=
    Store.execute_eq sound fresh hrequest actor
  obtain rfl := Records.id_of_merge? hrequest
  have hmem : request ∈ r.merges := List.mem_of_find?_eq_some hrequest
  rw [Store.readsPlan_of_plan (sound.mergeDetails_of_mem hmem) hplan, decide_eq_false_iff_not]
    at hunread
  exact sound.excuses_tables (sound.excuses fresh hmem planned hplan hunread)

/-- **A merge request is executed exactly if it may be and the row that its plan looks at is read,
and is refused otherwise.**  It is refused for the first reason that applies.  The row can be
unread only if it is that of a version that the request records, or under the fast-forward
strategy of any version of the plan; this marks the request failed, and all other refusals leave
the repository. -/
theorem Reachable.execute_answer (h : Reachable repository) (fresh : stamp.Fresh repository.store)
    (id actor : String) :
    ((∃ answer, (repository.perform stamp (.execute id actor)).1 = .ok answer)
        ↔ repository.store.tables.Mergeable id
          ∧ repository.store.readsPlan stamp id actor = true)
      ∧ (repository.store.tables.hasMerge id = false →
        repository.perform stamp (.execute id actor)
          = (.error (.notFound .mergeRequest id), repository))
      ∧ (repository.store.tables.hasMerge id = true → ∃ details target outcome after,
        repository.store.tables.mergeDetails id = .ok details
          ∧ repository.store.tables.branch details.request.targetBranch details.request.plan
            = .ok target
          ∧ repository.perform stamp (.execute id actor)
            = (if details.request.status.isTerminal then
                (.error (.mergeOver id (label details.request.status)), repository)
              else if details.unresolved ≠ 0 then
                (.error (.unresolved id details.unresolved), repository)
              else if repository.store.readsPlan stamp id actor = false then
                (.error .illegible, { repository with
                  store.tables := (repository.store.tables.setMergeStatus id .failed).2 })
              else if target.head ≠ details.request.target then
                (.error (.headMoved details.request.targetBranch details.request.target
                  target.head), repository)
              else (.ok (.outcome outcome), after))
          ∧ (repository.store.readsPlan stamp id actor = false →
            repository.store.tables.Excuses details.request)) := by
  obtain ⟨r, sound⟩ := h.sound
  have hmerge : repository.store.tables.hasMerge id = (r.merge? id).isSome := by
    rw [sound.tables, Records.hasMerge_tables]
  have hdetails := Records.mergeDetails_tables sound.storable id
  rw [← sound.tables] at hdetails
  rw [hmerge]
  cases hrequest : r.merge? id with
  | none =>
    rw [hrequest] at hdetails
    have hrefused : repository.perform stamp (.execute id actor)
        = (.error (.notFound .mergeRequest id), repository) := by
      rw [Repository.perform, write, Store.execute, hdetails]
      rfl
    rw [hrefused]
    exact ⟨by simp [sound.not_mergeable hrequest], fun _ => rfl, by simp⟩
  | some request =>
    rw [hrequest] at hdetails
    obtain ⟨target, outcome, after, htarget, hperform⟩ :=
      perform_execute sound fresh hrequest actor
    rw [sound.mergeable_iff hrequest htarget]
    have hunresolved : (MergeDetails.mk (r.summary request) (r.conflictsOf id)).unresolved
        = r.tables.countUnresolved id := (Records.countUnresolved_tables id).symm
    refine ⟨?_, by simp, fun _ => ⟨_, target, outcome, after, hdetails,
      sound.branch_eq_ok htarget, ?_, excuses_of_readsPlan sound fresh hrequest⟩⟩
    · rw [hperform]
      split_ifs with hover hopen hunread hhead
      · simp [hover]
      · simp [hopen]
      · simp [hunread]
      · simp [hhead]
      · exact ⟨fun _ => ⟨⟨Bool.eq_false_iff.mpr hover, not_not.mp hopen, not_not.mp hhead⟩,
          Bool.eq_true_of_not_eq_false hunread⟩, fun _ => ⟨_, rfl⟩⟩
    · rw [hunresolved]
      exact hperform

/-- A request to merge a draft on which nothing was drawn yet. -/
def draftSteps : List (String × Operation) :=
  hallSteps ++ [("open", .openMerge mergeDraft)]

theorem execute_answer_draft :
    Reachable ((empty .standard).play draftSteps)
      ∧ (Stamp.named "run").Fresh ((empty .standard).play draftSteps).store
      ∧ ((∃ answer, (((empty .standard).play draftSteps).perform (.named "run")
          (.execute "open" "clerk")).1 = .ok answer)
        ↔ ((empty .standard).play draftSteps).store.tables.Mergeable "open"
          ∧ ((empty .standard).play draftSteps).store.readsPlan (.named "run") "open" "clerk"
            = true) := by
  have hreachable : Reachable ((empty .standard).play draftSteps) :=
    (Reachable.empty .standard).play (by decide +kernel)
      (List.forall_mem_append.mpr ⟨ordered_hallSteps, List.forall_mem_singleton.mpr trivial⟩)
  have hfresh : (Stamp.named "run").Fresh ((empty .standard).play draftSteps).store :=
    Stamp.fresh_named (by decide +kernel)
  exact ⟨hreachable, hfresh, (hreachable.execute_answer hfresh "open" "clerk").1⟩

/-- A request that may be executed fails in storage where the head of its source is not read. -/
theorem mergeable_unreadDraft :
    Reachable unreadDraft
      ∧ (Stamp.named "run").Fresh unreadDraft.store
      ∧ unreadDraft.store.tables.Mergeable "open"
      ∧ ∃ failure, (unreadDraft.perform (.named "run") (.execute "open" "clerk")).1 = .error failure
        ∧ failure.isStorage = true := by
  obtain ⟨-, -, -, -, hhead, -⟩ := unreadDraft_facts
  obtain ⟨details, hdetails, hname, hplan, htarget, hstatus, hsettled⟩ :=
    exists_request_unreadDraft
  obtain ⟨branch, hbranch, hbranchHead⟩ := exists_branch hhead
  have hfails := congrArg Prod.fst execute_unreadDraft
  refine ⟨reachable_unreadDraft, fresh_unreadDraft, ⟨details, branch, hdetails, ?_, ?_, hsettled,
    hbranchHead.trans htarget.symm⟩, .illegible, hfails, rfl⟩
  · rw [hname, hplan]
    exact hbranch
  · rw [hstatus]
    rfl

end Repository

end PlanHistory
