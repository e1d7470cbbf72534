/-
Conflicts are settled once.

A conflict is opened with nothing that settles it.  Only one call ever changes this: the first
that gives the conflict a label that is not blank, before its request is over
(`Repository.Settles`).  From then on the label, who gave it and when stay.

* **`Store.Step.conflict_cases`** — what one step does to the conflict of an id;
* **`Repository.Reachable.conflict_cases`** — the same of what is read before and after;
* **`Repository.Reachable.settledOnce`** — how a conflict came to be what it is, and what may
  become of it;
* **`Store.Sound.resolve_of_conflict`** — how a conflict answers a label.
-/
import PlanHistory.Proofs.Repository.Progress

namespace PlanHistory

namespace Conflict

/-- Whether nothing settles a conflict, and nobody and no time is told of. -/
def IsOpen (conflict : Conflict) : Prop :=
  conflict.resolution? = none ∧ conflict.resolvedBy? = none ∧ conflict.resolvedAt? = none

/-- A conflict with what settles it. -/
def settled (conflict : Conflict) (resolution actor : String) (now : Timestamp) : Conflict :=
  { conflict with
    resolution? := some resolution
    resolvedBy? := some actor
    resolvedAt? := some now }

end Conflict

/-! ### One step -/

namespace Records

variable {r r' : Records}

/-- Whether every conflict without a label is open. -/
def OpenUntilSettled (r : Records) : Prop :=
  ∀ id conflict, r.conflict? id = some conflict → conflict.resolution? = none → conflict.IsOpen

theorem id_of_conflict? {id : String} {conflict : Conflict}
    (h : r.conflict? id = some conflict) : conflict.id = id := by
  have hid := List.find?_some h
  rwa [beq_iff_eq] at hid

theorem conflict?_settle (id resolution actor : String) (now : Timestamp) (other : String) :
    (r.settle id resolution actor now).conflict? other
      = (r.conflict? other).map (settledConflict id resolution actor now) :=
  conflict?_map (id_settledConflict id resolution actor now) other

/-- A conflict of another id stays. -/
theorem conflict?_settle_of_ne {id other : String} (h : other ≠ id) (resolution actor : String)
    (now : Timestamp) : (r.settle id resolution actor now).conflict? other = r.conflict? other := by
  rw [conflict?_settle]
  cases hother : r.conflict? other with
  | none => rfl
  | some conflict =>
    have hid : (conflict.id == id) = false := by
      rw [id_of_conflict? hother, beq_eq_false_iff_ne]
      exact h
    rw [Option.map_some, settledConflict, hid, Bool.false_and, if_neg Bool.false_ne_true]

/-- The conflict that is settled is found with its label. -/
theorem conflict?_settle_self {id : String} {conflict : Conflict}
    (h : r.conflict? id = some conflict) (hopen : conflict.resolution? = none)
    (resolution actor : String) (now : Timestamp) :
    (r.settle id resolution actor now).conflict? id
      = some (conflict.settled resolution actor now) := by
  have hid : (conflict.id == id) = true := beq_iff_eq.mpr (id_of_conflict? h)
  rw [conflict?_settle, h, Option.map_some, settledConflict, hid, hopen, Option.isNone_none,
    Bool.and_self, if_pos rfl]
  rfl

end Records

namespace Store

variable {s : Store} {r r' : Records} {policy : Policy} {stamp : Stamp} {operation : Operation}
  {answer : Except Failure Answer} {blobs : Blobs}

/-- A step leaves the conflict of an id, or opens it, or settles it by a label that is not
blank, while its request is not over. -/
theorem Step.conflict_cases (step : s.Step r policy stamp operation answer r' blobs)
    (id : String) :
    r'.conflict? id = r.conflict? id
      ∨ (r.conflict? id = none ∧ ∀ conflict, r'.conflict? id = some conflict → conflict.IsOpen)
      ∨ ∃ conflict request resolution actor, r.conflict? id = some conflict
        ∧ conflict.resolution? = none ∧ r.merge? conflict.merge = some request
        ∧ request.status.isTerminal = false ∧ Text.isBlank resolution = false
        ∧ operation = .resolve id resolution actor ∧ answer = .ok (.id id)
        ∧ r'.conflict? id = some (conflict.settled resolution actor stamp.time) := by
  have kept (hconflicts : r'.conflicts = r.conflicts) : r'.conflict? id = r.conflict? id := by
    rw [Records.conflict?, Records.conflict?, hconflicts]
  induction step with
  | committed => exact Or.inl (kept (Records.conflicts_record _ _))
  | restored _ _ _ ih =>
    refine (ih kept).imp_right (Or.imp_right ?_)
    rintro ⟨conflict, request, resolution, actor, -, -, -, -, -, ⟨⟩, -⟩
  | @opened request source target base? found =>
    cases hfound : r.conflict? id with
    | some conflict =>
      refine Or.inl ?_
      rw [Records.conflict?] at hfound ⊢
      rw [Records.addMerge, List.find?_append, hfound, Option.some_or]
    | none =>
      refine Or.inr (Or.inl ⟨rfl, fun conflict hconflict => ?_⟩)
      rw [Records.conflict?] at hfound hconflict
      rw [Records.addMerge, List.find?_append, hfound, Option.none_or] at hconflict
      obtain ⟨i, divergence, -, rfl⟩ := Stamp.mem_conflicts (List.mem_of_find?_eq_some hconflict)
      exact ⟨rfl, rfl, rfl⟩
  | @settled other resolution actor conflict request hblank hconflict hrequest hopen hnone =>
    by_cases hid : id = other
    · subst hid
      exact Or.inr (Or.inr ⟨conflict, request, resolution, actor, hconflict, hnone, hrequest, hopen,
        hblank, rfl, rfl, Records.conflict?_settle_self hconflict hnone resolution actor _⟩)
    · exact Or.inl (Records.conflict?_settle_of_ne hid resolution actor _)
  | @executed request target actor plan =>
    exact Or.inl (kept (conflicts_carriedOut target.status stamp.time plan))
  | _ => exact Or.inl (kept rfl)

/-- A step keeps conflicts without a label open. -/
theorem Step.openUntilSettled (step : s.Step r policy stamp operation answer r' blobs)
    (h : r.OpenUntilSettled) : r'.OpenUntilSettled := by
  intro id conflict hconflict hnone
  rcases step.conflict_cases id with hsame | ⟨-, hopened⟩
    | ⟨before, request, resolution, actor, -, -, -, -, -, -, -, hsettled⟩
  · exact h id conflict (hsame ▸ hconflict) hnone
  · exact hopened conflict hconflict
  · obtain rfl := Option.some_inj.mp (hsettled.symm.trans hconflict)
    cases hnone

/-! ### What is read of a conflict -/

theorem Sound.conflict_eq_ok_iff (sound : s.Sound r) {id : String} {conflict : Conflict} :
    s.tables.conflict id = .ok conflict ↔ r.conflict? id = some conflict := by
  rw [sound.tables, Records.conflict_tables sound.storable]
  cases r.conflict? id <;> simp

/-- A conflict answers a label by its own label and by the status of its request.  Only if it
is open and its request is not over, a label that is not blank settles it. -/
theorem Sound.resolve_of_conflict (sound : s.Sound r) {id : String} {conflict : Conflict}
    (h : s.tables.conflict id = .ok conflict) :
    ∃ summary, s.tables.merge conflict.merge = .ok summary
      ∧ ∀ (stamp : Stamp) (resolution actor : String), s.resolve stamp id resolution actor
        = if Text.isBlank resolution then (.error (.invalid (.blank .resolution)), s)
          else if summary.request.status.isTerminal then
            (.error (.mergeOver conflict.merge (label summary.request.status)), s)
          else
            match conflict.resolution? with
            | some settled =>
              if settled = resolution then (.ok id, s)
              else (.error (.conflictResolved id settled), s)
            | none =>
              (.ok id, ⟨(s.tables.resolveConflict id resolution actor stamp.time).2, s.blobs⟩) := by
  have hconflict := sound.conflict_eq_ok_iff.mp h
  obtain ⟨request, hmem, hid⟩ :=
    sound.merges.owners conflict (List.mem_of_find?_eq_some hconflict)
  have hrequest : r.merge? conflict.merge = some request :=
    hid ▸ Records.merge?_of_mem sound.merges.idsDiffer hmem
  refine ⟨r.summary request, sound.merge_eq_ok hrequest, fun stamp resolution actor => ?_⟩
  rw [resolve_eq sound, hconflict, ← Records.resolveConflict_tables, ← sound.tables]
  dsimp only
  rw [hrequest, ← hid]
  rfl

end Store

/-! ### Runs -/

namespace Repository

variable {repository : Repository} {stamp : Stamp} {operation : Operation} {id : String}

/-- Whether an operation settles a conflict, which then is as it is told last: the conflict is
open and its request is not over, and the operation gives it a label that is not blank, and
succeeds. -/
inductive Settles (repository : Repository) (stamp : Stamp) :
    Operation → Conflict → Conflict → Prop where
  | resolve {conflict : Conflict} {summary : MergeSummary} {resolution actor : String} :
      conflict.IsOpen → repository.store.tables.merge conflict.merge = .ok summary →
      summary.request.status.isTerminal = false → Text.isBlank resolution = false →
      (repository.perform stamp (.resolve conflict.id resolution actor)).1
        = .ok (.id conflict.id) →
      Settles repository stamp (.resolve conflict.id resolution actor) conflict
        (conflict.settled resolution actor stamp.time)

theorem Settles.isOpen {before after : Conflict}
    (h : repository.Settles stamp operation before after) : before.IsOpen := by
  cases h with
  | resolve hopen => exact hopen

/-- An operation leaves what is read of a conflict, or opens the conflict, or settles it. -/
theorem Reachable.conflict_cases (h : Reachable repository)
    (fresh : stamp.Fresh repository.store) (given : operation.Ordered) (id : String) :
    (∀ conflict, repository.store.tables.conflict id = .ok conflict ↔
        (repository.perform stamp operation).2.store.tables.conflict id = .ok conflict)
      ∨ ((∀ conflict, repository.store.tables.conflict id ≠ .ok conflict)
        ∧ ∀ conflict, (repository.perform stamp operation).2.store.tables.conflict id
          = .ok conflict → conflict.IsOpen)
      ∨ ∃ before after, repository.store.tables.conflict id = .ok before
        ∧ (repository.perform stamp operation).2.store.tables.conflict id = .ok after
        ∧ repository.Settles stamp operation before after := by
  obtain ⟨r, sound, hopen⟩ : ∃ r, repository.store.Sound r ∧ r.OpenUntilSettled :=
    h.invariant (fun _ _ hnone => by cases hnone) fun _ _ step => step.openUntilSettled
  obtain ⟨r', sound', step⟩ := sound.step fresh given
  simp only [ne_eq, sound.conflict_eq_ok_iff, sound'.conflict_eq_ok_iff]
  rcases step.conflict_cases id with hsame | ⟨hnone, hopened⟩
    | ⟨conflict, request, resolution, actor, hconflict, hnone, hrequest, hstatus, hblank, rfl,
      hanswer, hsettled⟩
  · exact Or.inl fun conflict => by rw [hsame]
  · exact Or.inr (Or.inl ⟨fun conflict => by simp [hnone], hopened⟩)
  · obtain rfl := Records.id_of_conflict? hconflict
    exact Or.inr (Or.inr ⟨conflict, _, hconflict, hsettled,
      .resolve (hopen _ conflict hconflict hnone) (sound.merge_eq_ok hrequest) hstatus hblank
        hanswer⟩)

/-- How a conflict of a repository came to be what it is, and what may become of it.  It is open
or was settled by one operation that led here; and it stays or is settled by one operation, if
it is open. -/
structure SettledOnce (repository : Repository) (id : String) (conflict : Conflict) : Prop where
  before : conflict.IsOpen
    ∨ ∃ earlier stamp operation found, Reachable earlier
      ∧ earlier.store.tables.conflict id = .ok found
      ∧ earlier.Settles stamp operation found conflict
      ∧ Leads (earlier.perform stamp operation).2 repository
  next : ∀ stamp operation, stamp.Fresh repository.store → operation.Ordered →
    ∃ found, (repository.perform stamp operation).2.store.tables.conflict id = .ok found
      ∧ (found = conflict ∨ repository.Settles stamp operation conflict found)
  after : ∀ later, Leads repository later →
    ∃ found, later.store.tables.conflict id = .ok found
      ∧ (found = conflict
        ∨ ∃ middle stamp operation, Leads repository middle
          ∧ middle.store.tables.conflict id = .ok conflict
          ∧ middle.Settles stamp operation conflict found
          ∧ Leads (middle.perform stamp operation).2 later)

theorem Reachable.settledBefore (h : Reachable repository) {conflict : Conflict}
    (hconflict : repository.store.tables.conflict id = .ok conflict) :
    conflict.IsOpen
      ∨ ∃ earlier stamp operation found, Reachable earlier
        ∧ earlier.store.tables.conflict id = .ok found
        ∧ earlier.Settles stamp operation found conflict
        ∧ Leads (earlier.perform stamp operation).2 repository := by
  obtain ⟨policy, _, hrun⟩ := h
  induction hrun with
  | refl => cases hconflict
  | @perform deeds before stamp operation hrun fresh given _ ih =>
    have hbefore : Reachable before := ⟨policy, deeds, hrun⟩
    rcases hbefore.conflict_cases fresh given id with hsame | ⟨-, hopened⟩
      | ⟨found, settled, hfound, hsettled, hsettles⟩
    · refine (ih ((hsame conflict).mpr hconflict)).imp_right ?_
      rintro ⟨earlier, stamp', operation', found, hearlier, hfound, hsettles, hleads⟩
      exact ⟨earlier, stamp', operation', found, hearlier, hfound, hsettles,
        hleads.perform stamp operation fresh given⟩
    · exact Or.inl (hopened conflict hconflict)
    · obtain rfl := Except.ok.inj (hsettled.symm.trans hconflict)
      exact Or.inr ⟨before, stamp, operation, found, hbefore, hfound, hsettles, .refl _⟩

theorem Reachable.settledNext (h : Reachable repository) {conflict : Conflict}
    (hconflict : repository.store.tables.conflict id = .ok conflict)
    (fresh : stamp.Fresh repository.store) (given : operation.Ordered) :
    ∃ found, (repository.perform stamp operation).2.store.tables.conflict id = .ok found
      ∧ (found = conflict ∨ repository.Settles stamp operation conflict found) := by
  rcases h.conflict_cases fresh given id with hsame | ⟨hnone, -⟩
    | ⟨before, settled, hbefore, hsettled, hsettles⟩
  · exact ⟨conflict, (hsame conflict).mp hconflict, Or.inl rfl⟩
  · exact absurd hconflict (hnone conflict)
  · obtain rfl := Except.ok.inj (hbefore.symm.trans hconflict)
    exact ⟨settled, hsettled, Or.inr hsettles⟩

/-- **A conflict is settled at most once.** -/
theorem Reachable.settledOnce (h : Reachable repository) {conflict : Conflict}
    (hconflict : repository.store.tables.conflict id = .ok conflict) :
    repository.SettledOnce id conflict where
  before := h.settledBefore hconflict
  next stamp operation fresh given := h.settledNext hconflict fresh given
  after later hleads := by
    obtain ⟨_, hrun⟩ := hleads
    induction hrun with
    | refl => exact ⟨conflict, hconflict, Or.inl rfl⟩
    | @perform deeds middle stamp operation hrun fresh given _ ih =>
      obtain ⟨found, hfound, hcame⟩ := ih
      have hleads : Leads repository middle := ⟨deeds, hrun⟩
      obtain ⟨found', hfound', hnext⟩ := (h.leads hleads).settledNext hfound fresh given
      refine ⟨found', hfound', ?_⟩
      rcases hnext with rfl | hsettles
      · refine hcame.imp_right ?_
        rintro ⟨turn, stamp', operation', hturn, hopen, hsettles, hrest⟩
        exact ⟨turn, stamp', operation', hturn, hopen, hsettles,
          hrest.perform stamp operation fresh given⟩
      · rcases hcame with rfl | ⟨turn, stamp', operation', -, -, hearlier, -⟩
        · exact Or.inr ⟨middle, stamp, operation, hleads, hfound, hsettles, .refl _⟩
        · -- What was settled is no longer open.
          have hopen := hsettles.isOpen.1
          cases hearlier with
          | resolve => cases hopen

end Repository

end PlanHistory
