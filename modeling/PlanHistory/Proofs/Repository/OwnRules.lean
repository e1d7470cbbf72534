/-
A merge request carries its own rules.

What the policy of a repository says about merging is written into a request when it is opened,
and is read there when the request is executed.  Beside opening requests and searching notes no
operation goes by the policy, so that a run without these two may open the store again under
other policies at any point, and nobody is told anything else:

* **`Repository.perform_of_not_readsPolicy`** — one operation under two policies;
* **`Repository.run_calls`** — a run and the same run without opening the store again;
* **`Repository.run_eq_of_calls_eq`** — two runs of the same calls.

The ids and the time of a call come with it (`Stamp`), so that they are the same in both runs.
-/
import PlanHistory.Proofs.Repository.Reachable

namespace PlanHistory

namespace Operation

/-- Whether what an operation does goes by the policy. -/
def readsPolicy : Operation → Bool
  | .openMerge _ => true
  | .search _ _ => true
  | _ => false

/-- Whether an operation opens the store again. -/
def isReopening : Operation → Bool
  | .reopen _ => true
  | _ => false

@[simp] theorem readsPolicy_resolve (conflict resolution actor : String) :
    (resolve conflict resolution actor).readsPolicy = false := rfl

@[simp] theorem readsPolicy_execute (merge actor : String) :
    (execute merge actor).readsPolicy = false := rfl

@[simp] theorem readsPolicy_reopen (policy : Policy) : (reopen policy).readsPolicy = false := rfl

end Operation

namespace Repository

variable {operation : Operation} {steps others : List (Stamp × Operation)}

/-! ### One operation -/

/-- An operation that does not go by the policy is answered the same under every policy, and
leaves the same store. -/
theorem perform_of_not_readsPolicy (h : operation.readsPolicy = false) (first second : Policy)
    (stamp : Stamp) (s : Store) :
    (perform stamp operation ⟨first, s⟩).1 = (perform stamp operation ⟨second, s⟩).1
      ∧ (perform stamp operation ⟨first, s⟩).2.store
        = (perform stamp operation ⟨second, s⟩).2.store := by
  cases operation with
  | openMerge request => simp [Operation.readsPolicy] at h
  | search plan query => simp [Operation.readsPolicy] at h
  | _ => exact ⟨rfl, rfl⟩

/-- Opening the store again leaves it as it is. -/
theorem store_perform_of_isReopening (h : operation.isReopening = true) (stamp : Stamp)
    (repository : Repository) :
    (repository.perform stamp operation).2.store = repository.store := by
  cases operation with
  | reopen policy => rfl
  | _ => simp [Operation.isReopening] at h

/-! ### Runs -/

/-- What is answered to the calls of a run, one after the other, and the store that the run
leaves.  Opening the store again is not a call. -/
def run (repository : Repository) :
    List (Stamp × Operation) → List (Except Failure Answer) × Store
  | [] => ([], repository.store)
  | (stamp, operation) :: steps =>
    let outcome := repository.perform stamp operation
    let rest := outcome.2.run steps
    (if operation.isReopening then rest.1 else outcome.1 :: rest.1, rest.2)

/-- The calls of a run. -/
def calls (steps : List (Stamp × Operation)) : List (Stamp × Operation) :=
  steps.filter fun step => !step.2.isReopening

/-- Opening the store again, under any policies and at any points of a run, changes no answer
and not the store. -/
theorem run_calls (hsteps : ∀ step ∈ steps, step.2.readsPolicy = false) (first second : Policy)
    (s : Store) : run ⟨first, s⟩ steps = run ⟨second, s⟩ (calls steps) := by
  induction steps generalizing first second s with
  | nil => rfl
  | cons step steps ih =>
    obtain ⟨stamp, operation⟩ := step
    obtain ⟨hstep, hrest⟩ := List.forall_mem_cons.mp hsteps
    -- Every step goes on from a store that is the same in both runs, under some policy.
    have hgo (policy : Policy) :
        run (perform stamp operation ⟨first, s⟩).2 steps
          = run ⟨policy, (perform stamp operation ⟨first, s⟩).2.store⟩ (calls steps) :=
      ih hrest _ policy _
    by_cases hreopening : operation.isReopening = true
    · have hcalls : calls ((stamp, operation) :: steps) = calls steps := by
        rw [calls, List.filter_cons, if_neg (by simp [hreopening])]
        rfl
      have hstore := store_perform_of_isReopening hreopening stamp ⟨first, s⟩
      rw [run, if_pos hreopening, hcalls, hgo second, hstore]
    · have hcalls : calls ((stamp, operation) :: steps) = (stamp, operation) :: calls steps := by
        rw [calls, List.filter_cons, if_pos (by simp [hreopening])]
        rfl
      obtain ⟨hanswer, hstore⟩ := perform_of_not_readsPolicy hstep first second stamp s
      rw [hcalls, run, run, if_neg hreopening, if_neg hreopening,
        hgo (perform stamp operation ⟨second, s⟩).2.policy, hanswer, hstore]

/-- **A merge request carries its own rules.**  On any store, settling a conflict and executing
a request are answered the same under every two policies, and leave the same store; and so do
runs of such calls, wherever and under whatever policies the store is opened again between
them. -/
theorem run_eq_of_calls_eq (s : Store) :
    (∀ (operation : Operation) (first second : Policy) (stamp : Stamp),
        operation.readsPolicy = false →
        (perform stamp operation ⟨first, s⟩).1 = (perform stamp operation ⟨second, s⟩).1
          ∧ (perform stamp operation ⟨first, s⟩).2.store
            = (perform stamp operation ⟨second, s⟩).2.store)
      ∧ ∀ (steps others : List (Stamp × Operation)) (first second : Policy),
        (∀ step ∈ steps, step.2.readsPolicy = false) →
        (∀ step ∈ others, step.2.readsPolicy = false) →
        calls steps = calls others → run ⟨first, s⟩ steps = run ⟨second, s⟩ others := by
  refine ⟨fun operation first second stamp h => perform_of_not_readsPolicy h first second stamp s,
    ?_⟩
  intro steps others first second hsteps hothers hcalls
  calc run ⟨first, s⟩ steps
      = run ⟨second, s⟩ (calls steps) := run_calls hsteps first second s
    _ = run ⟨second, s⟩ (calls others) := by rw [hcalls]
    _ = run ⟨second, s⟩ others := (run_calls hothers second second s).symm

/-- A policy with other rules than the standard ones. -/
def otherPolicy : Policy := ⟨.threeWay, .fastForward, 1⟩

/-- The store with the request to merge the draft. -/
def resizeStore : Store := ((empty .standard).play resizeSteps).store

/-- The conflict about the size is settled, and the request executed. -/
def settleCalls : List (Stamp × Operation) :=
  [(.named "settle", .resolve "open" "source_wins" "clerk"),
    (.named "run", .execute "open" "clerk")]

/-- The same, with the store opened again under other rules before each call. -/
def reopenedCalls : List (Stamp × Operation) :=
  settleCalls.flatMap fun step => [(.named "again", .reopen otherPolicy), step]

theorem readsPolicy_settleCalls : ∀ step ∈ settleCalls, step.2.readsPolicy = false := by
  simp [settleCalls]

theorem readsPolicy_reopenedCalls : ∀ step ∈ reopenedCalls, step.2.readsPolicy = false := by
  simp [reopenedCalls, settleCalls]

/-- The draft that was opened under the standard rules is merged by them. -/
theorem run_reopenedCalls :
    run ⟨.standard, resizeStore⟩ settleCalls = run ⟨otherPolicy, resizeStore⟩ reopenedCalls :=
  (run_eq_of_calls_eq resizeStore).2 settleCalls reopenedCalls .standard otherPolicy
    readsPolicy_settleCalls readsPolicy_reopenedCalls rfl

end Repository

end PlanHistory
