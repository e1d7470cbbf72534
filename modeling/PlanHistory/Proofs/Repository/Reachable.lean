/-
The repositories that operations lead to.

A repository is *reachable* if a run from an empty store leads to it.  The deeds of such a run
are a *chronicle* of the repository.

* **`Repository.Reachable.sound`** — the store of a reachable repository is sound;
* **`Repository.Chronicle.invariant`**, **`Repository.Reachable.invariant`** — what every step
  keeps holds of the deeds and the records, or of the records alone;
* **`Repository.Reachable.play`** — operations under stamps that are made of new names lead
  from a reachable repository to another.
-/
import PlanHistory.Proofs.Repository.Run

namespace PlanHistory

namespace Repository

/-- Whether operations, one after the other, lead from one repository to another. -/
def Leads (earlier later : Repository) : Prop :=
  ∃ deeds, Run anything earlier deeds later

/-- The chronicles of a repository: the deeds of a run to it from an empty store. -/
def Chronicle (repository : Repository) (deeds : List Deed) : Prop :=
  ∃ policy, Run anything (empty policy) deeds repository

/-- The repositories that operations lead to from an empty store. -/
def Reachable (repository : Repository) : Prop :=
  ∃ policy, Leads (empty policy) repository

variable {repository later : Repository} {deeds : List Deed} {steps : List (String × Operation)}

theorem Leads.refl (repository : Repository) : Leads repository repository :=
  ⟨[], .refl⟩

theorem Leads.trans {middle : Repository} (h : Leads repository middle)
    (hleads : Leads middle later) : Leads repository later := by
  obtain ⟨_, hrun⟩ := h
  obtain ⟨_, hmore⟩ := hleads
  exact ⟨_, hrun.trans hmore⟩

theorem Leads.perform (h : Leads repository later) (stamp : Stamp) (operation : Operation)
    (fresh : stamp.Fresh later.store) (given : operation.Ordered) :
    Leads repository (later.perform stamp operation).2 := by
  obtain ⟨_, hrun⟩ := h
  exact ⟨_, hrun.perform stamp operation fresh given trivial⟩

/-- Operations under the stamps of new names lead to what they leave. -/
theorem leads_play (hnew : repository.admits steps = true)
    (given : ∀ step ∈ steps, step.2.Ordered) : Leads repository (repository.play steps) :=
  ⟨_, Run.play hnew given fun _ _ _ => trivial⟩

theorem Reachable.empty (policy : Policy) : Reachable (empty policy) :=
  ⟨policy, .refl _⟩

theorem Reachable.leads (h : Reachable repository) (hleads : Leads repository later) :
    Reachable later := by
  obtain ⟨policy, hbefore⟩ := h
  exact ⟨policy, hbefore.trans hleads⟩

theorem Reachable.perform (h : Reachable repository) (stamp : Stamp) (operation : Operation)
    (fresh : stamp.Fresh repository.store) (given : operation.Ordered) :
    Reachable (repository.perform stamp operation).2 :=
  h.leads ((Leads.refl _).perform stamp operation fresh given)

theorem Reachable.play (h : Reachable repository) (hnew : repository.admits steps = true)
    (given : ∀ step ∈ steps, step.2.Ordered) : Reachable (repository.play steps) :=
  h.leads (leads_play hnew given)

/-- The repositories that have chronicles are those that operations lead to. -/
theorem exists_chronicle_iff : (∃ deeds, Chronicle repository deeds) ↔ Reachable repository :=
  ⟨fun ⟨deeds, policy, hrun⟩ => ⟨policy, deeds, hrun⟩,
    fun ⟨policy, deeds, hrun⟩ => ⟨deeds, policy, hrun⟩⟩

theorem Chronicle.reachable (h : Chronicle repository deeds) : Reachable repository :=
  exists_chronicle_iff.mp ⟨deeds, h⟩

theorem chronicle_play (policy : Policy) (hnew : (empty policy).admits steps = true)
    (given : ∀ step ∈ steps, step.2.Ordered) :
    Chronicle ((empty policy).play steps) ((empty policy).deeds steps) :=
  ⟨policy, Run.play hnew given fun _ _ _ => trivial⟩

/-- What every step keeps holds of a chronicle and the records. -/
theorem Chronicle.invariant {holds : List Deed → Records → Prop} (h : Chronicle repository deeds)
    (empty : holds [] Records.empty)
    (step : ∀ {s : Store} {r r' : Records} {policy : Policy} {stamp : Stamp}
      {operation : Operation} {answer : Except Failure Answer} {blobs : Blobs}
      {deeds : List Deed}, s.Sound r → stamp.Fresh s →
        s.Step r policy stamp operation answer r' blobs → holds deeds r →
          holds (deeds ++ [⟨s, stamp, operation, answer⟩]) r') :
    ∃ r, repository.store.Sound r ∧ holds deeds r := by
  obtain ⟨policy, hrun⟩ := h
  exact hrun.invariant Store.sound_empty empty
    fun sound fresh _ hstep _ hr => step sound fresh hstep hr

/-- What every step keeps holds of the records that operations lead to. -/
theorem Leads.invariant {holds : Records → Prop} (h : Leads repository later) {first : Records}
    (sound : repository.store.Sound first) (hfirst : holds first)
    (step : ∀ {s : Store} {r r' : Records} {policy : Policy} {stamp : Stamp}
      {operation : Operation} {answer : Except Failure Answer} {blobs : Blobs}, s.Sound r →
        stamp.Fresh s → s.Step r policy stamp operation answer r' blobs → holds r → holds r') :
    ∃ r, later.store.Sound r ∧ holds r := by
  obtain ⟨deeds, hrun⟩ := h
  exact hrun.keeps sound hfirst fun sound fresh _ hstep _ hr => step sound fresh hstep hr

/-- What every step keeps holds of the records of a reachable repository. -/
theorem Reachable.invariant {holds : Records → Prop} (h : Reachable repository)
    (empty : holds Records.empty)
    (step : ∀ {s : Store} {r r' : Records} {policy : Policy} {stamp : Stamp}
      {operation : Operation} {answer : Except Failure Answer} {blobs : Blobs}, s.Sound r →
        stamp.Fresh s → s.Step r policy stamp operation answer r' blobs → holds r → holds r') :
    ∃ r, repository.store.Sound r ∧ holds r := by
  obtain ⟨policy, hleads⟩ := h
  exact hleads.invariant Store.sound_empty empty step

/-- The store of a reachable repository is sound. -/
theorem Reachable.sound (h : Reachable repository) : ∃ r, repository.store.Sound r := by
  obtain ⟨r, sound, -⟩ : ∃ r, repository.store.Sound r ∧ True :=
    h.invariant trivial fun _ _ _ _ => trivial
  exact ⟨r, sound⟩

/-! ### A floor with a hall -/

/-- The floor that the hall is on. -/
def hallPlan : PlanId := ⟨"town", "1"⟩

theorem ordered_noMetadata : (Json.object []).Ordered := by
  have hwithin : (Json.object []).Within 1 := Json.within_texts List.Pairwise.nil (by simp)
  exact hwithin.ordered

/-- The hall is given a size on a branch. -/
def drawHall (branch : String) (size : WideInt) : Operation :=
  .commit (Merge.hallFloor size) ⟨hallPlan, branch, "hall", "clerk", none, .minor, []⟩

theorem ordered_drawHall (branch : String) (size : WideInt) : (drawHall branch size).Ordered :=
  ⟨Merge.ordered_hallFloor size, ordered_noMetadata⟩

/-- The hall is drawn on one branch, and another begins there. -/
def hallSteps : List (String × Operation) :=
  [("first", drawHall "main" Merge.smallSize),
    ("fork", .createBranch ⟨"draft", hallPlan, "first", "clerk", none⟩)]

/-- A request to merge the other branch. -/
def mergeDraft : NewMerge := ⟨"draft", "main", hallPlan, "clerk", none⟩

theorem ordered_hallSteps : ∀ step ∈ hallSteps, step.2.Ordered :=
  List.forall_mem_cons.mpr ⟨ordered_drawHall _ _, List.forall_mem_singleton.mpr trivial⟩

/-- The hall gets another size on the draft, and a request to merge it. -/
def resizeSteps : List (String × Operation) :=
  hallSteps ++ [("other", drawHall "draft" Merge.largeSize), ("open", .openMerge mergeDraft)]

theorem ordered_resizeSteps : ∀ step ∈ resizeSteps, step.2.Ordered :=
  List.forall_mem_append.mpr ⟨ordered_hallSteps, List.forall_mem_cons.mpr
    ⟨ordered_drawHall _ _, List.forall_mem_singleton.mpr trivial⟩⟩

/-- The conflict about the size is settled by a label, and the request executed. -/
def settleSteps (label : String) : List (String × Operation) :=
  [("settle", .resolve "open" label "clerk"), ("run", .execute "open" "clerk")]

theorem ordered_settleSteps (label : String) : ∀ step ∈ settleSteps label, step.2.Ordered :=
  List.forall_mem_cons.mpr ⟨trivial, List.forall_mem_singleton.mpr trivial⟩

/-- The head of a branch of the plan with the hall. -/
def headOf (branch : String) (repository : Repository) : Option String :=
  (repository.store.tables.branch branch hallPlan).toOption.map fun found => found.head

theorem eq_ok_of_toOption {ε α : Type} {result : Except ε α} {value : α}
    (h : result.toOption = some value) : result = .ok value := by
  cases result with
  | error fault => cases h
  | ok found => exact congrArg Except.ok (Option.some.inj h)

theorem exists_content {id : String}
    (h : (repository.store.content id).toOption.isSome = true) :
    ∃ document, repository.store.content id = .ok document := by
  obtain ⟨document, hdocument⟩ := Option.isSome_iff_exists.mp h
  exact ⟨document, eq_ok_of_toOption hdocument⟩

theorem exists_branch {name head : String} (h : repository.headOf name = some head) :
    ∃ branch, repository.store.tables.branch name hallPlan = .ok branch ∧ branch.head = head := by
  obtain ⟨branch, hbranch, hhead⟩ := Option.map_eq_some_iff.mp h
  exact ⟨branch, eq_ok_of_toOption hbranch, hhead⟩

end Repository

end PlanHistory
