/-
What a run does.

A *run* is what was asked of a repository one after the other, failing operations included, with
what each found and was answered (`Deed`).  The stamps are new when they come to be used, the
JSON that clients bring is in order, and nothing else touches the store.  A run may be held to
what it allows (`Repository.Run`).

* **`Repository.Run.invariant`**, **`Repository.Run.keeps`** — what every allowed step keeps of
  the deeds and the records, or of the records alone, holds after a run;
* **`Repository.Run.trans`**, **`Repository.Run.split`** and **`Repository.Run.mono`** — runs one
  after the other, cut in two, and under a weaker condition;
* **`Repository.Run.play`** — operations under stamps that are made of new names are a run.
-/
import Mathlib.Data.List.Induction
import PlanHistory.Proofs.Repository.Step

namespace PlanHistory

/-- An operation as it was carried out: on the store that it found, under a stamp and with an
answer. -/
structure Deed where
  found : Store
  stamp : Stamp
  operation : Operation
  answer : Except Failure Answer

namespace Repository

/-- What an operation under a stamp is, done to a repository. -/
def deed (repository : Repository) (stamp : Stamp) (operation : Operation) : Deed :=
  ⟨repository.store, stamp, operation, (repository.perform stamp operation).1⟩

/-- The deeds, oldest first, that lead from one repository to another, each of them allowed where
it was done. -/
inductive Run (allowed : Repository → Stamp → Operation → Prop) (start : Repository) :
    List Deed → Repository → Prop where
  | refl : Run allowed start [] start
  | perform {deeds : List Deed} {repository : Repository} (stamp : Stamp)
      (operation : Operation) : Run allowed start deeds repository →
        stamp.Fresh repository.store → operation.Ordered → allowed repository stamp operation →
          Run allowed start (deeds ++ [repository.deed stamp operation])
            (repository.perform stamp operation).2

/-- Nothing that may be asked is kept out of a run. -/
def anything (_ : Repository) (_ : Stamp) (_ : Operation) : Prop := True

variable {allowed weaker : Repository → Stamp → Operation → Prop}
  {start middle repository : Repository} {deeds more : List Deed}

theorem Run.mono (h : Run allowed start deeds repository)
    (himp : ∀ middle stamp operation, allowed middle stamp operation →
      weaker middle stamp operation) :
    Run weaker start deeds repository := by
  induction h with
  | refl => exact .refl
  | perform stamp operation _ fresh given hallowed ih =>
    exact ih.perform stamp operation fresh given (himp _ _ _ hallowed)

theorem Run.anything (h : Run allowed start deeds repository) :
    Run anything start deeds repository :=
  h.mono fun _ _ _ _ => trivial

theorem Run.trans (h : Run allowed start deeds middle)
    (hmore : Run allowed middle more repository) :
    Run allowed start (deeds ++ more) repository := by
  induction hmore with
  | refl => exact (List.append_nil deeds).symm ▸ h
  | perform stamp operation _ fresh given hallowed ih =>
    rw [← List.append_assoc]
    exact ih.perform stamp operation fresh given hallowed

/-- The last deed of a run was done on a repository that the others lead to. -/
theorem Run.of_concat {deed : Deed} (h : Run allowed start (deeds ++ [deed]) repository) :
    ∃ middle stamp operation, Run allowed start deeds middle ∧ stamp.Fresh middle.store
      ∧ operation.Ordered ∧ allowed middle stamp operation ∧ deed = middle.deed stamp operation
      ∧ repository = (middle.perform stamp operation).2 := by
  generalize hall : deeds ++ [deed] = all at h
  cases h with
  | refl => simp at hall
  | perform stamp operation hrun fresh given hallowed =>
    obtain ⟨rfl, hlast⟩ := List.append_inj' hall rfl
    exact ⟨_, stamp, operation, hrun, fresh, given, hallowed, List.singleton_inj.mp hlast, rfl⟩

/-- A run is cut anywhere between two deeds. -/
theorem Run.split (h : Run allowed start (deeds ++ more) repository) :
    ∃ middle, Run allowed start deeds middle ∧ Run allowed middle more repository := by
  induction more using List.reverseRecOn generalizing repository with
  | nil => exact ⟨repository, List.append_nil deeds ▸ h, .refl⟩
  | append_singleton more last ih =>
    rw [← List.append_assoc] at h
    obtain ⟨before, stamp, operation, hrun, fresh, given, hallowed, rfl, rfl⟩ := h.of_concat
    obtain ⟨middle, hfirst, hmore⟩ := ih hrun
    exact ⟨middle, hfirst, hmore.perform stamp operation fresh given hallowed⟩

/-- What every allowed step keeps of the deeds and the records holds after a run. -/
theorem Run.invariant {holds : List Deed → Records → Prop} (h : Run allowed start deeds repository)
    {first : Records} (sound : start.store.Sound first) (hfirst : holds [] first)
    (step : ∀ {middle : Repository} {deeds : List Deed} {stamp : Stamp} {operation : Operation}
      {r r' : Records}, middle.store.Sound r → stamp.Fresh middle.store →
        allowed middle stamp operation →
        middle.store.Step r middle.policy stamp operation (middle.perform stamp operation).1 r'
          (middle.perform stamp operation).2.store.blobs →
        (middle.perform stamp operation).2.store.Sound r' →
        holds deeds r → holds (deeds ++ [middle.deed stamp operation]) r') :
    ∃ r, repository.store.Sound r ∧ holds deeds r := by
  induction h with
  | refl => exact ⟨first, sound, hfirst⟩
  | perform stamp operation _ fresh given hallowed ih =>
    obtain ⟨r, sound, hr⟩ := ih
    obtain ⟨r', sound', hstep⟩ := sound.step fresh given
    exact ⟨r', sound', step sound fresh hallowed hstep sound' hr⟩

/-- What every allowed step keeps of the records alone holds after a run. -/
theorem Run.keeps {holds : Records → Prop} (h : Run allowed start deeds repository)
    {first : Records} (sound : start.store.Sound first) (hfirst : holds first)
    (step : ∀ {middle : Repository} {stamp : Stamp} {operation : Operation} {r r' : Records},
      middle.store.Sound r → stamp.Fresh middle.store → allowed middle stamp operation →
        middle.store.Step r middle.policy stamp operation (middle.perform stamp operation).1 r'
          (middle.perform stamp operation).2.store.blobs →
        (middle.perform stamp operation).2.store.Sound r' → holds r → holds r') :
    ∃ r, repository.store.Sound r ∧ holds r := by
  have hinvariant : ∀ {deeds : List Deed} {repository : Repository},
      Run allowed start deeds repository →
        ∃ r, repository.store.Sound r ∧ (fun (_ : List Deed) r => holds r) deeds r :=
    fun h => h.invariant sound hfirst step
  exact hinvariant h

end Repository

/-! ### Operations one after the other -/

namespace Stamp

/-- The stamp of the first second of 1970 whose ids are made of a name. -/
def named (name : String) : Stamp :=
  ⟨⟨0, 0, by decide⟩, name, fun i => name ++ String.ofList (List.replicate i '-')⟩

theorem writable_named (name : String) : (named name).time.Writable := by
  have hwritable : (⟨0, 0, by decide⟩ : Timestamp).Writable := by decide
  exact hwritable

theorem named_conflictId_injective (name : String) :
    Function.Injective (named name).conflictId := by
  intro i j h
  have hlength := congrArg String.length h
  simpa [named] using hlength

/-- Whether no id of a store is a name or begins with it, and numbers are left. -/
def isNew (name : String) (s : Store) : Bool :=
  Blobs.isSafeId name && !s.tables.hasVersion name && !s.tables.hasMerge name
    && s.tables.conflicts.all (fun row => row.id.all fun id => !name.toList.isPrefixOf id.toList)
    && decide (s.tables.versions.greatest < greatestWord)
    && decide (s.tables.merges.greatest < greatestWord)

theorem fresh_named {name : String} {s : Store} (h : isNew name s = true) :
    (named name).Fresh s := by
  simp only [isNew, Bool.and_eq_true, Bool.not_eq_true', decide_eq_true_eq] at h
  obtain ⟨⟨⟨⟨⟨safe, version⟩, merge⟩, conflicts⟩, versionsLeft⟩, mergesLeft⟩ := h
  refine ⟨writable_named name, safe, version, merge, fun i row hmem hid => ?_,
    named_conflictId_injective name, versionsLeft, mergesLeft⟩
  -- The ids of conflicts begin with the name, as no id in the store does.
  have hrow := List.all_eq_true.mp conflicts row hmem
  rw [hid, Option.all_some, Bool.not_eq_true', Bool.eq_false_iff] at hrow
  refine hrow (List.isPrefixOf_iff_prefix.mpr ?_)
  rw [named, String.toList_append]
  exact List.prefix_append _ _

end Stamp

namespace Repository

/-- The repository after operations, each under the stamp of a name. -/
def play (repository : Repository) : List (String × Operation) → Repository
  | [] => repository
  | (name, operation) :: steps => (repository.perform (.named name) operation).2.play steps

/-- Whether the names are new when they come to be used. -/
def admits (repository : Repository) : List (String × Operation) → Bool
  | [] => true
  | (name, operation) :: steps =>
    Stamp.isNew name repository.store
      && (repository.perform (.named name) operation).2.admits steps

/-- The deeds of operations, each under the stamp of a name. -/
def deeds (repository : Repository) : List (String × Operation) → List Deed
  | [] => []
  | (name, operation) :: steps =>
    repository.deed (.named name) operation
      :: (repository.perform (.named name) operation).2.deeds steps

theorem admits_append {repository : Repository} {steps rest : List (String × Operation)} :
    repository.admits (steps ++ rest)
      = (repository.admits steps && (repository.play steps).admits rest) := by
  induction steps generalizing repository with
  | nil => rfl
  | cons step steps ih =>
    rw [List.cons_append, admits, admits, ih, Bool.and_assoc]
    rfl

/-- Operations under the stamps of new names are a run to what they leave, if each is allowed
wherever it is done. -/
theorem Run.play {allowed : Repository → Stamp → Operation → Prop} {repository : Repository}
    {steps : List (String × Operation)} (hnew : repository.admits steps = true)
    (given : ∀ step ∈ steps, step.2.Ordered)
    (hallowed : ∀ step ∈ steps, ∀ middle, allowed middle (.named step.1) step.2) :
    Run allowed repository (repository.deeds steps) (repository.play steps) := by
  induction steps generalizing repository with
  | nil => exact .refl
  | cons step steps ih =>
    obtain ⟨name, operation⟩ := step
    obtain ⟨hname, hrest⟩ := Bool.and_eq_true_iff.mp hnew
    have hfirst : Run allowed repository [repository.deed (.named name) operation]
        (repository.perform (.named name) operation).2 :=
      Run.refl.perform _ _ (Stamp.fresh_named hname) (given _ List.mem_cons_self)
        (hallowed _ List.mem_cons_self _)
    exact hfirst.trans (ih hrest (fun other hmem => given other (List.mem_cons_of_mem _ hmem))
      fun other hmem => hallowed other (List.mem_cons_of_mem _ hmem))

end Repository

end PlanHistory
