/-
The walk along the parents.

The parents of sound records are earlier versions, so the walk from a version never comes
back to where it was, and lists the *lineage* of the version:

* **`Tables.walk_of_lineage`** — what the walk returns;
* **`Records.exists_lineage`** — every version has a lineage;
* **`Tables.mergeBase_of_descends`** — the merge base of a version and a descendant of it
  is the version.
-/
import Mathlib.Logic.Relation
import PlanHistory.Proofs.Repository.Sound

namespace PlanHistory

namespace Tables

variable {tables : Tables} {id parent : String} {chain visited : List String}

/-- Whether a version is the parent of another. -/
def IsParent (tables : Tables) (child parent : String) : Prop :=
  tables.parent? child = some (some parent)

/-- Whether a version is another or comes after it along the parents. -/
def Descends (tables : Tables) : String → String → Prop :=
  Relation.ReflTransGen tables.IsParent

/-- A version and all its ancestors, nearest first, up to one without parent. -/
inductive Lineage (tables : Tables) : String → List String → Prop where
  | root {id : String} : tables.parent? id = some none → Lineage tables id [id]
  | child {id parent : String} {chain : List String} : tables.IsParent id parent →
      Lineage tables parent chain → Lineage tables id (id :: chain)

theorem Lineage.unique (h : tables.Lineage id chain) {other : List String}
    (hother : tables.Lineage id other) : chain = other := by
  induction h generalizing other with
  | root hroot =>
    cases hother with
    | root => rfl
    | child hparent => simp [IsParent, hroot] at hparent
  | child hparent _ ih =>
    cases hother with
    | root hroot => simp [IsParent, hroot] at hparent
    | child hother hlineage =>
      rw [IsParent, hparent, Option.some.injEq, Option.some.injEq] at hother
      subst hother
      rw [ih hlineage]

/-- From an ancestor on, a lineage is the ancestor's. -/
theorem Lineage.of_mem (h : tables.Lineage id chain) {ancestor : String}
    (hmem : ancestor ∈ chain) :
    ∃ before rest, chain = before ++ ancestor :: rest
      ∧ tables.Lineage ancestor (ancestor :: rest) := by
  induction h with
  | root hroot =>
    obtain rfl := List.mem_singleton.mp hmem
    exact ⟨[], [], rfl, .root hroot⟩
  | @child id parent chain hparent hlineage ih =>
    rcases List.mem_cons.mp hmem with rfl | hmem
    · exact ⟨[], chain, rfl, .child hparent hlineage⟩
    · obtain ⟨before, rest, rfl, hrest⟩ := ih hmem
      exact ⟨id :: before, rest, rfl, hrest⟩

theorem Lineage.mem_iff (h : tables.Lineage id chain) {ancestor : String} :
    ancestor ∈ chain ↔ tables.Descends id ancestor := by
  induction h with
  | root hroot =>
    rw [List.mem_singleton, Descends, Relation.ReflTransGen.cases_head_iff]
    constructor
    · rintro rfl
      exact Or.inl rfl
    · rintro (rfl | ⟨parent, hparent, -⟩)
      · rfl
      · simp [IsParent, hroot] at hparent
  | @child id parent chain hparent _ ih =>
    have hhead : tables.Descends id ancestor
        ↔ id = ancestor ∨ ∃ next, tables.IsParent id next ∧ tables.Descends next ancestor :=
      Relation.ReflTransGen.cases_head_iff
    rw [List.mem_cons, ih, hhead]
    constructor
    · rintro (rfl | hdescends)
      · exact Or.inl rfl
      · exact Or.inr ⟨_, hparent, hdescends⟩
    · rintro (rfl | ⟨other, hother, hdescends⟩)
      · exact Or.inl rfl
      · rw [IsParent, hparent, Option.some.injEq, Option.some.injEq] at hother
        subst hother
        exact Or.inr hdescends

/-- The walk lists the lineage, as long as it meets nothing that was visited. -/
theorem walk_of_lineage (h : tables.Lineage id chain) (nodup : chain.Nodup)
    (unvisited : ∀ version ∈ chain, version ∉ visited) :
    tables.walk visited id = .ok chain := by
  induction h generalizing visited with
  | @root id hroot =>
    have hfresh : visited.contains id = false := by
      simpa using unvisited id (List.mem_singleton_self _)
    rw [walk.eq_def]
    split
    next hseen => exact absurd (hseen.symm.trans hfresh) (by decide)
    next =>
      split
      next hnone => simp [parent?, hnone] at hroot
      next row hrow =>
        rw [parent?, hrow, Option.map_some, Option.some.injEq] at hroot
        rw [hroot]
  | @child id parent chain hparent hlineage ih =>
    have hfresh : visited.contains id = false := by
      simpa using unvisited id List.mem_cons_self
    -- The walk goes on from the parent with this version visited, which is not met again.
    obtain ⟨hnew, hnodup⟩ := List.nodup_cons.mp nodup
    have hrest : tables.walk (id :: visited) parent = .ok chain := by
      refine ih hnodup fun version hmem hvisited => ?_
      rcases List.mem_cons.mp hvisited with rfl | hvisited
      · exact hnew hmem
      · exact unvisited version (List.mem_cons_of_mem _ hmem) hvisited
    rw [walk.eq_def]
    split
    next hseen => exact absurd (hseen.symm.trans hfresh) (by decide)
    next =>
      split
      next hnone => simp [IsParent, parent?, hnone] at hparent
      next row hrow =>
        rw [IsParent, parent?, hrow, Option.map_some, Option.some.injEq] at hparent
        rw [hparent]
        dsimp only
        rw [hrest]

theorem ancestry_of_lineage (h : tables.Lineage id chain) (nodup : chain.Nodup) :
    tables.ancestry id = .ok chain := by
  rw [ancestry, walk_of_lineage h nodup (by simp)]
  rfl

/-- The merge base of a version and one that descends from it is the version. -/
theorem mergeBase_of_descends {descendant : String} {ancestors : List String}
    (h : tables.Lineage id ancestors) (hdescendant : tables.Lineage descendant chain)
    (nodup : chain.Nodup) (hdescends : tables.Descends descendant id) :
    tables.mergeBase id descendant = .ok (some id) := by
  obtain ⟨before, rest, rfl, hrest⟩ := hdescendant.of_mem (hdescendant.mem_iff.mpr hdescends)
  obtain rfl := h.unique hrest
  obtain ⟨-, hnodup, hdisjoint⟩ := List.nodup_append.mp nodup
  -- What is nearer than the version is not among its ancestors.
  have hbefore : before.find? (fun nearer => (id :: rest).contains nearer) = none := by
    rw [List.find?_eq_none]
    intro nearer hmem hancestor
    rw [List.contains_iff_mem] at hancestor
    exact hdisjoint nearer hmem nearer hancestor rfl
  rw [mergeBase, ancestry_of_lineage h hnodup, ancestry_of_lineage hdescendant nodup]
  show Except.ok ((before ++ id :: rest).find? fun nearer => (id :: rest).contains nearer) = _
  rw [List.find?_append, hbefore, Option.none_or, List.find?_cons_of_pos]
  exact List.contains_iff_mem.mpr List.mem_cons_self

end Tables

namespace Records

variable {r : Records} {blobs : Blobs}

theorem parent?_tables (id : String) :
    r.tables.parent? id = (r.version? id).map fun version => version.parent? := by
  rw [Tables.parent?, versionRow?_tables, Option.map_map]
  rfl

/-- Every version has a lineage, whose other versions are earlier ones. -/
theorem exists_lineage (sound : VersionsSound r.versions blobs) {version : Version} :
    ∀ {earlier later : List Version}, r.versions = earlier ++ version :: later →
      ∃ chain, r.tables.Lineage version.id (version.id :: chain)
        ∧ (version.id :: chain).Nodup ∧ ∀ id ∈ chain, ∃ other ∈ earlier, other.id = id := by
  -- A parent is an earlier version, so the induction is on how many versions are earlier.
  intro earlier
  induction hlength : earlier.length using Nat.strong_induction_on generalizing earlier version with
  | _ n ih =>
    intro later hversions
    subst hlength
    have hmem : version ∈ r.versions := by
      rw [hversions]
      exact List.mem_append_right _ List.mem_cons_self
    have hparent? : r.tables.parent? version.id = some version.parent? := by
      rw [parent?_tables, version?_of_mem sound.idsDiffer hmem, Option.map_some]
    cases hparent : version.parent? with
    | none =>
      refine ⟨[], .root (hparent?.trans (congrArg some hparent)), List.nodup_singleton _, by simp⟩
    | some parent =>
      obtain ⟨other, hother, rfl, -⟩ := sound.parents earlier version later hversions parent hparent
      obtain ⟨first, second, rfl⟩ := List.append_of_mem hother
      have hsplit : r.versions = first ++ other :: (second ++ version :: later) := by
        rw [hversions, List.append_assoc, List.cons_append]
      obtain ⟨chain, hlineage, hnodup, hchain⟩ := ih first.length (by simp) rfl hsplit
      refine ⟨other.id :: chain, .child (hparent?.trans (congrArg some hparent)) hlineage, ?_, ?_⟩
      · refine List.nodup_cons.mpr ⟨fun hid => ?_, hnodup⟩
        -- All of the lineage is earlier, and ids are given once.
        have hearlier : ∃ other' ∈ first ++ other :: second, other'.id = version.id := by
          rcases List.mem_cons.mp hid with hid | hid
          · exact ⟨other, hother, hid.symm⟩
          · obtain ⟨found, hfound, hsame⟩ := hchain _ hid
            exact ⟨found, List.mem_append_left _ hfound, hsame⟩
        obtain ⟨found, hfound, hsame⟩ := hearlier
        have hids := sound.idsDiffer
        rw [hversions, List.map_append, List.map_cons] at hids
        exact (List.nodup_append.mp hids).2.2 found.id (List.mem_map_of_mem hfound) version.id
          List.mem_cons_self hsame
      · intro id hid
        rcases List.mem_cons.mp hid with rfl | hid
        · exact ⟨other, hother, rfl⟩
        · obtain ⟨found, hfound, hsame⟩ := hchain id hid
          exact ⟨found, List.mem_append_left _ hfound, hsame⟩

theorem lineage_of_owns (sound : VersionsSound r.versions blobs) {plan : PlanId} {id : String}
    (h : Owns r.versions plan id) : ∃ chain, r.tables.Lineage id chain ∧ chain.Nodup := by
  obtain ⟨version, hmem, rfl, -⟩ := h
  obtain ⟨earlier, later, hversions⟩ := List.append_of_mem hmem
  obtain ⟨chain, hlineage, hnodup, -⟩ := exists_lineage sound hversions
  exact ⟨_, hlineage, hnodup⟩

/-- The ancestors of a version are versions of its plan. -/
theorem owns_of_descends (sound : VersionsSound r.versions blobs) {plan : PlanId} {id : String}
    (h : Owns r.versions plan id) {ancestor : String} (hdescends : r.tables.Descends id ancestor) :
    Owns r.versions plan ancestor := by
  induction hdescends with
  | refl => exact h
  | @tail child parent _ hparent ih =>
    obtain ⟨version, hmem, rfl, rfl⟩ := ih
    rw [Tables.IsParent, parent?_tables, version?_of_mem sound.idsDiffer hmem, Option.map_some,
      Option.some.injEq] at hparent
    obtain ⟨earlier, later, hversions⟩ := List.append_of_mem hmem
    have howns := sound.parents earlier version later hversions parent hparent
    rw [hversions]
    exact howns.append

/-- A merge base of versions of a plan is a version of the plan. -/
theorem owns_of_mergeBase (sound : VersionsSound r.versions blobs) {plan : PlanId}
    {source target : String} (hsource : Owns r.versions plan source)
    (htarget : Owns r.versions plan target) :
    ∃ base?, r.tables.mergeBase source target = .ok base?
      ∧ ∀ base ∈ base?, Owns r.versions plan base := by
  obtain ⟨ancestors, hlineage, hnodup⟩ := lineage_of_owns sound hsource
  obtain ⟨chain, hchain, hnodup'⟩ := lineage_of_owns sound htarget
  refine ⟨chain.find? fun id => ancestors.contains id, ?_, fun base hbase => ?_⟩
  · rw [Tables.mergeBase, Tables.ancestry_of_lineage hlineage hnodup,
      Tables.ancestry_of_lineage hchain hnodup']
    rfl
  · exact owns_of_descends sound htarget
      (hchain.mem_iff.mp (List.mem_of_find?_eq_some hbase))

end Records

end PlanHistory
