/-
The walk along the parents of any graph.

An edit past the rules may have put anything in the place of a parent, so that the parents lead
back to where they came from, or to a version that is not there.  The walk goes turn by turn all
the same: a turn visits the version that it has come to and goes on to its parent
(`Tables.Turn`), until there is no parent, or one that was visited, or one that is not there
(`Tables.Ends`).

* **`Tables.wellFounded_turn`** — every turn leaves fewer versions unvisited, so no walk goes on
  for ever;
* **`Tables.Walked.turn`** — what a turn keeps of a walk that began at an id;
* **`Tables.ancestry_ends`** — what every walk ends with.
-/
import Mathlib.Data.List.Chain
import PlanHistory.Proofs.Repository.CommonAncestor

namespace PlanHistory

namespace Tables

variable {tables : Tables} {id : String} {visited : List String} {next? : Option String}

/-! ### Turns -/

/-- A walk along the parents: the versions that it has visited, the last of them first, and
where it goes next. -/
structure Walker where
  visited : List String
  next? : Option String

/-- A turn visits a version that is there and was not visited, and goes on to its parent. -/
inductive Turn (tables : Tables) : Walker → Walker → Prop where
  | visit {visited : List String} {id : String} {parent? : Option String} : id ∉ visited →
      tables.parent? id = some parent? → Turn tables ⟨visited, some id⟩ ⟨id :: visited, parent?⟩

/-- What a walk comes to that takes no further turn: all that it has visited, in order, or the
id that no version has. -/
inductive Ends (tables : Tables) : Walker → Except String (List String) → Prop where
  | root {visited : List String} : Ends tables ⟨visited, none⟩ (.ok visited.reverse)
  | again {visited : List String} {id : String} : id ∈ visited →
      Ends tables ⟨visited, some id⟩ (.ok visited.reverse)
  | missing {visited : List String} {id : String} : id ∉ visited → tables.parent? id = none →
      Ends tables ⟨visited, some id⟩ (.error id)

theorem Turn.unvisited_lt {before after : Walker} (h : tables.Turn before after) :
    tables.unvisited after.visited < tables.unvisited before.visited := by
  cases h with
  | visit hnew hparent =>
    obtain ⟨row, hrow, -⟩ := Option.map_eq_some_iff.mp hparent
    exact unvisited_cons_lt hrow (by simpa using hnew)

/-- No walk goes on for ever. -/
theorem wellFounded_turn (tables : Tables) :
    WellFounded fun after before => tables.Turn before after :=
  Subrelation.wf Turn.unvisited_lt
    (measure fun walker : Walker => tables.unvisited walker.visited).wf

/-- A walk takes a turn or has ended. -/
theorem turn_or_ends (tables : Tables) (walker : Walker) :
    (∃ after, tables.Turn walker after) ∨ ∃ result, tables.Ends walker result := by
  obtain ⟨visited, next?⟩ := walker
  cases next? with
  | none => exact Or.inr ⟨_, .root⟩
  | some id =>
    by_cases hvisited : id ∈ visited
    · exact Or.inr ⟨_, .again hvisited⟩
    · cases hparent : tables.parent? id with
      | none => exact Or.inr ⟨_, .missing hvisited hparent⟩
      | some parent? => exact Or.inl ⟨_, .visit hvisited hparent⟩

/-- From everywhere, turns lead to an end. -/
theorem exists_ends (tables : Tables) (walker : Walker) :
    ∃ last result, Relation.ReflTransGen tables.Turn walker last ∧ tables.Ends last result := by
  induction walker using (wellFounded_turn tables).induction with
  | _ walker ih =>
    rcases turn_or_ends tables walker with ⟨after, hturn⟩ | ⟨result, hends⟩
    · obtain ⟨last, result, hturns, hends⟩ := ih after hturn
      exact ⟨last, result, .head hturn hturns, hends⟩
    · exact ⟨walker, result, .refl, hends⟩

/-! ### The recursion takes the turns -/

theorem walk_of_mem (h : id ∈ visited) : tables.walk visited id = .ok [] := by
  rw [walk.eq_def]
  split
  next => rfl
  next hfresh => exact absurd (List.contains_iff_mem.mpr h) (by rw [hfresh]; decide)

theorem walk_of_missing (hnew : id ∉ visited) (h : tables.parent? id = none) :
    tables.walk visited id = .error id := by
  rw [walk.eq_def]
  split
  next hseen => exact absurd (List.contains_iff_mem.mp hseen) hnew
  next =>
    split
    next => rfl
    next row hrow => simp [parent?, hrow] at h

theorem walk_of_root (hnew : id ∉ visited) (h : tables.parent? id = some none) :
    tables.walk visited id = .ok [id] := by
  obtain ⟨row, hrow, hroot⟩ := Option.map_eq_some_iff.mp h
  rw [walk.eq_def]
  split
  next hseen => exact absurd (List.contains_iff_mem.mp hseen) hnew
  next =>
    split
    next hnone => simp [hnone] at hrow
    next found hfound =>
      obtain rfl := Option.some.inj (hrow.symm.trans hfound)
      rw [hroot]

theorem walk_of_isParent {parent : String} (hnew : id ∉ visited) (h : tables.IsParent id parent) :
    tables.walk visited id = (tables.walk (id :: visited) parent).map (id :: ·) := by
  obtain ⟨row, hrow, hparent⟩ := Option.map_eq_some_iff.mp h
  rw [walk.eq_def]
  split
  next hseen => exact absurd (List.contains_iff_mem.mp hseen) hnew
  next =>
    split
    next hnone => simp [hnone] at hrow
    next found hfound =>
      obtain rfl := Option.some.inj (hrow.symm.trans hfound)
      rw [hparent]
      dsimp only
      cases tables.walk (id :: visited) parent <;> rfl

/-- What a walk will come to. -/
def outcome (tables : Tables) : Walker → Except String (List String)
  | ⟨visited, none⟩ => .ok visited.reverse
  | ⟨visited, some id⟩ => (tables.walk visited id).map (visited.reverse ++ ·)

theorem Turn.outcome_eq {before after : Walker} (h : tables.Turn before after) :
    tables.outcome before = tables.outcome after := by
  cases h with
  | @visit visited id parent? hnew hparent =>
    cases parent? with
    | none =>
      rw [outcome, outcome, walk_of_root hnew hparent, List.reverse_cons]
      rfl
    | some parent =>
      rw [outcome, outcome, walk_of_isParent hnew hparent]
      cases tables.walk (id :: visited) parent with
      | error missing => rfl
      | ok chain => simp [Except.map]

theorem Ends.outcome_eq {last : Walker} {result : Except String (List String)}
    (h : tables.Ends last result) : tables.outcome last = result := by
  cases h with
  | root => rfl
  | again hvisited =>
    rw [outcome, walk_of_mem hvisited]
    exact congrArg Except.ok (List.append_nil _)
  | missing hnew hnone =>
    rw [outcome, walk_of_missing hnew hnone]
    rfl

theorem outcome_eq_of_turns {walker last : Walker}
    (h : Relation.ReflTransGen tables.Turn walker last) :
    tables.outcome walker = tables.outcome last := by
  induction h with
  | refl => rfl
  | tail _ hturn ih => exact ih.trans hturn.outcome_eq

/-- The ancestry of an id is what the turns from it end with. -/
theorem exists_ancestry_eq (tables : Tables) (id : String) :
    ∃ last result, Relation.ReflTransGen tables.Turn ⟨[], some id⟩ last
      ∧ tables.Ends last result
      ∧ tables.ancestry id = result.mapError (Failure.notFound .version) := by
  obtain ⟨last, result, hturns, hends⟩ := exists_ends tables ⟨[], some id⟩
  have houtcome : tables.walk [] id = result := by
    rw [← hends.outcome_eq, ← outcome_eq_of_turns hturns, outcome]
    cases tables.walk [] id <;> rfl
  exact ⟨last, result, hturns, hends, by rw [ancestry, houtcome]⟩

/-! ### What the turns keep -/

/-- What holds of every walk that began at an id. -/
structure Walked (tables : Tables) (id : String) (walker : Walker) : Prop where
  starts : walker.visited.reverse.head?.or walker.next? = some id
  steps : walker.visited.reverse.IsChain tables.IsParent
  nodup : walker.visited.Nodup
  there : ∀ version ∈ walker.visited, (tables.parent? version).isSome = true
  descends : ∀ version, version ∈ walker.visited ∨ walker.next? = some version →
    tables.Descends id version
  last : ∀ version ∈ walker.visited.head?, tables.parent? version = some walker.next?
  /-- The walk has left out no parent. -/
  closed : ∀ version ∈ walker.visited, ∀ parent, tables.IsParent version parent →
    parent ∈ walker.visited ∨ walker.next? = some parent

theorem walked_start (tables : Tables) (id : String) : tables.Walked id ⟨[], some id⟩ where
  starts := rfl
  steps := .nil
  nodup := List.nodup_nil
  there := by simp
  descends version h := by
    obtain rfl := Option.some.inj (h.resolve_left List.not_mem_nil)
    exact .refl
  last := by simp
  closed := by simp

/-- A turn keeps what holds of every walk. -/
theorem Walked.turn {before after : Walker} (h : tables.Walked id before)
    (hturn : tables.Turn before after) : tables.Walked id after := by
  cases hturn with
  | @visit visited version parent? hnew hparent =>
    have hversion : tables.Descends id version := h.descends version (Or.inr rfl)
    exact
      { starts := by
          have hstarts := h.starts
          rw [List.reverse_cons, List.head?_append, List.head?_cons]
          rw [← hstarts]
          cases visited.reverse.head? <;> rfl
        steps := by
          rw [List.reverse_cons, List.isChain_append]
          refine ⟨h.steps, .singleton _, fun child hchild other hother => ?_⟩
          rw [List.getLast?_reverse] at hchild
          obtain rfl := Option.some.inj hother
          exact h.last child hchild
        nodup := List.nodup_cons.mpr ⟨hnew, h.nodup⟩
        there := List.forall_mem_cons.mpr ⟨by rw [hparent]; rfl, h.there⟩
        descends := by
          rintro other (hother | hnext)
          · rcases List.mem_cons.mp hother with rfl | hother
            · exact hversion
            · exact h.descends other (Or.inl hother)
          · exact hversion.tail (hparent.trans (congrArg some hnext))
        last := by
          rintro _ ⟨⟩
          exact hparent
        closed := by
          intro child hchild parent hisParent
          rcases List.mem_cons.mp hchild with rfl | hchild
          · exact Or.inr (Option.some.inj (hparent.symm.trans hisParent))
          · refine Or.inl ?_
            rcases h.closed child hchild parent hisParent with hmem | hnext
            · exact List.mem_cons_of_mem _ hmem
            · exact Option.some.inj hnext ▸ List.mem_cons_self }

theorem Walked.turns {before after : Walker} (h : tables.Walked id before)
    (hturns : Relation.ReflTransGen tables.Turn before after) : tables.Walked id after := by
  induction hturns with
  | refl => exact h
  | tail _ hturn ih => exact ih.turn hturn

/-- Where no turn is left, all that can be reached along the parents was visited or is not
there. -/
theorem Walked.mem_or_next (h : tables.Walked id ⟨visited, next?⟩)
    (stops : ∀ next ∈ next?, next ∈ visited ∨ tables.parent? next = none) {version : String}
    (hdescends : tables.Descends id version) : version ∈ visited ∨ next? = some version := by
  induction hdescends with
  | refl =>
    have hstarts := h.starts
    cases hhead : visited.reverse.head? with
    | none =>
      rw [hhead, Option.none_or] at hstarts
      exact Or.inr hstarts
    | some first =>
      rw [hhead, Option.some_or] at hstarts
      refine Or.inl (List.mem_reverse.mp (List.mem_of_head? ?_))
      rw [hhead, hstarts]
  | tail _ hparent ih =>
    rcases ih with hmem | hnext
    · exact h.closed _ hmem _ hparent
    · rcases stops _ hnext with hmem | hnone
      · exact h.closed _ hmem _ hparent
      · simp [IsParent, hnone] at hparent

/-! ### What the walk ends with -/

theorem hasVersion_eq (id : String) : tables.hasVersion id = (tables.parent? id).isSome := by
  rw [hasVersion, parent?, versionRow?, Option.isSome_map, List.isSome_find?]

/-- Whether a list is a version with all its ancestors along the parents, nearest first and each
once. -/
structure IsAncestry (tables : Tables) (id : String) (chain : List String) : Prop where
  starts : chain.head? = some id
  steps : chain.IsChain tables.IsParent
  nodup : chain.Nodup
  mem_iff : ∀ version, version ∈ chain ↔ tables.Descends id version

/-- Where the walk visits nothing new, it has visited the version with all its ancestors. -/
theorem Walked.isAncestry (h : tables.Walked id ⟨visited, next?⟩)
    (stops : ∀ next ∈ next?, next ∈ visited) : tables.IsAncestry id visited.reverse where
  starts := by
    have hstarts := h.starts
    cases hhead : visited.reverse.head? with
    | some first => rwa [hhead] at hstarts
    | none =>
      -- The walk goes on from the id if it has visited nothing.
      rw [hhead, Option.none_or] at hstarts
      rw [List.head?_eq_none_iff, List.reverse_eq_nil_iff] at hhead
      exact absurd (stops id hstarts) (by simp [hhead])
  steps := h.steps
  nodup := List.nodup_reverse.mpr h.nodup
  mem_iff version := by
    rw [List.mem_reverse]
    refine ⟨fun hmem => h.descends version (Or.inl hmem), fun hdescends => ?_⟩
    rcases h.mem_or_next (fun next hnext => Or.inl (stops next hnext)) hdescends with hmem | hnext
    · exact hmem
    · exact stops version hnext

theorem Walked.hasVersion {walker : Walker} (h : tables.Walked id walker) {version : String}
    (hmem : version ∈ walker.visited) : tables.hasVersion version = true := by
  rw [hasVersion_eq, h.there version hmem]

/-- A walk that has ended has visited all that can be reached, or it has come to the only id
there that no version has. -/
theorem Walked.result_cases {last : Walker} {result : Except String (List String)}
    (h : tables.Walked id last) (hends : tables.Ends last result) :
    (∃ chain, result = .ok chain ∧ tables.IsAncestry id chain
        ∧ ∀ version ∈ chain, tables.hasVersion version = true)
      ∨ ∃ missing, result = .error missing ∧ tables.Descends id missing
        ∧ ∀ version, tables.Descends id version →
          (tables.hasVersion version = false ↔ version = missing) := by
  have hthere : ∀ version ∈ last.visited.reverse, tables.hasVersion version = true :=
    fun version hmem => h.hasVersion (List.mem_reverse.mp hmem)
  cases hends with
  | root => exact Or.inl ⟨_, rfl, h.isAncestry (by simp), hthere⟩
  | again hvisited => exact Or.inl ⟨_, rfl, h.isAncestry (by simpa using hvisited), hthere⟩
  | @missing visited missing hnew hnone =>
    refine Or.inr ⟨missing, rfl, h.descends missing (Or.inr rfl), fun version hdescends => ?_⟩
    rcases h.mem_or_next (by simpa using Or.inr hnone) hdescends with hmem | hnext
    · refine iff_of_false (by rw [h.hasVersion hmem]; decide) ?_
      rintro rfl
      exact hnew hmem
    · obtain rfl := Option.some.inj hnext
      exact iff_of_true (by rw [hasVersion_eq, hnone]; rfl) rfl

/-- **The walk along the parents ends on every graph.**  No walk goes on for ever, and the
ancestry of an id is what the turns from it end with.  Where it is found it starts with the id,
each next one is the parent of the one before, none is in it twice, and all that can be reached
along the parents is in it.  It fails exactly if an id can be reached that no version has, and
the failure names that id. -/
theorem ancestry_ends (tables : Tables) (id : String) :
    WellFounded (fun after before => tables.Turn before after)
      ∧ (∃ last result, Relation.ReflTransGen tables.Turn ⟨[], some id⟩ last
        ∧ tables.Ends last result
        ∧ tables.ancestry id = result.mapError (Failure.notFound .version))
      ∧ (∀ chain, tables.ancestry id = .ok chain → tables.IsAncestry id chain)
      ∧ ∀ failure, tables.ancestry id = .error failure
        ↔ ∃ missing, tables.Descends id missing ∧ tables.hasVersion missing = false
          ∧ failure = .notFound .version missing := by
  obtain ⟨last, result, hturns, hends, hancestry⟩ := exists_ancestry_eq tables id
  refine ⟨wellFounded_turn tables, ⟨last, result, hturns, hends, hancestry⟩, ?_⟩
  rw [hancestry]
  rcases ((walked_start tables id).turns hturns).result_cases hends with
    ⟨chain, rfl, hchain, hthere⟩ | ⟨missing, rfl, hdescends, honly⟩
  · refine ⟨?_, fun failure => iff_of_false nofun ?_⟩
    · rintro _ ⟨⟩
      exact hchain
    · rintro ⟨missing, hdescends, hmissing, -⟩
      rw [hthere missing ((hchain.mem_iff missing).mpr hdescends)] at hmissing
      cases hmissing
  · refine ⟨nofun, fun failure => ⟨?_, ?_⟩⟩
    · rintro ⟨⟩
      exact ⟨missing, hdescends, (honly missing hdescends).mpr rfl, rfl⟩
    · rintro ⟨other, hother, hmissing, rfl⟩
      rw [(honly other hother).mp hmissing]
      rfl

end Tables

namespace Repository

/-- The tables of the forked hall, with another parent of its first version. -/
def forkedUnder (parent : String) : Tables :=
  let tables := ((empty .standard).play forkedSteps).store.tables
  { tables with
    versions := (tables.versions.update (fun row => row.id == "first")
      fun row => { row with parent? := some parent }).2 }

/-- A version that descends from itself is among its ancestors once, and where a parent is not
there the walk fails by it. -/
theorem ancestry_ends_forked :
    (forkedUnder "other").IsAncestry "next" ["next", "first", "other"]
      ∧ ∃ missing, (forkedUnder "gone").Descends "next" missing
        ∧ (forkedUnder "gone").hasVersion missing = false := by
  have hcycle : ((forkedUnder "other").ancestry "next").toOption
        = some ["next", "first", "other"]
      ∧ ((forkedUnder "gone").ancestry "next").toOption = none := by
    decide +kernel
  refine ⟨((forkedUnder "other").ancestry_ends "next").2.2.1 _ (eq_ok_of_toOption hcycle.1), ?_⟩
  cases hgone : (forkedUnder "gone").ancestry "next" with
  | ok chain => simp [hgone, Except.toOption] at hcycle
  | error failure =>
    obtain ⟨missing, hdescends, hmissing, -⟩ :=
      (((forkedUnder "gone").ancestry_ends "next").2.2.2 failure).mp hgone
    exact ⟨missing, hdescends, hmissing⟩

end Repository

end PlanHistory
