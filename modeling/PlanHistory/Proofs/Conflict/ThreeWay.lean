/-
What a three-way merge makes of every object and of every property.

`Merge.Follows` is the rule for one value: what one side left alone comes from the
other, and only a value that both sides changed, differently, needs a decision.  The
merged document follows it object by object and, where all three documents have the
object, property by property; the decisions are those of the rulings, each on its own
slot:

* **`Merge.document_isThreeWay`** — the detector and the merger together.
-/
import PlanHistory.Proofs.Conflict.Merge

namespace PlanHistory

namespace Ruling

variable {rulings : List Ruling} {d : Divergence}

/-- Exactly one ruling is on an object, or on a property of it, and what its label asks
for has a property. -/
def Decides (rulings : List Ruling) (object : String) (property? : Option String)
    (P : Resolution → Prop) : Prop :=
  ∃ ruling label, rulings.filter (isAt object property?) = [ruling]
    ∧ ruling.label? = some label ∧ P (Resolution.ofLabel label)

theorem filter_isAt_eq_singleton {ruling : Ruling}
    (before : rulings.Pairwise fun a b => a.toDivergence.Before b.toDivergence)
    (hmem : ruling ∈ rulings) :
    rulings.filter (isAt ruling.object ruling.property?) = [ruling] := by
  have hself : ruling.isAt ruling.object ruling.property? = true := isAt_iff.mpr ⟨rfl, rfl⟩
  -- Slots ascend strictly, so that no other ruling stands at the same one.
  induction rulings with
  | nil => simp at hmem
  | cons first rest ih =>
    obtain ⟨hfirst, hrest⟩ := List.pairwise_cons.mp before
    rw [List.filter_cons]
    rcases List.mem_cons.mp hmem with rfl | hmem
    · rw [if_pos hself, List.filter_eq_nil_iff.mpr]
      intro other hother hat
      have hat := isAt_iff.mp hat
      exact (hfirst other hother).slot_ne ⟨hat.1.symm, hat.2.symm⟩
    · rw [if_neg, ih hrest hmem]
      intro hat
      exact (hfirst ruling hmem).slot_ne (isAt_iff.mp hat)

variable {found : List Divergence} (hrulings : rulings.map toDivergence = found)

include hrulings

theorem pairwise_before (before : found.Pairwise Divergence.Before) :
    rulings.Pairwise fun a b => a.toDivergence.Before b.toDivergence := by
  rw [← List.pairwise_map, hrulings]
  exact before

/-- Every divergence found is decided by one ruling. -/
theorem decided_of_mem (before : found.Pairwise Divergence.Before)
    (hlabels : ∀ ruling ∈ rulings, ruling.label?.isSome) (h : d ∈ found) :
    ∃ ruling label, rulings.filter (isAt d.object d.property?) = [ruling]
      ∧ ruling.label? = some label
      ∧ find? rulings d.object d.property? = some (ruling, Resolution.ofLabel label) := by
  rw [← hrulings] at h
  obtain ⟨ruling, hmem, rfl⟩ := List.mem_map.mp h
  obtain ⟨label, hlabel⟩ := Option.isSome_iff_exists.mp (hlabels ruling hmem)
  have hone := filter_isAt_eq_singleton (pairwise_before hrulings before) hmem
  refine ⟨ruling, label, hone, hlabel, find?_of_filter_eq hone ?_⟩
  rw [resolution?, hlabel, Option.map_some]

theorem find?_eq_none_of_not_mem {object : String} {property? : Option String}
    (h : ∀ d ∈ found, ¬ (d.object = object ∧ d.property? = property?)) :
    find? rulings object property? = none := by
  refine find?_of_filter_eq_nil (List.filter_eq_nil_iff.mpr fun ruling hmem hat => ?_)
  refine h ruling.toDivergence ?_ (isAt_iff.mp hat)
  rw [← hrulings]
  exact List.mem_map_of_mem hmem

end Ruling

namespace Merge

open Document (objectMap orderedObjects)
open Divergence (agrees InAll)

/-- The rule for one value of a three-way merge: the target's where the source agrees
with the target or with the base, the source's where the target agrees with the base,
and `otherwise` says which where both changed it, differently. -/
def Follows (base? source? target? merged? : Option Json) (otherwise : Prop) : Prop :=
  if source? == target? || source? == base? then merged? = target?
  else if target? == base? then merged? = source?
  else otherwise

/-- The rule for one object: an object that all three documents have is there, and its
properties follow the rule one by one; any other is decided as a whole. -/
def FollowsAt (rulings : List Ruling) (key : String)
    (base? source? target? merged? : Option Json) : Prop :=
  Follows base? source? target? merged? <|
    match base?, source?, target? with
    | some base, some source, some target =>
      ∃ members, merged? = some (.object members) ∧ ∀ property,
        Follows (base.get? property) (source.get? property) (target.get? property)
          (Keyed.get? property members)
          (Ruling.Decides rulings key (some property) fun resolution =>
            Keyed.get? property members
              = resolution.property? (source.get? property) (target.get? property))
    | _, _, _ =>
      Ruling.Decides rulings key none fun resolution =>
        merged? = resolution.object? source? target?

/-- What a document must be to be the merge of two documents since their base. -/
structure IsThreeWay (base source target : Json) (rulings : List Ruling) (merged : Json) :
    Prop where
  /-- Every object follows the rule. -/
  follows : ∀ key, FollowsAt rulings key (Keyed.get? key (objectMap base))
    (Keyed.get? key (objectMap source)) (Keyed.get? key (objectMap target))
    (Keyed.get? key (objectMap merged))
  /-- No object comes from elsewhere. -/
  from_sides : ∀ key ∈ Keyed.keys (orderedObjects merged),
    key ∈ Keyed.keys (orderedObjects source) ∨ key ∈ Keyed.keys (orderedObjects target)
  /-- The objects of the source come in its order, then those of the target alone in its
  order. -/
  in_order : Keyed.keys (orderedObjects merged)
    = (Keyed.keys (orderedObjects source) ++ (Keyed.keys (orderedObjects target)).filter
        fun key => !(Keyed.keys (orderedObjects source)).contains key).filter
      fun key => (Keyed.get? key (objectMap merged)).isSome
  /-- Every item of `objects` is one of these. -/
  indexed : (merged.get? Document.objectsKey).bind Json.items?
    = if (source.get? Document.objectsKey).isSome || (target.get? Document.objectsKey).isSome
      then some ((orderedObjects merged).map Prod.snd) else none

variable {rulings : List Ruling} {key : String} {base source target : Json}
  (hrulings : rulings.map Ruling.toDivergence = Divergence.threeWay base source target)
  (hlabels : ∀ ruling ∈ rulings, ruling.label?.isSome)

include hrulings

/-- Where the object is compared property by property, or not at all, no ruling is on
the whole. -/
theorem find?_object_eq_none
    (h : agrees (Keyed.get? key (objectMap base)) (Keyed.get? key (objectMap source))
        (Keyed.get? key (objectMap target)) = true
      ∨ ∃ b s t, InAll (Keyed.get? key (objectMap base)) (Keyed.get? key (objectMap source))
        (Keyed.get? key (objectMap target)) b s t) :
    Ruling.find? rulings key none = none := by
  refine Ruling.find?_eq_none_of_not_mem hrulings ?_
  rintro d hmem ⟨rfl, hproperty⟩
  obtain ⟨hagrees, hcases⟩ := Divergence.mem_atObject_cases (Divergence.mem_threeWay.mp hmem)
  have hall := h.resolve_left (by rw [hagrees]; decide)
  rcases hcases with ⟨b, s, t, -, property, hd⟩ | ⟨hnone, -⟩
  · rw [hd] at hproperty
    simp at hproperty
  · exact hnone hall

section Labelled

include hlabels

/-- A property that both sides changed, differently, is decided by one ruling. -/
theorem property_decided {b s t : Keyed Json} {property : String}
    (hall : InAll (Keyed.get? key (objectMap base)) (Keyed.get? key (objectMap source))
      (Keyed.get? key (objectMap target)) b s t)
    (hobject : agrees (Keyed.get? key (objectMap base)) (Keyed.get? key (objectMap source))
      (Keyed.get? key (objectMap target)) = false)
    (hproperty : agrees (Keyed.get? property b) (Keyed.get? property s) (Keyed.get? property t)
      = false) :
    ∃ ruling label, rulings.filter (Ruling.isAt key (some property)) = [ruling]
      ∧ ruling.label? = some label
      ∧ Ruling.find? rulings key (some property) = some (ruling, Resolution.ofLabel label) := by
  refine Ruling.decided_of_mem (d := ⟨.propertyConflict, key, some property,
    Keyed.get? property s, Keyed.get? property t⟩) hrulings
    (Divergence.pairwise_threeWay base source target) hlabels ?_
  refine Divergence.mem_threeWay.mpr ?_
  rw [Divergence.atObject_of_inAll hall hobject]
  exact Divergence.mem_ofProperties.mpr ⟨property, hproperty, rfl⟩

/-- An object that both sides changed, differently, and that is not compared property by
property, is decided by one ruling. -/
theorem object_decided
    (hall : ¬ ∃ b s t, InAll (Keyed.get? key (objectMap base)) (Keyed.get? key (objectMap source))
      (Keyed.get? key (objectMap target)) b s t)
    (hobject : agrees (Keyed.get? key (objectMap base)) (Keyed.get? key (objectMap source))
      (Keyed.get? key (objectMap target)) = false) :
    ∃ ruling label, rulings.filter (Ruling.isAt key none) = [ruling]
      ∧ ruling.label? = some label
      ∧ Ruling.find? rulings key none = some (ruling, Resolution.ofLabel label) := by
  obtain ⟨d, hd, hkey, hwhole⟩ :=
    Divergence.exists_ofObject? key (Divergence.isSome_of_not_agrees hobject)
  rw [← hkey, ← hwhole]
  refine Ruling.decided_of_mem hrulings (Divergence.pairwise_threeWay base source target) hlabels
    (Divergence.mem_threeWay.mpr ?_)
  rw [hkey, Divergence.atObject_of_not_inAll hall hobject, Option.mem_toList]
  exact hd

end Labelled

theorem verdict_of_object_agrees
    (hagrees : agrees (Keyed.get? key (objectMap base)) (Keyed.get? key (objectMap source))
      (Keyed.get? key (objectMap target)) = true) :
    verdict (some base) source target rulings key
      = .merged (if Keyed.get? key (objectMap source) == Keyed.get? key (objectMap target)
          || Keyed.get? key (objectMap source) == Keyed.get? key (objectMap base)
        then Keyed.get? key (objectMap target) else Keyed.get? key (objectMap source)) := by
  rw [verdict, object.eq_def, find?_object_eq_none hrulings (Or.inl hagrees)]
  dsimp only [Option.map_some]
  rw [threeWayObject.eq_def]
  split
  next => rfl
  next hleft =>
    rw [agrees, Bool.or_eq_true] at hagrees
    rw [if_pos (hagrees.resolve_left hleft)]

theorem verdict_of_inAll {b s t : Keyed Json}
    (hall : InAll (Keyed.get? key (objectMap base)) (Keyed.get? key (objectMap source))
      (Keyed.get? key (objectMap target)) b s t)
    (hobject : agrees (Keyed.get? key (objectMap base)) (Keyed.get? key (objectMap source))
      (Keyed.get? key (objectMap target)) = false) :
    verdict (some base) source target rulings key
      = .merged (some (.object (members rulings key b s t))) := by
  rw [verdict, object.eq_def, find?_object_eq_none hrulings (Or.inr ⟨b, s, t, hall⟩)]
  dsimp only [Option.map_some]
  obtain ⟨hleft, hright⟩ := Divergence.agrees_eq_false_iff.mp hobject
  obtain ⟨hb, hs, ht⟩ := hall
  rw [threeWayObject.eq_def, if_neg (by rw [hleft]; decide), if_neg (by rw [hright]; decide), hb,
    hs, ht]

include hlabels

theorem follows_property {b s t : Keyed Json}
    (hall : InAll (Keyed.get? key (objectMap base)) (Keyed.get? key (objectMap source))
      (Keyed.get? key (objectMap target)) b s t)
    (hobject : agrees (Keyed.get? key (objectMap base)) (Keyed.get? key (objectMap source))
      (Keyed.get? key (objectMap target)) = false) (name : String) :
    Follows (Keyed.get? name b) (Keyed.get? name s) (Keyed.get? name t)
      (Keyed.get? name (members rulings key b s t))
      (Ruling.Decides rulings key (some name) fun resolution =>
        Keyed.get? name (members rulings key b s t)
          = resolution.property? (Keyed.get? name s) (Keyed.get? name t)) := by
  rw [get?_members, property, Follows]
  split
  next => rfl
  next hleft =>
    split
    next => rfl
    next hright =>
      obtain ⟨ruling, label, hone, hlabel, hfind⟩ := property_decided hrulings hlabels hall hobject
        (Divergence.agrees_eq_false_iff.mpr
          ⟨Bool.not_eq_true _ ▸ hleft, Bool.not_eq_true _ ▸ hright⟩)
      refine ⟨ruling, label, hone, hlabel, ?_⟩
      rw [hfind]
      rfl

/-- Every object of a merged document follows the rule. -/
theorem followsAt_document (ordered : target.Ordered) (key : String) :
    FollowsAt rulings key (Keyed.get? key (objectMap base)) (Keyed.get? key (objectMap source))
      (Keyed.get? key (objectMap target))
      (Keyed.get? key (objectMap (document (some base) source target rulings))) := by
  rw [get?_document (recorded_of_threeWay hrulings) ordered]
  unfold FollowsAt Follows
  by_cases hobject : agrees (Keyed.get? key (objectMap base)) (Keyed.get? key (objectMap source))
      (Keyed.get? key (objectMap target)) = true
  · rw [verdict_of_object_agrees hrulings hobject, Verdict.value?]
    split
    next => rfl
    next hleft =>
      rw [agrees, Bool.or_eq_true] at hobject
      rw [if_pos (hobject.resolve_left hleft)]
  -- Where all three differ, an object that each of them has is compared by its properties.
  rw [Bool.not_eq_true] at hobject
  obtain ⟨hleft, hright⟩ := Divergence.agrees_eq_false_iff.mp hobject
  rw [if_neg (by rw [hleft]; decide), if_neg (by rw [hright]; decide)]
  split
  next b s t hb hs ht =>
    obtain ⟨b', s', t', hall⟩ :=
      Divergence.exists_inAll (by rw [hb]; rfl) (by rw [hs]; rfl) (by rw [ht]; rfl)
    rw [verdict_of_inAll hrulings hall hobject]
    refine ⟨members rulings key b' s' t', rfl, fun name => ?_⟩
    have hfollows := follows_property hrulings hlabels hall hobject name
    obtain ⟨hb', hs', ht'⟩ := hall
    rw [Option.some_inj.mp (hb.symm.trans hb'), Option.some_inj.mp (hs.symm.trans hs'),
      Option.some_inj.mp (ht.symm.trans ht')]
    exact hfollows
  next hnone =>
    have hall : ¬ ∃ b s t, InAll (Keyed.get? key (objectMap base))
        (Keyed.get? key (objectMap source)) (Keyed.get? key (objectMap target)) b s t := by
      rintro ⟨b, s, t, hb, hs, ht⟩
      exact hnone _ _ _ hb hs ht
    obtain ⟨ruling, label, hone, hlabel, hfind⟩ := object_decided hrulings hlabels hall hobject
    refine ⟨ruling, label, hone, hlabel, ?_⟩
    rw [(verdict_of_find? (recorded_of_threeWay hrulings) hfind).2]
    rfl

/-- No verdict of a merge is without a ruling. -/
theorem verdict_ne_unsettled (key : String) (value? : Option Json) :
    verdict (some base) source target rulings key ≠ .unsettled value? := by
  intro h
  by_cases hobject : agrees (Keyed.get? key (objectMap base)) (Keyed.get? key (objectMap source))
      (Keyed.get? key (objectMap target)) = true
  · rw [verdict_of_object_agrees hrulings hobject] at h
    exact Verdict.noConfusion h
  rw [Bool.not_eq_true] at hobject
  by_cases hall : ∃ b s t, InAll (Keyed.get? key (objectMap base))
      (Keyed.get? key (objectMap source)) (Keyed.get? key (objectMap target)) b s t
  · obtain ⟨b, s, t, hall⟩ := hall
    rw [verdict_of_inAll hrulings hall hobject] at h
    exact Verdict.noConfusion h
  · obtain ⟨ruling, label, -, -, hfind⟩ := object_decided hrulings hlabels hall hobject
    rw [(verdict_of_find? (recorded_of_threeWay hrulings) hfind).2] at h
    exact Verdict.noConfusion h

theorem property_ne_unsettled {b s t : Keyed Json} (name : String) (value? : Option Json)
    (hall : InAll (Keyed.get? key (objectMap base)) (Keyed.get? key (objectMap source))
      (Keyed.get? key (objectMap target)) b s t) :
    property rulings key name (Keyed.get? name b) (Keyed.get? name s) (Keyed.get? name t)
      ≠ .unsettled value? := by
  intro h
  by_cases hname : agrees (Keyed.get? name b) (Keyed.get? name s) (Keyed.get? name t) = true
  · rw [property] at h
    split at h
    next => exact Verdict.noConfusion h
    next hleft =>
      rw [agrees, Bool.or_eq_true] at hname
      rw [if_pos (hname.resolve_left hleft)] at h
      exact Verdict.noConfusion h
  rw [Bool.not_eq_true] at hname
  -- Objects that agree agree in every property, so here they do not.
  have hobject : agrees (Keyed.get? key (objectMap base)) (Keyed.get? key (objectMap source))
      (Keyed.get? key (objectMap target)) = false := by
    obtain ⟨hb, hs, ht⟩ := hall
    rw [hb, hs, ht, Bool.eq_false_iff]
    intro hagrees
    rw [Divergence.agrees_property name hagrees] at hname
    exact Bool.noConfusion hname
  obtain ⟨ruling, label, -, -, hfind⟩ := property_decided hrulings hlabels hall hobject hname
  obtain ⟨hleft, hright⟩ := Divergence.agrees_eq_false_iff.mp hname
  rw [property, if_neg (by rw [hleft]; decide), if_neg (by rw [hright]; decide), hfind] at h
  exact Verdict.noConfusion h

/-- The merge of two documents, with a label for every divergence that is found between
them since their base, is their three-way merge, and every verdict on the way is one of
the rule or of a label. -/
theorem document_isThreeWay (ordered : target.Ordered) :
    IsThreeWay base source target rulings (document (some base) source target rulings)
      ∧ (∀ key value?, verdict (some base) source target rulings key ≠ .unsettled value?)
      ∧ ∀ key b s t name value?,
        InAll (Keyed.get? key (objectMap base)) (Keyed.get? key (objectMap source))
          (Keyed.get? key (objectMap target)) b s t →
        property rulings key name (Keyed.get? name b) (Keyed.get? name s) (Keyed.get? name t)
          ≠ .unsettled value? := by
  have recorded : Recorded source target rulings := recorded_of_threeWay hrulings
  have hkeys : Keyed.keys (orderedObjects (document (some base) source target rulings))
      = (order source target).filter fun key =>
          (Keyed.get? key (objectMap (document (some base) source target rulings))).isSome := by
    simp only [get?_document recorded ordered]
    exact keys_document recorded ordered
  refine ⟨⟨followsAt_document hrulings hlabels ordered, fun key hmem => ?_, hkeys, ?_⟩,
    verdict_ne_unsettled hrulings hlabels,
    fun key b s t name value? => property_ne_unsettled hrulings hlabels name value?⟩
  · rw [hkeys] at hmem
    have hside := mem_order.mp (List.mem_filter.mp hmem).1
    rwa [Keyed.get?_isSome_iff, Keyed.get?_isSome_iff, Document.mem_keys_objectMap,
      Document.mem_keys_objectMap] at hside
  · rw [get?_objects_document, objects_document recorded ordered]
    split <;> rfl

omit hrulings hlabels

/-- A floor with one hall of a given size. -/
def hallFloor (size : WideInt) : Json :=
  .object [("objects", .array [.object [("id", .string "hall"), ("size", .number (.whole size))]])]

theorem ordered_hallFloor (size : WideInt) : (hallFloor size).Ordered := by
  simp [hallFloor, Keyed.Ascending, Json.Ordered, Json.OrderedItems, Json.OrderedMembers,
    -String.lt_iff_ltb]

theorem nesting_hallFloor (size : WideInt) : (hallFloor size).nesting = 3 := rfl

/-- The size of a small hall. -/
def smallSize : WideInt := ⟨1, by decide⟩

/-- The size of a large hall. -/
def largeSize : WideInt := ⟨2, by decide⟩

/-- The size of a great hall. -/
def greatSize : WideInt := ⟨3, by decide⟩

/-- Both sides gave the hall another size, and the source's stands. -/
def hallRuling : Ruling :=
  ⟨⟨.propertyConflict, "hall", some "size", some (.number (.whole ⟨2, by decide⟩)),
    some (.number (.whole ⟨3, by decide⟩))⟩, some "source_wins"⟩

theorem document_isThreeWay_hallFloor :
    IsThreeWay (hallFloor ⟨1, by decide⟩) (hallFloor ⟨2, by decide⟩) (hallFloor ⟨3, by decide⟩)
      [hallRuling] (document (some (hallFloor ⟨1, by decide⟩)) (hallFloor ⟨2, by decide⟩)
        (hallFloor ⟨3, by decide⟩) [hallRuling]) := by
  have hfound : [hallRuling].map Ruling.toDivergence = Divergence.threeWay
      (hallFloor ⟨1, by decide⟩) (hallFloor ⟨2, by decide⟩) (hallFloor ⟨3, by decide⟩) := rfl
  exact (document_isThreeWay hfound (by decide) (ordered_hallFloor _)).1

end Merge

end PlanHistory
