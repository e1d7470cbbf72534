/-
What a merge without a base makes of every object.

Without a base every object that differs between the two sides needs a decision, and nothing
else does (`Divergence.ExactTwoWay`).  The merged document has what the labels ask for of
these, what the two sides have in common of all others, and the source's members around them
(`Merge.IsTwoWay`):

* **`Divergence.twoWay_exact`** — the divergences that are found;
* **`Merge.document_isTwoWay`** — the detector and the merger together.
-/
import PlanHistory.Proofs.Conflict.Contained
import PlanHistory.Proofs.Conflict.Exact
import PlanHistory.Proofs.Conflict.ThreeWay

namespace PlanHistory

/-! ### What is found -/

namespace Divergence

open Document (objectMap)

variable {source target : Json} {d : Divergence}

/-- Whether a divergence is at an object that differs between two documents. -/
def AtDiffering (source target : Json) (d : Divergence) : Prop :=
  (Keyed.get? d.object (objectMap source) == Keyed.get? d.object (objectMap target)) = false
    ∧ KindOf d.kind d.source? d.target? ∧ d.property? = none
    ∧ d.source? = Keyed.get? d.object (objectMap source)
    ∧ d.target? = Keyed.get? d.object (objectMap target)

theorem mem_twoWay_iff : d ∈ twoWay source target ↔ AtDiffering source target d := by
  rw [mem_twoWay, ofObject?_eq_some_iff_kindOf, AtDiffering]
  constructor
  · rintro ⟨hdiffers, hkind, -, hproperty, hsource, htarget⟩
    rw [hsource, htarget]
    exact ⟨hdiffers, hkind, hproperty, rfl, rfl⟩
  · rintro ⟨hdiffers, hkind, hproperty, hsource, htarget⟩
    rw [← hsource, ← htarget]
    rw [← hsource, ← htarget] at hdiffers
    exact ⟨hdiffers, hkind, rfl, hproperty, rfl, rfl⟩

/-- What the divergences of two documents must be to be exact. -/
structure ExactTwoWay (source target : Json) (found : List Divergence) : Prop where
  /-- Their objects ascend, byte by byte. -/
  ascending : found.Pairwise fun a b => Text.bytes a.object < Text.bytes b.object
  /-- They are at the objects that differ. -/
  exact : ∀ d, d ∈ found ↔ AtDiffering source target d

/-- **The divergences of two documents are exact.** -/
theorem twoWay_exact (source target : Json) : ExactTwoWay source target (twoWay source target) where
  ascending := by
    refine (pairwise_twoWay source target).imp_of_mem ?_
    intro a b ha hb hbefore
    obtain ⟨-, -, hpa, -⟩ := mem_twoWay_iff.mp ha
    obtain ⟨-, -, hpb, -⟩ := mem_twoWay_iff.mp hb
    rcases hbefore with hobject | ⟨-, hproperty⟩
    · exact Text.lt_iff_bytes_lt.mp hobject
    · rw [hpa, hpb] at hproperty
      exact absurd hproperty (by simp)
  exact _ := mem_twoWay_iff

end Divergence

/-! ### What is merged -/

namespace Ruling

variable {rulings : List Ruling} {object : String} {property? : Option String}
  {resolution : Resolution} {P : Resolution → Prop}

/-- What is decided by labels that all ask for the same is decided so. -/
theorem Decides.of_all (h : Decides rulings object property? P)
    (hall : ∀ ruling ∈ rulings, ruling.resolution? = some resolution) : P resolution := by
  obtain ⟨ruling, label, hone, hlabel, hP⟩ := h
  have hmem : ruling ∈ rulings.filter (isAt object property?) := by
    rw [hone]
    exact List.mem_singleton_self ruling
  have hresolution := hall ruling (List.mem_filter.mp hmem).1
  rw [resolution?, hlabel, Option.map_some, Option.some_inj] at hresolution
  rwa [hresolution] at hP

end Ruling

namespace Merge

open Document (objectMap orderedObjects objectsKey)

/-- What a document must be to be the merge of two documents without a base. -/
structure IsTwoWay (source target : Json) (rulings : List Ruling) (merged : Json) : Prop where
  valid : Document.Valid merged
  /-- The members beside the objects are the source's. -/
  members : ∀ key, key ≠ objectsKey → merged.get? key = source.get? key
  /-- Every object is what the two sides have in common, or what its label asks for. -/
  objects : ∀ key,
    if Keyed.get? key (objectMap source) == Keyed.get? key (objectMap target) then
      Keyed.get? key (objectMap merged) = Keyed.get? key (objectMap source)
    else
      Ruling.Decides rulings key none fun resolution =>
        Keyed.get? key (objectMap merged) = resolution.object?
          (Keyed.get? key (objectMap source)) (Keyed.get? key (objectMap target))
  /-- No object comes from elsewhere. -/
  from_sides : ∀ key ∈ Keyed.keys (orderedObjects merged),
    key ∈ Keyed.keys (orderedObjects source) ∨ key ∈ Keyed.keys (orderedObjects target)
  /-- The objects of the source come in its order, then those of the target alone in its
  order. -/
  in_order : Keyed.keys (orderedObjects merged)
    = (Keyed.keys (orderedObjects source) ++ (Keyed.keys (orderedObjects target)).filter
        fun key => !(Keyed.keys (orderedObjects source)).contains key).filter
      fun key => (Keyed.get? key (objectMap merged)).isSome
  /-- Every item of `objects` is one of these, and there are some if one side lists any. -/
  indexed : (merged.get? objectsKey).bind Json.items?
    = if (source.get? objectsKey).isSome || (target.get? objectsKey).isSome
      then some ((orderedObjects merged).map Prod.snd) else none

variable {rulings : List Ruling} {key : String} {source target merged : Json}

/-- If every label takes the source's objects then the merged document has these. -/
theorem IsTwoWay.objectMap_of_source (h : IsTwoWay source target rulings merged)
    (hlabels : ∀ ruling ∈ rulings, ruling.resolution? = some .sourceWins) :
    objectMap merged = objectMap source := by
  refine Keyed.ext_of_ascending (Keyed.ascending_ofEntries _) (Keyed.ascending_ofEntries _) ?_
  intro key
  have hobject := h.objects key
  split at hobject
  next => exact hobject
  next => exact hobject.of_all hlabels

/-- If every label takes the target's objects then the merged document has these. -/
theorem IsTwoWay.objectMap_of_target (h : IsTwoWay source target rulings merged)
    (hlabels : ∀ ruling ∈ rulings, ruling.resolution? = some .targetWins) :
    (Json.object (objectMap merged) == Json.object (objectMap target)) = true := by
  refine Json.same_of_get? (Keyed.ascending_ofEntries _) (Keyed.ascending_ofEntries _) ?_
  intro key
  have hobject := h.objects key
  split at hobject
  next hsame =>
    rw [hobject]
    exact hsame
  next =>
    have htarget : Keyed.get? key (objectMap merged) = Keyed.get? key (objectMap target) :=
      hobject.of_all hlabels
    rw [htarget, beq_self_eq_true]

variable (hrulings : rulings.map Ruling.toDivergence = Divergence.twoWay source target)
  (hlabels : ∀ ruling ∈ rulings, ruling.label?.isSome)

include hrulings

/-- What the two sides have in common is kept. -/
theorem verdict_of_same
    (hsame : (Keyed.get? key (objectMap source) == Keyed.get? key (objectMap target)) = true) :
    verdict none source target rulings key = .merged (Keyed.get? key (objectMap source)) := by
  have hnone : Ruling.find? rulings key none = none := by
    refine Ruling.find?_eq_none_of_not_mem hrulings ?_
    rintro d hmem ⟨rfl, -⟩
    rw [(Divergence.mem_twoWay.mp hmem).1] at hsame
    exact Bool.noConfusion hsame
  rw [verdict, object.eq_def, hnone]
  dsimp only [Option.map_none]
  rw [twoWayObject, if_pos hsame]

include hlabels

/-- What differs between the two sides is decided by one ruling. -/
theorem verdict_of_differs
    (hdiffers : (Keyed.get? key (objectMap source) == Keyed.get? key (objectMap target)) = false) :
    Ruling.Decides rulings key none fun resolution =>
      verdict none source target rulings key = .settled (resolution.object?
        (Keyed.get? key (objectMap source)) (Keyed.get? key (objectMap target))) := by
  obtain ⟨d, hd, rfl, hwhole⟩ :=
    Divergence.exists_ofObject? key (Divergence.isSome_of_differs hdiffers)
  have hmem : d ∈ Divergence.twoWay source target := Divergence.mem_twoWay.mpr ⟨hdiffers, hd⟩
  obtain ⟨ruling, label, hone, hlabel, hfind⟩ :=
    Ruling.decided_of_mem hrulings (Divergence.pairwise_twoWay source target) hlabels hmem
  rw [hwhole] at hone hfind
  have recorded : Recorded source target rulings := @recorded_of_since _ _ _ none hrulings
  exact ⟨ruling, label, hone, hlabel, (verdict_of_find? recorded hfind).2⟩

/-- No verdict of a merge is without a ruling. -/
theorem verdict_ne_unsettled_of_none (key : String) (value? : Option Json) :
    verdict none source target rulings key ≠ .unsettled value? := by
  intro h
  by_cases hsame : (Keyed.get? key (objectMap source) == Keyed.get? key (objectMap target)) = true
  · rw [verdict_of_same hrulings hsame] at h
    exact Verdict.noConfusion h
  · obtain ⟨ruling, label, -, -, hsettled⟩ :=
      verdict_of_differs hrulings hlabels (Bool.not_eq_true _ ▸ hsame)
    rw [hsettled] at h
    exact Verdict.noConfusion h

/-- A merge with a label for every divergence is the two-way merge. -/
theorem IsTwoWay.of_labelled (hsource : Document.Valid source) (htarget : Document.Valid target) :
    IsTwoWay source target rulings (document none source target rulings) := by
  have recorded : Recorded source target rulings := @recorded_of_since _ _ _ none hrulings
  have ordered := htarget.ordered
  refine
    { valid := ⟨ordered_document recorded hsource.ordered ordered,
        validate_document recorded ordered hsource.accepted htarget.accepted⟩
      members := fun key hkey => member_document none _ _ _ hkey
      objects := fun key => ?_
      from_sides := fun key => side_of_mem_document recorded ordered
      in_order := keys_document_eq_filter recorded ordered
      indexed := items_document recorded ordered }
  rw [get?_document recorded ordered]
  split
  next hsame =>
    rw [verdict_of_same hrulings hsame]
    rfl
  next hdiffers =>
    obtain ⟨ruling, label, hone, hlabel, hsettled⟩ :=
      verdict_of_differs hrulings hlabels (Bool.not_eq_true _ ▸ hdiffers)
    refine ⟨ruling, label, hone, hlabel, ?_⟩
    rw [hsettled]
    rfl

/-- **The merge of two documents without a base**, with a label for every divergence that is
found between them, is their two-way merge, and every verdict on the way is one of the rule or
of a label.  Labels that all take one side's objects give this side's objects. -/
theorem document_isTwoWay (hsource : Document.Valid source) (htarget : Document.Valid target) :
    Divergence.ExactTwoWay source target (Divergence.twoWay source target)
      ∧ IsTwoWay source target rulings (document none source target rulings)
      ∧ (∀ key value?, verdict none source target rulings key ≠ .unsettled value?)
      ∧ ((∀ ruling ∈ rulings, ruling.resolution? = some .targetWins) →
        (Json.object (objectMap (document none source target rulings))
          == Json.object (objectMap target)) = true)
      ∧ ((∀ ruling ∈ rulings, ruling.resolution? = some .sourceWins) →
        objectMap (document none source target rulings) = objectMap source) := by
  have hmerged := IsTwoWay.of_labelled hrulings hlabels hsource htarget
  exact ⟨Divergence.twoWay_exact source target, hmerged,
    verdict_ne_unsettled_of_none hrulings hlabels, hmerged.objectMap_of_target,
    hmerged.objectMap_of_source⟩

omit hrulings hlabels

/-- A floor with a hall of a given size and a lamp. -/
def lampFloor (size : WideInt) : Json :=
  .object [("level", .number (.whole size)),
    ("objects", .array [.object [("id", .string "lamp")],
      .object [("id", .string "hall"), ("size", .number (.whole size))]])]

/-- A floor with a desk and a hall of a given size. -/
def deskFloor (size : WideInt) : Json :=
  .object [("objects", .array [.object [("id", .string "desk")],
    .object [("id", .string "hall"), ("size", .number (.whole size))]])]

theorem valid_lampFloor (size : WideInt) : Document.Valid (lampFloor size) where
  ordered := by
    simp [lampFloor, Keyed.Ascending, Json.Ordered, Json.OrderedItems, Json.OrderedMembers,
      -String.lt_iff_ltb]
  accepted := rfl

theorem valid_deskFloor (size : WideInt) : Document.Valid (deskFloor size) where
  ordered := by
    simp [deskFloor, Keyed.Ascending, Json.Ordered, Json.OrderedItems, Json.OrderedMembers,
      -String.lt_iff_ltb]
  accepted := rfl

/-- The lamp is taken, the desk left out, and the hall removed from both. -/
def lampRulings : List Ruling :=
  [⟨⟨.objectDeleted, "desk", none, none, some (.object [("id", .string "desk")])⟩,
      some "source_wins"⟩,
    ⟨⟨.objectModified, "hall", none,
      some (.object [("id", .string "hall"), ("size", .number (.whole smallSize))]),
      some (.object [("id", .string "hall"), ("size", .number (.whole largeSize))])⟩, some "null"⟩,
    ⟨⟨.objectAdded, "lamp", none, some (.object [("id", .string "lamp")]), none⟩, some "merge"⟩]

theorem document_isTwoWay_lampFloor :
    IsTwoWay (lampFloor smallSize) (deskFloor largeSize) lampRulings
        (document none (lampFloor smallSize) (deskFloor largeSize) lampRulings)
      ∧ document none (lampFloor smallSize) (deskFloor largeSize) lampRulings
        = .object [("level", .number (.whole smallSize)),
          ("objects", .array [.object [("id", .string "lamp")]])] := by
  have hrulings : lampRulings.map Ruling.toDivergence
      = Divergence.twoWay (lampFloor smallSize) (deskFloor largeSize) := rfl
  have hlabels : ∀ ruling ∈ lampRulings, ruling.label?.isSome := by decide
  exact ⟨(document_isTwoWay hrulings hlabels (valid_lampFloor _) (valid_deskFloor _)).2.1, rfl⟩

end Merge

end PlanHistory
