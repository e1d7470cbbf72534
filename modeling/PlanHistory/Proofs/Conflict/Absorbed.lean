/-
Merging again what was merged by taking the source's side.

If every divergence is settled for the source, then the merged document needs no more of the
source: each object is the source's, or the source left the base's, or both hold of every
property of it (`Merge.Absorbed`).  So merging the source into it again finds nothing to
settle and changes nothing:

* **`Merge.Absorbed.since_eq_nil`** — nothing diverges;
* **`Merge.document_twice`** — the second merged document is the first.
-/
import PlanHistory.Proofs.Conflict.TwoWay

namespace PlanHistory

namespace Merge

open Document (objectMap orderedObjects objectsKey)
open Divergence (agrees InAll)

variable {base? source? merged? : Option Json}

/-! ### Values that are taken -/

/-- Whether a merged value is the source's, or the source left the base's. -/
def Taken (base? source? merged? : Option Json) : Prop :=
  (source? == merged? || source? == base?) = true

theorem taken_source (base? source? : Option Json) : Taken base? source? source? := by
  rw [Taken, beq_self_eq_true, Bool.true_or]

theorem Taken.agrees (h : Taken base? source? merged?) :
    agrees base? source? merged? = true := by
  rw [Divergence.agrees, Bool.or_eq_true]
  exact Or.inl h

/-- Whether a merged object is taken as a whole, or in every property. -/
def AbsorbedAt (base? source? merged? : Option Json) : Prop :=
  Taken base? source? merged?
    ∨ ∃ b s m, InAll base? source? merged? b s m
      ∧ ∀ name, Taken (Keyed.get? name b) (Keyed.get? name s) (Keyed.get? name m)

/-- Nothing diverges at an object that is absorbed. -/
theorem AbsorbedAt.atObject_eq_nil (h : AbsorbedAt base? source? merged?) (object : String) :
    Divergence.atObject object base? source? merged? = [] := by
  by_cases hagrees : agrees base? source? merged? = true
  · exact Divergence.atObject_of_agrees hagrees
  rcases h with htaken | ⟨b, s, m, hall, htaken⟩
  · exact absurd htaken.agrees hagrees
  rw [Divergence.atObject_of_inAll hall (Bool.not_eq_true _ ▸ hagrees),
    List.eq_nil_iff_forall_not_mem]
  intro d hmem
  obtain ⟨name, hname, -⟩ := Divergence.mem_ofProperties.mp hmem
  rw [(htaken name).agrees] at hname
  simp at hname

/-- Merging an object into one that absorbs it leaves that one. -/
theorem AbsorbedAt.value?_eq (h : AbsorbedAt base? source? merged?)
    (hbase : ∀ item ∈ base?, item.Ordered) (hsource : ∀ item ∈ source?, item.Ordered)
    (hmerged : ∀ item ∈ merged?, item.Ordered) (key : String) :
    (threeWayObject [] key base? source? merged?).value? = merged? := by
  rw [threeWayObject.eq_def]
  by_cases hwhole : (source? == merged? || source? == base?) = true
  · rw [if_pos hwhole]
    rfl
  rw [if_neg hwhole]
  rcases h with htaken | ⟨b, s, m, ⟨rfl, rfl, rfl⟩, htaken⟩
  · exact absurd htaken hwhole
  have hb := (Json.ordered_object.mp (hbase _ rfl)).1
  have hs := (Json.ordered_object.mp (hsource _ rfl)).1
  have hm := (Json.ordered_object.mp (hmerged _ rfl)).1
  -- If the merged object were the base's then so were the source's, in every property.
  have hne : (some (Json.object m) == some (Json.object b)) = false := by
    rw [Bool.eq_false_iff]
    intro hsame
    refine hwhole (Bool.or_eq_true_iff.mpr (Or.inr ?_))
    refine Json.same_of_get? hs hb fun name => ?_
    rcases Bool.or_eq_true_iff.mp (htaken name) with hname | hname
    · exact Json.some_same_trans hname (Json.get?_same hsame name)
    · exact hname
  rw [hne, if_neg Bool.false_ne_true]
  dsimp only [Verdict.value?]
  refine congrArg (fun members => some (Json.object members))
    (Keyed.ext_of_ascending (ascending_members _ _ _ _ _) hm fun name => ?_)
  have hname : (Keyed.get? name s == Keyed.get? name m || Keyed.get? name s == Keyed.get? name b)
      = true := htaken name
  rw [get?_members, property, if_pos hname]
  rfl

/-! ### Documents that are taken -/

variable {base source target merged : Json} {rulings : List Ruling}

/-- Whether a document needs no more of the source: every object is absorbed, or is the
source's if there is no base. -/
def Absorbed (base? : Option Json) (source merged : Json) : Prop :=
  match base? with
  | some base => ∀ key, AbsorbedAt (Keyed.get? key (objectMap base))
      (Keyed.get? key (objectMap source)) (Keyed.get? key (objectMap merged))
  | none => ∀ key, Keyed.get? key (objectMap merged) = Keyed.get? key (objectMap source)

theorem absorbed_self (base? : Option Json) (source : Json) : Absorbed base? source source := by
  cases base? with
  | some base => exact fun key => Or.inl (taken_source _ _)
  | none => exact fun key => rfl

/-- Nothing diverges between a source and a document that needs no more of it. -/
theorem Absorbed.since_eq_nil (h : Absorbed base? source merged) :
    Divergence.since base? source merged = [] := by
  rw [List.eq_nil_iff_forall_not_mem]
  intro d hmem
  cases base? with
  | some base =>
    have hat := Divergence.mem_threeWay.mp hmem
    rw [(h d.object).atObject_eq_nil] at hat
    simp at hat
  | none =>
    have hdiffers := (Divergence.mem_twoWay.mp hmem).1
    rw [h d.object, beq_self_eq_true] at hdiffers
    simp at hdiffers

/-- A merge with nothing to settle leaves the objects of a document that needs no more. -/
theorem Absorbed.verdict_value? (h : Absorbed base? source merged)
    (hbase : ∀ base ∈ base?, base.Ordered) (hsource : source.Ordered) (hmerged : merged.Ordered)
    (key : String) :
    (verdict base? source merged [] key).value? = Keyed.get? key (objectMap merged) := by
  rw [verdict, object.eq_def]
  dsimp only [Ruling.find?, List.reverse_nil, List.findSome?_nil]
  cases base? with
  | some base =>
    exact (h key).value?_eq (fun _ => Document.ordered_of_get? (hbase base rfl))
      (fun _ => Document.ordered_of_get? hsource) (fun _ => Document.ordered_of_get? hmerged) key
  | none =>
    dsimp only [Option.map_none]
    rw [h key, twoWayObject, if_pos (beq_self_eq_true _)]
    rfl

section TakingSource

variable (hrulings : rulings.map Ruling.toDivergence = Divergence.since base? source target)
  (hlabels : ∀ ruling ∈ rulings, ruling.resolution? = some .sourceWins)

include hlabels in
/-- What settles an object or a property takes the source's value. -/
theorem resolution_of_find? {object : String} {property? : Option String} {ruling : Ruling}
    {resolution : Resolution}
    (hfind : Ruling.find? rulings object property? = some (ruling, resolution)) :
    resolution = .sourceWins := by
  obtain ⟨hmem, -, -, hresolution⟩ := Ruling.find?_eq_some hfind
  exact Option.some_inj.mp (hresolution.symm.trans (hlabels ruling hmem))

include hlabels in
theorem isSome_label? : ∀ ruling ∈ rulings, ruling.label?.isSome := by
  intro ruling hmem
  have hlabel := hlabels ruling hmem
  rw [Ruling.resolution?, Option.map_eq_some_iff] at hlabel
  obtain ⟨label, hlabel, -⟩ := hlabel
  rw [hlabel]
  rfl

include hrulings hlabels in
/-- Without a base the merged document has the source's objects. -/
theorem get?_document_of_none (hbase : base? = none) (ordered : target.Ordered) (key : String) :
    Keyed.get? key (objectMap (document base? source target rulings))
      = Keyed.get? key (objectMap source) := by
  subst hbase
  rw [get?_document (recorded_of_since hrulings) ordered]
  by_cases hsame : (Keyed.get? key (objectMap source) == Keyed.get? key (objectMap target)) = true
  · rw [verdict_of_same hrulings hsame]
    rfl
  · rw [(verdict_of_differs hrulings (isSome_label? hlabels)
      (Bool.not_eq_true _ ▸ hsame)).of_all hlabels]
    rfl

include hrulings hlabels in
/-- Every object of the merged document is absorbed. -/
theorem absorbedAt_document (hbase : base? = some base) (ordered : target.Ordered)
    (key : String) :
    AbsorbedAt (Keyed.get? key (objectMap base)) (Keyed.get? key (objectMap source))
      (Keyed.get? key (objectMap (document base? source target rulings))) := by
  subst hbase
  have hsome := isSome_label? hlabels
  have recorded := recorded_of_since hrulings
  rw [get?_document recorded ordered]
  by_cases hobject : agrees (Keyed.get? key (objectMap base)) (Keyed.get? key (objectMap source))
      (Keyed.get? key (objectMap target)) = true
  · rw [verdict_of_object_agrees hrulings hobject, Verdict.value?]
    split
    next htaken => exact Or.inl htaken
    next => exact Or.inl (taken_source _ _)
  rw [Bool.not_eq_true] at hobject
  by_cases hall : ∃ b s t, InAll (Keyed.get? key (objectMap base))
      (Keyed.get? key (objectMap source)) (Keyed.get? key (objectMap target)) b s t
  · obtain ⟨b, s, t, hall⟩ := hall
    rw [verdict_of_inAll hrulings hall hobject]
    refine Or.inr ⟨b, s, _, ⟨hall.1, hall.2.1, rfl⟩, fun name => ?_⟩
    rw [get?_members, property]
    split
    next htaken => exact htaken
    next hleft =>
      split
      next => exact taken_source _ _
      next hright =>
        obtain ⟨ruling, label, -, -, hfind⟩ := property_decided hrulings hsome hall hobject
          (Divergence.agrees_eq_false_iff.mpr
            ⟨Bool.not_eq_true _ ▸ hleft, Bool.not_eq_true _ ▸ hright⟩)
        rw [hfind, resolution_of_find? hlabels hfind]
        exact taken_source _ _
  · obtain ⟨ruling, label, -, -, hfind⟩ := object_decided hrulings hsome hall hobject
    rw [(verdict_of_find? recorded hfind).2, resolution_of_find? hlabels hfind]
    exact Or.inl (taken_source _ _)

include hrulings hlabels in
/-- A document that is merged for the source needs no more of it. -/
theorem absorbed_document (ordered : target.Ordered) :
    Absorbed base? source (document base? source target rulings) := by
  cases base? with
  | some base => exact absorbedAt_document hrulings hlabels rfl ordered
  | none => exact get?_document_of_none hrulings hlabels rfl ordered

end TakingSource

/-! ### The second merge -/

theorem keepsOrder_self (source : Json) : KeepsOrder source source where
  shared := by
    have hall : (Keyed.keys (orderedObjects source)).filter
        (fun key => decide (key ∈ Keyed.keys (orderedObjects source)))
        = Keyed.keys (orderedObjects source) :=
      List.filter_eq_self.mpr fun key hmem => decide_eq_true hmem
    have hnone : (Keyed.keys (orderedObjects source)).filter
        (fun key => decide (key ∉ Keyed.keys (orderedObjects source))) = [] :=
      List.filter_eq_nil_iff.mpr fun key hmem hnot => of_decide_eq_true hnot hmem
    rw [hall, hnone, List.append_nil]
  listed := id

/-- A merged document lists the source's objects first, in the source's order. -/
theorem keepsOrder_document (base? : Option Json) (recorded : Recorded source target rulings)
    (ordered : target.Ordered) : KeepsOrder source (document base? source target rulings) where
  shared := by
    rw [keys_document recorded ordered]
    generalize (fun key => (verdict base? source target rulings key).value?.isSome) = kept
    have hfirst : (Keyed.keys (orderedObjects source)).filter
          (fun key => decide (key ∈ (order source target).filter kept))
        = (Keyed.keys (orderedObjects source)).filter kept :=
      List.filter_congr fun key hmem => by simp [order, hmem]
    -- What is not the source's comes from the second part of the order alone.
    have hnone : ((Keyed.keys (orderedObjects source)).filter kept).filter
          (fun key => decide (key ∉ Keyed.keys (orderedObjects source))) = [] :=
      List.filter_eq_nil_iff.mpr fun key hmem hnot =>
        of_decide_eq_true hnot (List.mem_filter.mp hmem).1
    have hrest : (((Keyed.keys (orderedObjects target)).filter
          fun key => !(Keyed.keys (orderedObjects source)).contains key).filter kept).filter
            (fun key => decide (key ∉ Keyed.keys (orderedObjects source)))
        = ((Keyed.keys (orderedObjects target)).filter
          fun key => !(Keyed.keys (orderedObjects source)).contains key).filter kept :=
      List.filter_eq_self.mpr fun key hmem => by
        simpa using (List.mem_filter.mp (List.mem_filter.mp hmem).1).2
    rw [hfirst, order, List.filter_append, List.filter_append, hnone, hrest, List.nil_append]
  listed hlisted := by
    rw [get?_objects_document, hlisted, Bool.true_or, if_pos rfl]
    rfl

/-- Merging a source into itself finds nothing, and gives it. -/
theorem document_self (hbase : ∀ base ∈ base?, base.Ordered) (valid : Document.Valid source) :
    Divergence.since base? source source = [] ∧ document base? source source [] = source := by
  have habsorbed := absorbed_self base? source
  refine ⟨habsorbed.since_eq_nil, document_of_absorbs (fun _ => valid.ordered) valid
    { objects := habsorbed.verdict_value? hbase valid.ordered valid.ordered
      members := fun key hkey => ?_
      order := keepsOrder_self source }⟩
  rw [member_document _ _ _ _ hkey]
  cases base? with
  | none => rfl
  | some base => exact ite_self _

/-- **Merging a source again into what was merged for it finds nothing, and gives the same
document.** -/
theorem document_twice
    (hrulings : rulings.map Ruling.toDivergence = Divergence.since base? source target)
    (hlabels : ∀ ruling ∈ rulings, ruling.resolution? = some .sourceWins)
    (hbase : ∀ base ∈ base?, base.Ordered) (hsource : Document.Valid source)
    (htarget : Document.Valid target) :
    Divergence.since base? source (document base? source target rulings) = []
      ∧ document base? source (document base? source target rulings) []
        = document base? source target rulings := by
  have recorded : Recorded source target rulings := recorded_of_since hrulings
  have habsorbed := absorbed_document hrulings hlabels htarget.ordered
  have hmerged : (document base? source target rulings).Ordered :=
    ordered_document recorded hsource.ordered htarget.ordered
  have valid : Document.Valid (document base? source target rulings) :=
    ⟨hmerged, validate_document recorded htarget.ordered hsource.accepted htarget.accepted⟩
  refine ⟨habsorbed.since_eq_nil, document_of_absorbs (fun _ => hsource.ordered) valid
    { objects := habsorbed.verdict_value? hbase hsource.ordered hmerged
      members := fun key hkey => ?_
      order := keepsOrder_document base? recorded htarget.ordered }⟩
  rw [member_document _ _ _ _ hkey, member_document _ _ _ _ hkey]
  cases base? with
  | none => rfl
  | some base =>
    dsimp only
    split <;> rfl

end Merge

end PlanHistory
