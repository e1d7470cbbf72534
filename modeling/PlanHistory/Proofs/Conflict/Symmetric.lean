/-
The two sides of a merge are alike.

The detector and the merger look at the source first and keep the target by default.  Neither
shows in what they find and make: with source and target exchanged the same divergences are
found, seen from the other side, and labels that are exchanged as well lead to equal objects.

* **`Divergence.since_exchanged`** — what is found from the other side;
* **`Merge.same_of_agreed`** — a value on which no decision is needed is the same from both
  sides;
* **`Merge.document_exchanged`** — the objects that are made of it.
-/
import PlanHistory.Proofs.Conflict.ThreeWay

namespace PlanHistory

/-- The kind of a divergence, seen from the other side. -/
def ConflictKind.exchanged : ConflictKind → ConflictKind
  | .objectAdded => .objectDeleted
  | .objectDeleted => .objectAdded
  | kind => kind

/-! ### What is found from the other side -/

namespace Divergence

variable {object : String} {base? source? target? : Option Json}

/-- A divergence, seen from the other side. -/
def exchanged (d : Divergence) : Divergence :=
  { d with kind := d.kind.exchanged, source? := d.target?, target? := d.source? }

theorem agrees_exchanged (base? source? target? : Option Json) :
    agrees base? target? source? = agrees base? source? target? := by
  rw [agrees, agrees, Json.some_same_comm target? source?, Bool.or_right_comm]

theorem ofObject?_exchanged (object : String) (source? target? : Option Json) :
    ofObject? object target? source? = (ofObject? object source? target?).map exchanged := by
  cases source? <;> cases target? <;> rfl

/-- The keys of three documents are the same in every order of the documents. -/
theorem ascending_exchanged (bases sources targets : List String) :
    ascending (bases ++ targets ++ sources) = ascending (bases ++ sources ++ targets) := by
  refine ascending_congr fun key => ?_
  simp only [List.mem_append]
  exact or_right_comm

theorem ofProperties_exchanged (object : String) (base source target : Keyed Json) :
    ofProperties object base target source
      = (ofProperties object base source target).map exchanged := by
  rw [ofProperties, ofProperties, List.map_filterMap, ascending_exchanged]
  refine List.filterMap_congr fun property _ => ?_
  dsimp only
  rw [agrees_exchanged]
  split <;> rfl

theorem atObject_exchanged (object : String) (base? source? target? : Option Json) :
    atObject object base? target? source?
      = (atObject object base? source? target?).map exchanged := by
  by_cases hagrees : agrees base? source? target? = true
  · rw [atObject_of_agrees hagrees, atObject_of_agrees (by rw [agrees_exchanged, hagrees])]
    rfl
  rw [Bool.not_eq_true] at hagrees
  have hagrees' : agrees base? target? source? = false := by rw [agrees_exchanged, hagrees]
  by_cases hall : ∃ base source target, InAll base? source? target? base source target
  · obtain ⟨base, source, target, hall⟩ := hall
    have hall' : InAll base? target? source? base target source := ⟨hall.1, hall.2.2, hall.2.1⟩
    rw [atObject_of_inAll hall hagrees, atObject_of_inAll hall' hagrees', ofProperties_exchanged]
  · have hall' : ¬ ∃ base target source, InAll base? target? source? base target source := by
      rintro ⟨base, target, source, hb, ht, hs⟩
      exact hall ⟨base, source, target, hb, hs, ht⟩
    rw [atObject_of_not_inAll hall hagrees, atObject_of_not_inAll hall' hagrees',
      ofObject?_exchanged]
    cases ofObject? object source? target? <;> rfl

theorem threeWay_exchanged (base source target : Json) :
    threeWay base target source = (threeWay base source target).map exchanged := by
  rw [threeWay, threeWay, List.map_flatMap, ascending_exchanged]
  exact List.flatMap_congr fun object _ => atObject_exchanged _ _ _ _

theorem twoWay_exchanged (source target : Json) :
    twoWay target source = (twoWay source target).map exchanged := by
  rw [twoWay, twoWay, List.map_filterMap]
  have hkeys := ascending_exchanged [] (Keyed.keys (Document.objectMap source))
    (Keyed.keys (Document.objectMap target))
  rw [List.nil_append, List.nil_append] at hkeys
  rw [hkeys]
  refine List.filterMap_congr fun object _ => ?_
  dsimp only
  rw [Json.some_same_comm, ofObject?_exchanged]
  split <;> rfl

/-- The same divergences are found from the other side, in the same order. -/
theorem since_exchanged (base? : Option Json) (source target : Json) :
    since base? target source = (since base? source target).map exchanged := by
  cases base? with
  | some base => exact threeWay_exchanged base source target
  | none => exact twoWay_exchanged source target

end Divergence

/-! ### Labels from the other side -/

namespace Resolution

variable {resolution : Resolution}

/-- A resolution, seen from the other side. -/
def exchanged : Resolution → Resolution
  | .sourceWins => .targetWins
  | .targetWins => .sourceWins
  | resolution => resolution

/-- Whether a resolution takes the value of a side as it is. -/
def TakesSide (resolution : Resolution) : Prop :=
  resolution = .sourceWins ∨ resolution = .targetWins

theorem TakesSide.object?_exchanged (h : resolution.TakesSide) (source? target? : Option Json) :
    resolution.exchanged.object? target? source? = resolution.object? source? target? := by
  rcases h with rfl | rfl <;> rfl

theorem TakesSide.property?_exchanged (h : resolution.TakesSide)
    (source? target? : Option Json) :
    resolution.exchanged.property? target? source? = resolution.property? source? target? := by
  rcases h with rfl | rfl <;> rfl

/-- The label that asks for the other side. -/
def exchangedLabel (label : String) : String :=
  match ofLabel label with
  | .sourceWins => Resolution.targetWins.label
  | .targetWins => Resolution.sourceWins.label
  | _ => label

theorem ofLabel_exchangedLabel (label : String) :
    ofLabel (exchangedLabel label) = (ofLabel label).exchanged := by
  rw [exchangedLabel]
  cases h : ofLabel label with
  | sourceWins =>
    show ofLabel "target_wins" = .targetWins
    rfl
  | targetWins =>
    show ofLabel "source_wins" = .sourceWins
    rfl
  | overlay => exact h
  | custom text => exact h

end Resolution

namespace Ruling

variable {rulings : List Ruling}

/-- A ruling for the same value, seen from the other side. -/
def exchanged (ruling : Ruling) : Ruling :=
  ⟨ruling.toDivergence.exchanged, ruling.label?.map Resolution.exchangedLabel⟩

theorem resolution?_exchanged (ruling : Ruling) :
    ruling.exchanged.resolution? = ruling.resolution?.map Resolution.exchanged := by
  obtain ⟨d, label?⟩ := ruling
  cases label? with
  | none => rfl
  | some label => exact congrArg some (Resolution.ofLabel_exchangedLabel label)

/-- What decides a slot decides it from the other side. -/
theorem find?_exchanged (rulings : List Ruling) (object : String) (property? : Option String) :
    find? (rulings.map exchanged) object property?
      = (find? rulings object property?).map fun found =>
        (found.1.exchanged, found.2.exchanged) := by
  rw [find?, find?, ← List.map_reverse, List.findSome?_map, List.map_findSome?]
  congr 1
  funext ruling
  show (if ruling.object == object && ruling.property? == property? then
      ruling.exchanged.resolution?.map fun resolution => (ruling.exchanged, resolution) else none)
    = _
  rw [resolution?_exchanged, Function.comp_apply]
  split
  · rw [Option.map_map, Option.map_map]
    rfl
  · rfl

/-- Rulings on what was found are, seen from the other side, on what is found from there. -/
theorem toDivergence_exchanged {base? : Option Json} {source target : Json}
    (h : rulings.map toDivergence = Divergence.since base? source target) :
    (rulings.map exchanged).map toDivergence = Divergence.since base? target source := by
  rw [Divergence.since_exchanged, ← h, List.map_map, List.map_map]
  rfl

end Ruling

namespace Merge

open Document (objectMap)
open Divergence (agrees InAll)

variable {rulings : List Ruling} {key : String} {base source target : Json} {base? : Option Json}
  {source? target? : Option Json}

/-! ### Values from the other side -/

/-- A value on which no decision is needed is the same from both sides. -/
theorem same_of_agreed {decided decided' : Verdict}
    (h : agrees base? source? target? = false → (decided.value? == decided'.value?) = true) :
    ((if source? == target? || source? == base? then Verdict.merged target?
          else if target? == base? then .merged source? else decided).value?
        == (if target? == source? || target? == base? then Verdict.merged source?
          else if source? == base? then .merged target? else decided').value?) = true := by
  by_cases hsides : (source? == target?) = true
  · have hsides' : (target? == source?) = true := by rwa [Json.some_same_comm]
    rw [if_pos (by rw [hsides, Bool.true_or]), if_pos (by rw [hsides', Bool.true_or])]
    exact hsides'
  have hsides' : ¬ (target? == source?) = true := by rwa [Json.some_same_comm]
  rw [Bool.not_eq_true] at hsides hsides'
  rw [hsides, hsides', Bool.false_or, Bool.false_or]
  by_cases hsource : (source? == base?) = true
  · -- The two sides differ, so that only one of them is as in the base.
    have htarget : ¬ (target? == base?) = true := by
      intro htarget
      rw [Json.some_same_comm] at htarget
      rw [Json.some_same_trans hsource htarget] at hsides
      simp at hsides
    rw [if_pos hsource, if_neg htarget, if_pos hsource]
    exact beq_self_eq_true _
  rw [if_neg hsource, if_neg hsource]
  by_cases htarget : (target? == base?) = true
  · rw [if_pos htarget, if_pos htarget]
    exact beq_self_eq_true _
  rw [if_neg htarget, if_neg htarget]
  refine h (Divergence.agrees_eq_false_iff.mpr ⟨?_, Bool.not_eq_true _ ▸ htarget⟩)
  rw [hsides, Bool.false_or]
  exact Bool.not_eq_true _ ▸ hsource

section TakingSides

variable (hrulings : rulings.map Ruling.toDivergence = Divergence.since base? source target)
  (hlabels : ∀ ruling ∈ rulings,
    ∃ resolution, ruling.resolution? = some resolution ∧ resolution.TakesSide)

include hlabels

theorem takesSide_of_find? {object : String} {property? : Option String} {ruling : Ruling}
    {resolution : Resolution}
    (hfind : Ruling.find? rulings object property? = some (ruling, resolution)) :
    resolution.TakesSide := by
  obtain ⟨hmem, -, -, hresolution⟩ := Ruling.find?_eq_some hfind
  obtain ⟨found, hfound, hside⟩ := hlabels ruling hmem
  rw [hresolution] at hfound
  rwa [Option.some_inj.mp hfound]

/-- A property is the same from both sides if a ruling is on it where one is needed. -/
theorem property_exchanged {name : String}
    (hdecided : agrees base? source? target? = false →
      (Ruling.find? rulings key (some name)).isSome) :
    ((property rulings key name base? source? target?).value?
      == (property (rulings.map Ruling.exchanged) key name base? target? source?).value?)
      = true := by
  rw [property, property]
  refine same_of_agreed fun hagrees => ?_
  obtain ⟨⟨ruling, resolution⟩, hfind⟩ := Option.isSome_iff_exists.mp (hdecided hagrees)
  rw [Ruling.find?_exchanged, hfind]
  show (resolution.property? source? target? == resolution.exchanged.property? target? source?)
    = true
  rw [(takesSide_of_find? hlabels hfind).property?_exchanged]
  exact beq_self_eq_true _

include hrulings

theorem isSome_find?_of_found {d : Divergence} (h : d ∈ Divergence.since base? source target) :
    (Ruling.find? rulings d.object d.property?).isSome := by
  rw [← hrulings] at h
  obtain ⟨ruling, hmem, rfl⟩ := List.mem_map.mp h
  obtain ⟨resolution, hresolution, -⟩ := hlabels ruling hmem
  exact Ruling.isSome_find?_of_mem hmem (by rw [hresolution]; rfl)

/-- An object without a ruling is the same from both sides. -/
theorem verdict_exchanged_of_find?_eq_none (hfind : Ruling.find? rulings key none = none) :
    ((verdict base? source target rulings key).value?
      == (verdict base? target source (rulings.map Ruling.exchanged) key).value?) = true := by
  have hfind' : Ruling.find? (rulings.map Ruling.exchanged) key none = none := by
    rw [Ruling.find?_exchanged, hfind]
    rfl
  have hundecided : ∀ d ∈ Divergence.since base? source target,
      ¬ (d.object = key ∧ d.property? = none) := by
    rintro d hmem ⟨rfl, hwhole⟩
    have hsome := isSome_find?_of_found hrulings hlabels hmem
    rw [hwhole, hfind] at hsome
    simp at hsome
  rw [verdict, verdict, object.eq_def, object.eq_def, hfind, hfind']
  cases base? with
  | none =>
    dsimp only [Option.map_none]
    by_cases hsame : (Keyed.get? key (objectMap source) == Keyed.get? key (objectMap target))
        = true
    · rw [twoWayObject, twoWayObject, if_pos hsame, if_pos (by rwa [Json.some_same_comm])]
      exact hsame
    · rw [Bool.not_eq_true] at hsame
      obtain ⟨d, hd, rfl, hwhole⟩ :=
        Divergence.exists_ofObject? key (Divergence.isSome_of_differs hsame)
      exact absurd ⟨rfl, hwhole⟩ (hundecided d (Divergence.mem_twoWay.mpr ⟨hsame, hd⟩))
  | some base =>
    dsimp only [Option.map_some]
    rw [threeWayObject.eq_def, threeWayObject.eq_def]
    refine same_of_agreed fun hagrees => ?_
    have hall : ∃ b s t, InAll (Keyed.get? key (objectMap base))
        (Keyed.get? key (objectMap source)) (Keyed.get? key (objectMap target)) b s t := by
      by_contra hall
      obtain ⟨d, hd, rfl, hwhole⟩ :=
        Divergence.exists_ofObject? key (Divergence.isSome_of_not_agrees hagrees)
      refine hundecided d (Divergence.mem_threeWay.mpr ?_) ⟨rfl, hwhole⟩
      rw [Divergence.atObject_of_not_inAll hall hagrees, Option.mem_toList]
      exact hd
    -- All three documents have the object, so that it is put together of its properties.
    obtain ⟨b, s, t, hall⟩ := hall
    obtain ⟨hb, hs, ht⟩ := id hall
    rw [hb, hs, ht]
    refine Json.same_of_get? (ascending_members _ _ _ _ _) (ascending_members _ _ _ _ _)
      fun name => ?_
    rw [get?_members, get?_members]
    refine property_exchanged hlabels fun hname => ?_
    refine isSome_find?_of_found hrulings hlabels (d := ⟨.propertyConflict, key, some name,
      Keyed.get? name s, Keyed.get? name t⟩) (Divergence.mem_threeWay.mpr ?_)
    rw [Divergence.atObject_of_inAll hall hagrees]
    exact Divergence.mem_ofProperties.mpr ⟨name, hname, rfl⟩

/-- Every object is the same from both sides. -/
theorem verdict_exchanged (key : String) :
    ((verdict base? source target rulings key).value?
      == (verdict base? target source (rulings.map Ruling.exchanged) key).value?) = true := by
  cases hfind : Ruling.find? rulings key none with
  | none => exact verdict_exchanged_of_find?_eq_none hrulings hlabels hfind
  | some found =>
    obtain ⟨ruling, resolution⟩ := found
    have hfind' : Ruling.find? (rulings.map Ruling.exchanged) key none
        = some (ruling.exchanged, resolution.exchanged) := by
      rw [Ruling.find?_exchanged, hfind]
      rfl
    have hrulings' := Ruling.toDivergence_exchanged hrulings
    rw [(verdict_of_find? (recorded_of_since hrulings) hfind).2,
      (verdict_of_find? (recorded_of_since hrulings') hfind').2, Verdict.value?, Verdict.value?,
      (takesSide_of_find? hlabels hfind).object?_exchanged]
    exact beq_self_eq_true _

end TakingSides

/-- **Source and target are alike.**  With the two sides exchanged the same divergences are
found in the same order, seen from the other side; and if every one of them is settled for a
side, then with the labels exchanged, too, the merged documents have equal objects. -/
theorem document_exchanged (base? : Option Json) (source target : Json) :
    Divergence.since base? target source
        = (Divergence.since base? source target).map Divergence.exchanged
      ∧ ∀ rulings : List Ruling, source.Ordered → target.Ordered →
        rulings.map Ruling.toDivergence = Divergence.since base? source target →
        (∀ ruling ∈ rulings,
          ∃ resolution, ruling.resolution? = some resolution ∧ resolution.TakesSide) →
        ∀ key, (Keyed.get? key (objectMap (document base? source target rulings))
          == Keyed.get? key (objectMap
            (document base? target source (rulings.map Ruling.exchanged)))) = true := by
  refine ⟨Divergence.since_exchanged base? source target, ?_⟩
  intro rulings hsource htarget hrulings hlabels key
  have hrulings' := Ruling.toDivergence_exchanged hrulings
  rw [get?_document (recorded_of_since hrulings) htarget,
    get?_document (recorded_of_since hrulings') hsource]
  exact verdict_exchanged hrulings hlabels key

/-- The source's size of the hall is the target's, seen from the other side. -/
theorem document_exchanged_hallFloor :
    (Keyed.get? "hall" (objectMap (document (some (hallFloor smallSize)) (hallFloor largeSize)
        (hallFloor greatSize) [hallRuling]))
      == Keyed.get? "hall" (objectMap (document (some (hallFloor smallSize)) (hallFloor greatSize)
        (hallFloor largeSize) [hallRuling.exchanged]))) = true := by
  have hrulings : [hallRuling].map Ruling.toDivergence = Divergence.since
      (some (hallFloor smallSize)) (hallFloor largeSize) (hallFloor greatSize) := rfl
  have hlabels : ∀ ruling ∈ [hallRuling],
      ∃ resolution, ruling.resolution? = some resolution ∧ resolution.TakesSide := by
    intro ruling hmem
    rw [List.mem_singleton.mp hmem]
    exact ⟨.sourceWins, rfl, Or.inl rfl⟩
  exact (document_exchanged (some (hallFloor smallSize)) (hallFloor largeSize)
    (hallFloor greatSize)).2 [hallRuling] (ordered_hallFloor _) (ordered_hallFloor _) hrulings
    hlabels "hall"

end Merge

end PlanHistory
