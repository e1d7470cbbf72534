/-
Labels that settle different divergences do not get in each other's way.

Every divergence has a slot of its own, and the verdict on a value goes by the ruling on its
slot alone.  So two merges that settle one divergence by different labels differ there at most
(`Merge.DifferAt`), and they do differ there if one takes the source's side and the other the
target's:

* **`Merge.valueAt_document`** — the value at a divergence is what its label asks for;
* **`Merge.document_congr`**, **`Merge.document_perm`** — rulings on other slots do not matter,
  and neither does the order of the rulings;
* **`Merge.differAt_document`** — both together, for any labels.
-/
import PlanHistory.Proofs.Conflict.Contained
import PlanHistory.Proofs.Conflict.ThreeWay

namespace PlanHistory

/-! ### Rulings on one slot -/

namespace Ruling

variable {rulings other : List Ruling} {object : String} {property? : Option String}

/-- Only the rulings on a slot decide it. -/
theorem find?_filter (rulings : List Ruling) (object : String) (property? : Option String) :
    find? (rulings.filter (isAt object property?)) object property?
      = find? rulings object property? := by
  rw [find?, find?, ← List.filter_reverse]
  induction rulings.reverse with
  | nil => rfl
  | cons ruling rest ih =>
    rw [List.filter_cons]
    by_cases hat : ruling.isAt object property? = true
    · rw [if_pos hat, List.findSome?_cons, List.findSome?_cons, ih]
    · have hskip : ¬ (ruling.object == object && ruling.property? == property?) = true := hat
      rw [if_neg hat, List.findSome?_cons, if_neg hskip, ih]

theorem find?_congr
    (h : rulings.filter (isAt object property?) = other.filter (isAt object property?)) :
    find? rulings object property? = find? other object property? := by
  rw [← find?_filter rulings, h, find?_filter]

/-- Where no two rulings are on one slot, their order does not matter. -/
theorem find?_perm
    (before : rulings.Pairwise fun a b => a.toDivergence.Before b.toDivergence)
    (perm : other.Perm rulings) (object : String) (property? : Option String) :
    find? other object property? = find? rulings object property? := by
  refine find?_congr ?_
  have hperm : (other.filter (isAt object property?)).Perm
      (rulings.filter (isAt object property?)) := perm.filter _
  cases hat : rulings.filter (isAt object property?) with
  | nil => rwa [hat, List.perm_nil] at hperm
  | cons ruling rest =>
    -- A ruling on the slot is the only one there.
    have hmem : ruling ∈ rulings.filter (isAt object property?) := by
      rw [hat]
      exact List.mem_cons_self
    obtain ⟨hruling, hslot⟩ := List.mem_filter.mp hmem
    obtain ⟨rfl, rfl⟩ := isAt_iff.mp hslot
    rw [← hat, filter_isAt_eq_singleton before hruling] at *
    exact List.perm_singleton.mp hperm

/-- A divergence with the label that it is given. -/
def labelled (label : Divergence → String) (d : Divergence) : Ruling :=
  ⟨d, some (label d)⟩

variable {found : List Divergence} {d : Divergence}

theorem toDivergence_labelled (label : Divergence → String) (found : List Divergence) :
    (found.map (labelled label)).map toDivergence = found := by
  rw [List.map_map]
  exact List.map_id found

theorem pairwise_labelled (label : Divergence → String)
    (before : found.Pairwise Divergence.Before) :
    (found.map (labelled label)).Pairwise fun a b => a.toDivergence.Before b.toDivergence := by
  rw [List.pairwise_map]
  exact before

/-- A divergence is decided by its label. -/
theorem find?_labelled (label : Divergence → String)
    (before : found.Pairwise Divergence.Before) (h : d ∈ found) :
    find? (found.map (labelled label)) d.object d.property?
      = some (labelled label d, Resolution.ofLabel (label d)) := by
  have hmem : labelled label d ∈ found.map (labelled label) := List.mem_map_of_mem h
  have hone := filter_isAt_eq_singleton (pairwise_labelled label before) hmem
  exact find?_of_filter_eq hone rfl

/-- Labels that are the same on a slot decide it alike. -/
theorem find?_labelled_congr {first second : Divergence → String}
    (h : ∀ d ∈ found, d.object = object → d.property? = property? → first d = second d) :
    find? (found.map (labelled first)) object property?
      = find? (found.map (labelled second)) object property? := by
  refine find?_congr ?_
  rw [List.filter_map, List.filter_map]
  refine List.map_congr_left fun d hmem => ?_
  obtain ⟨hfound, hat⟩ := List.mem_filter.mp hmem
  obtain ⟨hobject, hproperty⟩ := isAt_iff.mp hat
  rw [labelled, labelled, h d hfound hobject hproperty]

end Ruling

/-! ### What is recorded at a slot -/

namespace Divergence

variable {base source target : Json} {base? : Option Json} {d : Divergence} {name : String}

/-- A divergence at a property is of an object that all three documents have, and holds what
two of them have there. -/
theorem property_of_mem_threeWay (h : d ∈ threeWay base source target)
    (hname : d.property? = some name) :
    ∃ b s t, InAll (Keyed.get? d.object (Document.objectMap base))
        (Keyed.get? d.object (Document.objectMap source))
        (Keyed.get? d.object (Document.objectMap target)) b s t
      ∧ agrees (Keyed.get? d.object (Document.objectMap base))
        (Keyed.get? d.object (Document.objectMap source))
        (Keyed.get? d.object (Document.objectMap target)) = false
      ∧ agrees (Keyed.get? name b) (Keyed.get? name s) (Keyed.get? name t) = false
      ∧ d.source? = Keyed.get? name s ∧ d.target? = Keyed.get? name t := by
  have hat := mem_threeWay.mp h
  obtain ⟨hagrees, ⟨b, s, t, hall, -⟩ | ⟨-, hwhole⟩⟩ := mem_atObject_cases hat
  · rw [atObject_of_inAll hall hagrees] at hat
    obtain ⟨property, hproperty, hd⟩ := mem_ofProperties.mp hat
    have hsame : property = name := by
      rw [hd] at hname
      exact Option.some_inj.mp hname
    subst hsame
    refine ⟨b, s, t, hall, hagrees, hproperty, ?_, ?_⟩
    · exact (congrArg Divergence.source? hd).trans rfl
    · exact (congrArg Divergence.target? hd).trans rfl
  · rw [(ofObject?_eq_some_iff.mp hwhole).2] at hname
    simp at hname

/-- The two values of a divergence differ. -/
theorem differs_of_mem_since (h : d ∈ since base? source target) :
    (d.source? == d.target?) = false := by
  cases hproperty : d.property? with
  | none =>
    obtain ⟨hsource, htarget, -⟩ := records_of_mem_since h hproperty
    rw [hsource, htarget]
    cases base? with
    | none => exact (mem_twoWay.mp h).1
    | some base =>
      obtain ⟨hagrees, -⟩ := mem_atObject_cases (mem_threeWay.mp h)
      exact (Bool.or_eq_false_iff.mp (agrees_eq_false_iff.mp hagrees).1).1
  | some name =>
    cases base? with
    | none =>
      have hwhole := (ofObject?_eq_some_iff.mp (mem_twoWay.mp h).2).2
      rw [hwhole] at hproperty
      simp at hproperty
    | some base =>
      obtain ⟨b, s, t, -, -, hagrees, hsource, htarget⟩ := property_of_mem_threeWay h hproperty
      rw [hsource, htarget]
      exact (Bool.or_eq_false_iff.mp (agrees_eq_false_iff.mp hagrees).1).1

end Divergence

namespace Merge

open Document (objectMap orderedObjects objectsKey)

variable {rulings other : List Ruling} {base source target : Json} {base? : Option Json}
  {key name : String} {c : Divergence}

/-! ### Rulings that do not matter -/

theorem property_congr
    (h : Ruling.find? rulings key (some name) = Ruling.find? other key (some name))
    (base? source? target? : Option Json) :
    property rulings key name base? source? target?
      = property other key name base? source? target? := by
  rw [property, property, h]

theorem members_congr
    (h : ∀ name, Ruling.find? rulings key (some name) = Ruling.find? other key (some name))
    (b s t : Keyed Json) : members rulings key b s t = members other key b s t := by
  refine Keyed.ext_of_ascending (ascending_members _ _ _ _ _) (ascending_members _ _ _ _ _) ?_
  intro name
  rw [get?_members, get?_members, property_congr (h name)]

/-- The verdict on an object goes by the rulings on it and on its properties. -/
theorem verdict_congr
    (h : ∀ property?, Ruling.find? rulings key property? = Ruling.find? other key property?) :
    verdict base? source target rulings key = verdict base? source target other key := by
  have hthree : ∀ base? source? target? : Option Json,
      threeWayObject rulings key base? source? target?
        = threeWayObject other key base? source? target? := by
    intro base? source? target?
    rw [threeWayObject.eq_def, threeWayObject.eq_def]
    simp only [members_congr fun name => h (some name)]
  rw [verdict, verdict, object.eq_def, object.eq_def, h none]
  simp only [hthree]

/-- A merged document goes by the rulings that decide a slot. -/
theorem document_congr
    (h : ∀ object property?,
      Ruling.find? rulings object property? = Ruling.find? other object property?)
    (base? : Option Json) (source target : Json) :
    document base? source target rulings = document base? source target other := by
  have hobjects : objects base? source target rulings = objects base? source target other := by
    rw [objects, objects]
    refine List.filterMap_congr fun key _ => ?_
    exact congrArg Verdict.value? (verdict_congr (h key))
  rw [document.eq_def, document.eq_def, hobjects]

/-- The order of the rulings on what was found does not matter. -/
theorem document_perm
    (hrulings : rulings.map Ruling.toDivergence = Divergence.since base? source target)
    (perm : other.Perm rulings) :
    document base? source target other = document base? source target rulings := by
  have before : rulings.Pairwise fun a b => a.toDivergence.Before b.toDivergence := by
    rw [← List.pairwise_map, hrulings]
    exact Divergence.pairwise_since base? source target
  exact document_congr (Ruling.find?_perm before perm) base? source target

/-! ### The value at a slot -/

/-- What a document has as an object, or as a property of it. -/
def valueAt (object : String) (property? : Option String) (document : Json) : Option Json :=
  match property? with
  | none => Keyed.get? object (objectMap document)
  | some name => (Keyed.get? object (objectMap document)).bind (Json.get? name)

/-- What a label asks for at an object, or at a property of it. -/
def asked (label : String) (property? : Option String) (source? target? : Option Json) :
    Option Json :=
  match property? with
  | none => (Resolution.ofLabel label).object? source? target?
  | some _ => (Resolution.ofLabel label).property? source? target?

/-- The merge of two documents in which every divergence is settled by a label. -/
def settled (base? : Option Json) (source target : Json) (label : Divergence → String) : Json :=
  document base? source target
    ((Divergence.since base? source target).map (Ruling.labelled label))

theorem recorded_labelled (base? : Option Json) (source target : Json)
    (label : Divergence → String) :
    Recorded source target
      ((Divergence.since base? source target).map (Ruling.labelled label)) :=
  recorded_of_since (Ruling.toDivergence_labelled label _)

/-- An object that both sides changed, differently, is merged property by property where all
three documents have it. -/
theorem get?_settled_of_inAll (label : Divergence → String) (ordered : target.Ordered)
    {b s t : Keyed Json}
    (hall : Divergence.InAll (Keyed.get? key (objectMap base)) (Keyed.get? key (objectMap source))
      (Keyed.get? key (objectMap target)) b s t)
    (hagrees : Divergence.agrees (Keyed.get? key (objectMap base))
      (Keyed.get? key (objectMap source)) (Keyed.get? key (objectMap target)) = false) :
    Keyed.get? key (objectMap (settled (some base) source target label))
      = some (.object (members ((Divergence.since (some base) source target).map
          (Ruling.labelled label)) key b s t)) := by
  have hrulings := Ruling.toDivergence_labelled label (Divergence.since (some base) source target)
  rw [settled, get?_document (recorded_labelled _ _ _ label) ordered,
    verdict_of_inAll hrulings hall hagrees]
  rfl

/-- The value at a divergence is what its label asks for of the two values it holds. -/
theorem valueAt_document (label : Divergence → String) (ordered : target.Ordered)
    (hc : c ∈ Divergence.since base? source target) :
    valueAt c.object c.property? (settled base? source target label)
      = asked (label c) c.property? c.source? c.target? := by
  have hfind := Ruling.find?_labelled label (Divergence.pairwise_since base? source target) hc
  cases hproperty : c.property? with
  | none =>
    rw [hproperty] at hfind
    obtain ⟨hsource, htarget, -⟩ := Divergence.records_of_mem_since hc hproperty
    have recorded := recorded_labelled base? source target label
    rw [valueAt, asked, settled, get?_document recorded ordered,
      (verdict_of_find? recorded hfind).2, hsource, htarget]
    rfl
  | some name =>
    rw [hproperty] at hfind
    cases base? with
    | none =>
      have hwhole := (Divergence.ofObject?_eq_some_iff.mp (Divergence.mem_twoWay.mp hc).2).2
      rw [hwhole] at hproperty
      simp at hproperty
    | some base =>
      obtain ⟨b, s, t, hall, hobject, hname, hsource, htarget⟩ :=
        Divergence.property_of_mem_threeWay hc hproperty
      obtain ⟨hleft, hright⟩ := Divergence.agrees_eq_false_iff.mp hname
      have hvalue := get?_settled_of_inAll label ordered hall hobject
      show (Keyed.get? c.object (objectMap (settled (some base) source target label))).bind
        (Json.get? name) = _
      rw [hvalue, Option.bind_some]
      show Keyed.get? name (members _ c.object b s t) = _
      rw [get?_members, property, if_neg (by rw [hleft]; decide), if_neg (by rw [hright]; decide),
        hfind, asked, hsource, htarget]
      rfl

/-! ### Two merges -/

/-- Whether two merged documents differ at one divergence at most. -/
structure DifferAt (c : Divergence) (merged other : Json) : Prop where
  /-- They have the same members beside the objects. -/
  members : ∀ key, key ≠ objectsKey → merged.get? key = other.get? key
  listed : (merged.get? objectsKey).isSome = (other.get? objectsKey).isSome
  /-- What both list comes in one order. -/
  in_order : (Keyed.keys (orderedObjects merged)).filter (· ∈ Keyed.keys (orderedObjects other))
    = (Keyed.keys (orderedObjects other)).filter (· ∈ Keyed.keys (orderedObjects merged))
  /-- All other objects are the same. -/
  objects : ∀ key, key ≠ c.object →
    Keyed.get? key (objectMap merged) = Keyed.get? key (objectMap other)
  /-- At a property, the other properties of the object are the same, too. -/
  properties : ∀ name, c.property? = some name →
    ∃ here there, Keyed.get? c.object (objectMap merged) = some (.object here)
      ∧ Keyed.get? c.object (objectMap other) = some (.object there)
      ∧ ∀ property, property ≠ name → Keyed.get? property here = Keyed.get? property there

/-- What two merges of the same documents list in common comes in one order. -/
theorem in_order_document (recorded : Recorded source target rulings)
    (recorded' : Recorded source target other) (ordered : target.Ordered) :
    (Keyed.keys (orderedObjects (document base? source target rulings))).filter
        (· ∈ Keyed.keys (orderedObjects (document base? source target other)))
      = (Keyed.keys (orderedObjects (document base? source target other))).filter
        (· ∈ Keyed.keys (orderedObjects (document base? source target rulings))) := by
  rw [keys_document recorded ordered, keys_document recorded' ordered, List.filter_filter,
    List.filter_filter]
  -- Both are what the common order has of the one and of the other.
  refine List.filter_congr fun key hkey => ?_
  simp only [List.mem_filter, hkey, true_and, Bool.decide_eq_true]
  exact Bool.and_comm _ _

variable {first second : Divergence → String}

/-- Labels that are the same but for one divergence decide every other slot alike. -/
theorem find?_of_same_labels (hc : c ∈ Divergence.since base? source target)
    (hsame : ∀ d ∈ Divergence.since base? source target, d ≠ c → first d = second d)
    {object : String} {property? : Option String}
    (hslot : ¬ (c.object = object ∧ c.property? = property?)) :
    Ruling.find? ((Divergence.since base? source target).map (Ruling.labelled first)) object
        property?
      = Ruling.find? ((Divergence.since base? source target).map (Ruling.labelled second)) object
        property? := by
  refine Ruling.find?_labelled_congr fun d hmem hobject hproperty => hsame d hmem ?_
  rintro rfl
  exact hslot ⟨hobject, hproperty⟩

/-- **Labels that settle different divergences do not get in each other's way, and each one
matters.**  Two merges whose labels differ on one divergence differ there at most; they do
differ if one label takes the source's value and the other the target's.  The order of the
rulings does not matter. -/
theorem differAt_document (ordered : target.Ordered)
    (hc : c ∈ Divergence.since base? source target)
    (hsame : ∀ d ∈ Divergence.since base? source target, d ≠ c → first d = second d) :
    DifferAt c (settled base? source target first) (settled base? source target second)
      ∧ (Resolution.ofLabel (first c) = .sourceWins → Resolution.ofLabel (second c) = .targetWins →
        (valueAt c.object c.property? (settled base? source target first)
          == valueAt c.object c.property? (settled base? source target second)) = false)
      ∧ ∀ rulings : List Ruling,
        rulings.Perm ((Divergence.since base? source target).map (Ruling.labelled first)) →
          document base? source target rulings = settled base? source target first := by
  have recorded := recorded_labelled base? source target first
  have recorded' := recorded_labelled base? source target second
  refine ⟨⟨fun key hkey => ?_, ?_, ?_, fun key hkey => ?_, fun name hname => ?_⟩, ?_, ?_⟩
  · rw [settled, settled, member_document _ _ _ _ hkey, member_document _ _ _ _ hkey]
  · rw [settled, settled, get?_objects_document, get?_objects_document]
    split <;> rfl
  · exact in_order_document recorded recorded' ordered
  · rw [settled, settled, get?_document recorded ordered, get?_document recorded' ordered]
    refine congrArg Verdict.value? (verdict_congr fun property? => ?_)
    exact find?_of_same_labels hc hsame fun hslot => hkey hslot.1.symm
  · cases base? with
    | none =>
      have hwhole := (Divergence.ofObject?_eq_some_iff.mp (Divergence.mem_twoWay.mp hc).2).2
      rw [hwhole] at hname
      simp at hname
    | some base =>
      obtain ⟨b, s, t, hall, hobject, -⟩ := Divergence.property_of_mem_threeWay hc hname
      refine ⟨_, _, get?_settled_of_inAll first ordered hall hobject,
        get?_settled_of_inAll second ordered hall hobject, fun property hproperty => ?_⟩
      rw [get?_members, get?_members, property_congr]
      refine find?_of_same_labels hc hsame fun hslot => ?_
      exact hproperty (Option.some_inj.mp (hslot.2.symm.trans hname))
  · intro hfirst hsecond
    rw [valueAt_document first ordered hc, valueAt_document second ordered hc]
    have hdiffers := Divergence.differs_of_mem_since hc
    cases hproperty : c.property? with
    | none =>
      rw [asked, asked, hfirst, hsecond]
      exact hdiffers
    | some name =>
      rw [asked, asked, hfirst, hsecond]
      exact hdiffers
  · intro rulings perm
    exact document_perm (Ruling.toDivergence_labelled first _) perm

/-- A floor with one hall of a given size and with so many doors. -/
def doorHallFloor (size doors : WideInt) : Json :=
  .object [("objects", .array [.object [("doors", .number (.whole doors)), ("id", .string "hall"),
    ("size", .number (.whole size))]])]

/-- Both sides gave the hall another size. -/
def sizeDivergence : Divergence :=
  ⟨.propertyConflict, "hall", some "size", some (.number (.whole largeSize)),
    some (.number (.whole greatSize))⟩

/-- Both sides gave the hall other doors, too. -/
def doorsDivergence : Divergence :=
  ⟨.propertyConflict, "hall", some "doors", some (.number (.whole largeSize)),
    some (.number (.whole greatSize))⟩

/-- Everything from the source. -/
def allFromSource (_ : Divergence) : String := "source_wins"

/-- The target's size, with all else from the source. -/
def sizeFromTarget (d : Divergence) : String :=
  if d.property? = some "size" then "target_wins" else "source_wins"

theorem since_doorHallFloor :
    Divergence.since (some (doorHallFloor smallSize smallSize)) (doorHallFloor largeSize largeSize)
      (doorHallFloor greatSize greatSize) = [doorsDivergence, sizeDivergence] := rfl

/-- The hall has the size that was asked for, with the source's doors in both merges. -/
theorem differAt_document_doorHallFloor :
    DifferAt sizeDivergence
        (settled (some (doorHallFloor smallSize smallSize)) (doorHallFloor largeSize largeSize)
          (doorHallFloor greatSize greatSize) allFromSource)
        (settled (some (doorHallFloor smallSize smallSize)) (doorHallFloor largeSize largeSize)
          (doorHallFloor greatSize greatSize) sizeFromTarget)
      ∧ (valueAt "hall" (some "size")
          (settled (some (doorHallFloor smallSize smallSize)) (doorHallFloor largeSize largeSize)
            (doorHallFloor greatSize greatSize) allFromSource)
        == valueAt "hall" (some "size")
          (settled (some (doorHallFloor smallSize smallSize)) (doorHallFloor largeSize largeSize)
            (doorHallFloor greatSize greatSize) sizeFromTarget)) = false := by
  have ordered : (doorHallFloor greatSize greatSize).Ordered := by
    simp [doorHallFloor, Keyed.Ascending, Json.Ordered, Json.OrderedItems, Json.OrderedMembers,
      -String.lt_iff_ltb]
  have hc : sizeDivergence ∈ Divergence.since (some (doorHallFloor smallSize smallSize))
      (doorHallFloor largeSize largeSize) (doorHallFloor greatSize greatSize) := by
    rw [since_doorHallFloor]
    exact List.mem_cons_of_mem _ List.mem_cons_self
  have hsame : ∀ d ∈ Divergence.since (some (doorHallFloor smallSize smallSize))
      (doorHallFloor largeSize largeSize) (doorHallFloor greatSize greatSize),
      d ≠ sizeDivergence → allFromSource d = sizeFromTarget d := by
    rw [since_doorHallFloor]
    intro d hd hne
    rcases List.mem_cons.mp hd with rfl | hd
    · rfl
    · exact absurd (List.mem_singleton.mp hd) hne
  obtain ⟨hdiffer, hvalue, -⟩ := differAt_document ordered hc hsame
  exact ⟨hdiffer, hvalue rfl rfl⟩

end Merge

end PlanHistory
