/-
What both sides changed, differently, is found, and nothing else.

A value needs a decision if what the base, the source and the target have of it, absence
included, is pairwise different (`Divergence.AllDiffer`).  A property needs one if all three
documents have its object (`Divergence.AtProperty`); an object as a whole if one of them
lacks it (`Divergence.AtWhole`).

* **`Divergence.threeWay_exact`** — these are the divergences that are found, ascending byte
  by byte; each names an object that differs between the two sides.
-/
import PlanHistory.Proofs.Conflict.Detection
import PlanHistory.Proofs.Text.ByteOrder

namespace PlanHistory

namespace Divergence

open Document (objectMap)

variable {base? source? target? : Option Json} {base source target : Json} {d : Divergence}

/-! ### Three different values -/

/-- Whether three values, absence included, are pairwise different. -/
def AllDiffer (base? source? target? : Option Json) : Prop :=
  (source? == target?) = false ∧ (source? == base?) = false ∧ (target? == base?) = false

theorem allDiffer_iff : AllDiffer base? source? target? ↔ agrees base? source? target? = false := by
  rw [agrees, Bool.or_eq_false_iff, Bool.or_eq_false_iff, and_assoc, AllDiffer]

/-- Whether one of three values is none at all. -/
def Lacking (base? source? target? : Option Json) : Prop :=
  base? = none ∨ source? = none ∨ target? = none

theorem InAll.not_lacking {b s t : Keyed Json} (h : InAll base? source? target? b s t) :
    ¬ Lacking base? source? target? := by
  obtain ⟨rfl, rfl, rfl⟩ := h
  simp [Lacking]

/-- Objects of which a property has three different values are different themselves. -/
theorem AllDiffer.of_property {b s t : Keyed Json} {property : String}
    (h : AllDiffer (Keyed.get? property b) (Keyed.get? property s) (Keyed.get? property t)) :
    AllDiffer (some (.object b)) (some (.object s)) (some (.object t)) := by
  rw [allDiffer_iff, Bool.eq_false_iff] at h ⊢
  exact fun hagrees => h (agrees_property property hagrees)

/-! ### What is at a slot -/

/-- The kind of a divergence at a whole object, by the sides that have the object. -/
inductive KindOf : ConflictKind → Option Json → Option Json → Prop
  | modified (source target : Json) : KindOf .objectModified (some source) (some target)
  | added (source : Json) : KindOf .objectAdded (some source) none
  | deleted (target : Json) : KindOf .objectDeleted none (some target)

/-- What is recorded of a whole object is its value on the two sides, with their kind. -/
theorem ofObject?_eq_some_iff_kindOf {object : String} :
    ofObject? object source? target? = some d
      ↔ KindOf d.kind source? target? ∧ d.object = object ∧ d.property? = none
        ∧ d.source? = source? ∧ d.target? = target? := by
  obtain ⟨kind, name, property?, left?, right?⟩ := d
  constructor
  · intro h
    cases source? <;> cases target? <;> simp only [ofObject?, Option.some_inj, reduceCtorEq] at h
    all_goals
      obtain ⟨rfl, rfl, rfl, rfl, rfl⟩ := Divergence.mk.inj h
      refine ⟨?_, rfl, rfl, rfl, rfl⟩
      constructor
  · rintro ⟨hkind, hname, hproperty, hleft, hright⟩
    dsimp only at hkind hname hproperty hleft hright
    subst hname hproperty hleft hright
    cases hkind <;> rfl

/-- Whether a divergence is at a property that has three different values, of an object that
all three documents have. -/
def AtProperty (base source target : Json) (d : Divergence) : Prop :=
  ∃ b s t property,
    (Keyed.get? d.object (objectMap base) = some b
      ∧ Keyed.get? d.object (objectMap source) = some s
      ∧ Keyed.get? d.object (objectMap target) = some t)
    ∧ AllDiffer (b.get? property) (s.get? property) (t.get? property)
    ∧ d.kind = .propertyConflict ∧ d.property? = some property
    ∧ d.source? = s.get? property ∧ d.target? = t.get? property

/-- Whether a divergence is at an object of which the three documents have different values,
one of them none at all. -/
def AtWhole (base source target : Json) (d : Divergence) : Prop :=
  AllDiffer (Keyed.get? d.object (objectMap base)) (Keyed.get? d.object (objectMap source))
      (Keyed.get? d.object (objectMap target))
    ∧ Lacking (Keyed.get? d.object (objectMap base)) (Keyed.get? d.object (objectMap source))
      (Keyed.get? d.object (objectMap target))
    ∧ KindOf d.kind d.source? d.target? ∧ d.property? = none
    ∧ d.source? = Keyed.get? d.object (objectMap source)
    ∧ d.target? = Keyed.get? d.object (objectMap target)

theorem mem_threeWay_of_atProperty (h : AtProperty base source target d) :
    d ∈ threeWay base source target := by
  obtain ⟨kind, object, property?, source?, target?⟩ := d
  obtain ⟨b, s, t, property, ⟨hb, hs, ht⟩, hdiffer, rfl, rfl, rfl, rfl⟩ := h
  dsimp only at hb hs ht
  obtain ⟨b', s', t', hall⟩ := exists_inAll (by rw [hb]; rfl) (by rw [hs]; rfl)
    (by rw [ht]; rfl)
  obtain rfl : b = .object b' := Option.some_inj.mp (hb.symm.trans hall.1)
  obtain rfl : s = .object s' := Option.some_inj.mp (hs.symm.trans hall.2.1)
  obtain rfl : t = .object t' := Option.some_inj.mp (ht.symm.trans hall.2.2)
  have hobject := allDiffer_iff.mp (AllDiffer.of_property hdiffer)
  rw [← hb, ← hs, ← ht] at hobject
  rw [mem_threeWay, atObject_of_inAll hall hobject, mem_ofProperties]
  exact ⟨property, allDiffer_iff.mp hdiffer, rfl⟩

theorem mem_threeWay_of_atWhole (h : AtWhole base source target d) :
    d ∈ threeWay base source target := by
  obtain ⟨hdiffer, hlacking, hkind, hproperty, hsource, htarget⟩ := h
  have hall : ¬ ∃ b s t, InAll (Keyed.get? d.object (objectMap base))
      (Keyed.get? d.object (objectMap source)) (Keyed.get? d.object (objectMap target)) b s t := by
    rintro ⟨b, s, t, hall⟩
    exact hall.not_lacking hlacking
  rw [mem_threeWay, atObject_of_not_inAll hall (allDiffer_iff.mp hdiffer), Option.mem_toList,
    ← hsource, ← htarget]
  exact ofObject?_eq_some_iff_kindOf.mpr ⟨hkind, rfl, hproperty, rfl, rfl⟩

/-- A divergence that is found is at a property or at a whole object. -/
theorem atProperty_or_atWhole (h : d ∈ threeWay base source target) :
    AtProperty base source target d ∨ AtWhole base source target d := by
  have hfound := mem_threeWay.mp h
  have hobject := (mem_atObject_cases hfound).1
  by_cases hall : ∃ b s t, InAll (Keyed.get? d.object (objectMap base))
      (Keyed.get? d.object (objectMap source)) (Keyed.get? d.object (objectMap target)) b s t
  · obtain ⟨b, s, t, hall⟩ := hall
    rw [atObject_of_inAll hall hobject] at hfound
    obtain ⟨property, hagrees, hd⟩ := mem_ofProperties.mp hfound
    refine Or.inl ⟨.object b, .object s, .object t, property, hall, allDiffer_iff.mpr hagrees, ?_⟩
    exact ⟨congrArg kind hd, congrArg property? hd, congrArg source? hd, congrArg target? hd⟩
  · rw [atObject_of_not_inAll hall hobject, Option.mem_toList] at hfound
    obtain ⟨hkind, -, hproperty, hsource, htarget⟩ := ofObject?_eq_some_iff_kindOf.mp hfound
    refine Or.inr ⟨allDiffer_iff.mpr hobject, ?_, hsource ▸ htarget ▸ hkind, hproperty, hsource,
      htarget⟩
    -- Were the object in all three documents, it would be compared by its properties.
    by_contra hlacking
    simp only [Lacking, not_or, ← Option.isSome_iff_ne_none] at hlacking
    exact hall (exists_inAll hlacking.1 hlacking.2.1 hlacking.2.2)

theorem mem_threeWay_iff :
    d ∈ threeWay base source target
      ↔ AtProperty base source target d ∨ AtWhole base source target d :=
  ⟨atProperty_or_atWhole, fun h => h.elim mem_threeWay_of_atProperty mem_threeWay_of_atWhole⟩

/-! ### What is found -/

/-- Whether one divergence stands before another, byte by byte: by object, then by property,
the whole object before its properties. -/
def BytesBefore (a b : Divergence) : Prop :=
  Text.bytes a.object < Text.bytes b.object
    ∨ a.object = b.object ∧ a.property?.map Text.bytes < b.property?.map Text.bytes

theorem Before.bytes {a b : Divergence} (h : a.Before b) : a.BytesBefore b := by
  rcases h with hobject | ⟨hobject, hproperty⟩
  · exact Or.inl (Text.lt_iff_bytes_lt.mp hobject)
  · refine Or.inr ⟨hobject, ?_⟩
    cases ha : a.property? with
    | none =>
      cases hb : b.property? with
      | none =>
        rw [ha, hb] at hproperty
        exact absurd hproperty (by simp)
      | some q => simp
    | some p =>
      cases hb : b.property? with
      | none =>
        rw [ha, hb] at hproperty
        exact absurd hproperty (by simp)
      | some q =>
        rw [ha, hb] at hproperty
        exact Text.lt_iff_bytes_lt.mp hproperty

/-- What is found at an object is on its properties if no document lacks it, and on the whole
otherwise. -/
theorem kind_eq_iff (h : d ∈ threeWay base source target) :
    d.kind = .propertyConflict
      ↔ ¬ Lacking (Keyed.get? d.object (objectMap base)) (Keyed.get? d.object (objectMap source))
        (Keyed.get? d.object (objectMap target)) := by
  rcases atProperty_or_atWhole h with
    ⟨b, s, t, property, ⟨hb, hs, ht⟩, -, hkind, -⟩ | ⟨-, hlacking, hkind, -⟩
  · rw [hb, hs, ht]
    simp [hkind, Lacking]
  · constructor
    · intro hproperty
      rw [hproperty] at hkind
      cases hkind
    · exact fun hall => absurd hlacking hall

/-- An object that is found to diverge differs between the two sides. -/
theorem exists_mem_twoWay (h : d ∈ threeWay base source target) :
    ∃ other ∈ twoWay source target, other.object = d.object := by
  obtain ⟨hdiffers, -, -⟩ := allDiffer_iff.mpr (mem_atObject_cases (mem_threeWay.mp h)).1
  obtain ⟨other, hother, hobject, -⟩ := exists_ofObject? d.object (isSome_of_differs hdiffers)
  refine ⟨other, mem_twoWay.mpr ?_, hobject⟩
  rw [hobject]
  exact ⟨hdiffers, hother⟩

/-- Nothing diverges if two of the three documents are equal. -/
theorem threeWay_eq_nil
    (h : (source == target || source == base || target == base) = true) :
    threeWay base source target = [] := by
  rw [List.eq_nil_iff_forall_not_mem]
  intro d hd
  obtain ⟨hsides, hsource, htarget⟩ :=
    allDiffer_iff.mpr (mem_atObject_cases (mem_threeWay.mp hd)).1
  have equal {a b : Json} (hsame : (a == b) = true)
      (hne : (Keyed.get? d.object (objectMap a) == Keyed.get? d.object (objectMap b)) = false) :
      False := by
    rw [Document.get?_objectMap_same hsame] at hne
    exact Bool.noConfusion hne
  rw [Bool.or_eq_true, Bool.or_eq_true] at h
  rcases h with (h | h) | h
  · exact equal h hsides
  · exact equal h hsource
  · exact equal h htarget

/-- What the divergences of two documents since their base must be to be exact. -/
structure ExactThreeWay (base source target : Json) (found : List Divergence) : Prop where
  /-- They ascend by object and property, byte by byte. -/
  ascending : found.Pairwise BytesBefore
  /-- They are at the properties that have three different values, and at the objects of
  which the documents have three different values, one of them none at all. -/
  exact : ∀ d, d ∈ found ↔ AtProperty base source target d ∨ AtWhole base source target d
  /-- No object diverges both as a whole and in a property. -/
  one_kind : ∀ d ∈ found, ∀ other ∈ found, d.object = other.object →
    (d.kind = .propertyConflict ↔ other.kind = .propertyConflict)
  /-- Each object differs between the two sides. -/
  differs : ∀ d ∈ found, ∃ other ∈ twoWay source target, other.object = d.object
  /-- If two of the three documents are equal, there are none. -/
  none_of_equal : (source == target || source == base || target == base) = true → found = []

/-- **The divergences of two documents since their base are exact.** -/
theorem threeWay_exact (base source target : Json) :
    ExactThreeWay base source target (threeWay base source target) where
  ascending := (pairwise_threeWay base source target).imp Before.bytes
  exact _ := mem_threeWay_iff
  one_kind _ h _ hother hobject := by rw [kind_eq_iff h, kind_eq_iff hother, hobject]
  differs _ h := exists_mem_twoWay h
  none_of_equal h := threeWay_eq_nil h

end Divergence

end PlanHistory
