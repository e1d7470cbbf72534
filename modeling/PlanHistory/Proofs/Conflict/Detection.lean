/-
The slots at which two documents diverge.

A divergence stands at a slot: an object, or one property of it.

* **`Divergence.mem_threeWay`**, **`Divergence.mem_twoWay`** — which divergences are found;
* **`Divergence.pairwise_threeWay`**, **`Divergence.pairwise_twoWay`** — they are found in
  ascending order of their slots, so that no slot comes twice;
* **`Divergence.Records`** — a divergence at a whole object holds what the two documents
  have there.
-/
import PlanHistory.Conflict.Detection
import PlanHistory.Proofs.Document

namespace PlanHistory

namespace Divergence

variable {object property : String} {base? source? target? : Option Json} {d : Divergence}

/-! ### Agreement -/

theorem agrees_eq_false_iff :
    agrees base? source? target? = false
      ↔ (source? == target? || source? == base?) = false ∧ (target? == base?) = false := by
  rw [agrees, Bool.or_eq_false_iff]

/-- Where two sides differ, one of them has something. -/
theorem isSome_of_differs (h : (source? == target?) = false) : (source?.or target?).isSome := by
  cases source? with
  | some source => rfl
  | none =>
    cases target? with
    | some target => rfl
    | none => simp at h

theorem isSome_of_not_agrees (h : agrees base? source? target? = false) :
    (source?.or target?).isSome :=
  isSome_of_differs (Bool.or_eq_false_iff.mp (agrees_eq_false_iff.mp h).1).1

/-! ### Divergences at one object -/

theorem ofObject?_eq_some_iff :
    ofObject? object source? target? = some d
      ↔ (source?.or target?).isSome
        ∧ d = ⟨if source?.isSome then (if target?.isSome then .objectModified else .objectAdded)
            else .objectDeleted, object, none, source?, target?⟩ := by
  cases source? <;> cases target? <;> simp [ofObject?, eq_comm]

/-- What one of two sides has diverges as a whole. -/
theorem exists_ofObject? (object : String) (h : (source?.or target?).isSome) :
    ∃ d, ofObject? object source? target? = some d ∧ d.object = object ∧ d.property? = none :=
  ⟨_, ofObject?_eq_some_iff.mpr ⟨h, rfl⟩, rfl, rfl⟩

theorem mem_ofProperties {base source target : Keyed Json} :
    d ∈ ofProperties object base source target
      ↔ ∃ property, agrees (Keyed.get? property base) (Keyed.get? property source)
            (Keyed.get? property target) = false
          ∧ d = ⟨.propertyConflict, object, some property, Keyed.get? property source,
            Keyed.get? property target⟩ := by
  rw [ofProperties, List.mem_filterMap]
  constructor
  · rintro ⟨property, -, h⟩
    dsimp only at h
    split at h
    · simp at h
    next hagrees => exact ⟨property, by simpa using hagrees, (Option.some_inj.mp h).symm⟩
  · rintro ⟨property, hagrees, rfl⟩
    refine ⟨property, ?_, by simp [hagrees]⟩
    rw [mem_ascending, List.mem_append, List.mem_append, or_assoc]
    exact Or.inr (Keyed.isSome_or_iff.mp (isSome_of_not_agrees hagrees))

/-- The three values that an object has where properties are compared one by one. -/
def InAll (base? source? target? : Option Json) (base source target : Keyed Json) : Prop :=
  base? = some (.object base) ∧ source? = some (.object source) ∧ target? = some (.object target)

/-- Objects that agree agree in every property. -/
theorem agrees_property {base source target : Keyed Json} (property : String)
    (h : agrees (some (.object base)) (some (.object source)) (some (.object target)) = true) :
    agrees (Keyed.get? property base) (Keyed.get? property source) (Keyed.get? property target)
      = true := by
  rw [agrees, Bool.or_eq_true, Bool.or_eq_true] at h ⊢
  refine h.imp (Or.imp ?_ ?_) ?_
  all_goals exact fun hsame => Json.get?_same hsame property

theorem atObject_of_agrees (h : agrees base? source? target? = true) :
    atObject object base? source? target? = [] := by
  rw [atObject.eq_def, if_pos h]

theorem atObject_of_inAll {base source target : Keyed Json}
    (h : InAll base? source? target? base source target)
    (hagrees : agrees base? source? target? = false) :
    atObject object base? source? target? = ofProperties object base source target := by
  obtain ⟨rfl, rfl, rfl⟩ := h
  rw [atObject, hagrees, if_neg (by decide)]

theorem atObject_of_not_inAll (h : ¬ ∃ base source target,
      InAll base? source? target? base source target)
    (hagrees : agrees base? source? target? = false) :
    atObject object base? source? target? = (ofObject? object source? target?).toList := by
  rw [atObject.eq_def, hagrees, if_neg (by decide)]
  split
  next base source target => exact absurd ⟨base, source, target, rfl, rfl, rfl⟩ h
  next => rfl

/-- What is found at an object is on a property where three documents have the object, and
on the whole object elsewhere. -/
theorem mem_atObject_cases (h : d ∈ atObject object base? source? target?) :
    agrees base? source? target? = false
      ∧ ((∃ base source target, InAll base? source? target? base source target
          ∧ ∃ property, d = ⟨.propertyConflict, object, some property, Keyed.get? property source,
            Keyed.get? property target⟩)
        ∨ ((¬ ∃ base source target, InAll base? source? target? base source target)
          ∧ ofObject? object source? target? = some d)) := by
  by_cases hagrees : agrees base? source? target? = true
  · rw [atObject_of_agrees hagrees] at h
    simp at h
  rw [Bool.not_eq_true] at hagrees
  refine ⟨hagrees, ?_⟩
  by_cases hall : ∃ base source target, InAll base? source? target? base source target
  · obtain ⟨base, source, target, hall⟩ := hall
    rw [atObject_of_inAll hall hagrees] at h
    obtain ⟨property, -, hd⟩ := mem_ofProperties.mp h
    exact Or.inl ⟨base, source, target, hall, property, hd⟩
  · rw [atObject_of_not_inAll hall hagrees, Option.mem_toList] at h
    exact Or.inr ⟨hall, h⟩

theorem object_of_mem_atObject (h : d ∈ atObject object base? source? target?) :
    d.object = object ∧ (source?.or target?).isSome := by
  obtain ⟨hagrees, hcases⟩ := mem_atObject_cases h
  refine ⟨?_, isSome_of_not_agrees hagrees⟩
  rcases hcases with ⟨base, source, target, -, property, rfl⟩ | ⟨-, hwhole⟩
  · rfl
  · rw [(ofObject?_eq_some_iff.mp hwhole).2]

/-! ### Divergences of documents -/

variable {base source target : Json}

/-- An object under a key of three documents is a JSON object in each. -/
theorem exists_inAll {key : String} (hb : (Keyed.get? key (Document.objectMap base)).isSome)
    (hs : (Keyed.get? key (Document.objectMap source)).isSome)
    (ht : (Keyed.get? key (Document.objectMap target)).isSome) :
    ∃ b s t, InAll (Keyed.get? key (Document.objectMap base))
      (Keyed.get? key (Document.objectMap source)) (Keyed.get? key (Document.objectMap target))
      b s t := by
  have members {document : Json} (h : (Keyed.get? key (Document.objectMap document)).isSome) :
      ∃ members, Keyed.get? key (Document.objectMap document) = some (.object members) := by
    obtain ⟨item, hitem⟩ := Option.isSome_iff_exists.mp h
    obtain ⟨members, rfl⟩ :=
      Document.exists_object_of_objectKey? (Document.objectKey?_of_get? hitem)
    exact ⟨members, hitem⟩
  obtain ⟨b, hb⟩ := members hb
  obtain ⟨s, hs⟩ := members hs
  obtain ⟨t, ht⟩ := members ht
  exact ⟨b, s, t, hb, hs, ht⟩

/-- Which divergences are found between two documents and their base: those at each
object. -/
theorem mem_threeWay :
    d ∈ threeWay base source target
      ↔ d ∈ atObject d.object (Keyed.get? d.object (Document.objectMap base))
          (Keyed.get? d.object (Document.objectMap source))
          (Keyed.get? d.object (Document.objectMap target)) := by
  rw [threeWay, List.mem_flatMap]
  constructor
  · rintro ⟨object, -, h⟩
    rwa [(object_of_mem_atObject h).1]
  · intro h
    refine ⟨d.object, ?_, h⟩
    rw [mem_ascending, List.mem_append, List.mem_append, or_assoc]
    exact Or.inr (Keyed.isSome_or_iff.mp (object_of_mem_atObject h).2)

theorem mem_twoWay :
    d ∈ twoWay source target
      ↔ (Keyed.get? d.object (Document.objectMap source)
            == Keyed.get? d.object (Document.objectMap target)) = false
        ∧ ofObject? d.object (Keyed.get? d.object (Document.objectMap source))
            (Keyed.get? d.object (Document.objectMap target)) = some d := by
  rw [twoWay, List.mem_filterMap]
  constructor
  · rintro ⟨object, -, h⟩
    dsimp only at h
    split at h
    · simp at h
    next hne =>
      have hobject : d.object = object := by rw [(ofObject?_eq_some_iff.mp h).2]
      rw [hobject]
      exact ⟨by simpa using hne, h⟩
  · rintro ⟨hne, h⟩
    refine ⟨d.object, ?_, by simpa [hne] using h⟩
    rw [mem_ascending, List.mem_append]
    exact Keyed.isSome_or_iff.mp (ofObject?_eq_some_iff.mp h).1

/-- A divergence at a whole object holds what the two documents have there, and one of
them has it. -/
def Records (source target : Json) (d : Divergence) : Prop :=
  d.property? = none →
    d.source? = Keyed.get? d.object (Document.objectMap source)
      ∧ d.target? = Keyed.get? d.object (Document.objectMap target)
      ∧ (d.source?.or d.target?).isSome

theorem records_of_ofObject?
    (h : ofObject? d.object (Keyed.get? d.object (Document.objectMap source))
      (Keyed.get? d.object (Document.objectMap target)) = some d) : d.Records source target := by
  obtain ⟨hsome, hd⟩ := ofObject?_eq_some_iff.mp h
  have hsource := congrArg Divergence.source? hd
  have htarget := congrArg Divergence.target? hd
  dsimp only at hsource htarget
  exact fun _ => ⟨hsource, htarget, by rw [hsource, htarget]; exact hsome⟩

theorem records_of_mem_twoWay (h : d ∈ twoWay source target) : d.Records source target :=
  records_of_ofObject? (mem_twoWay.mp h).2

theorem records_of_mem_threeWay (h : d ∈ threeWay base source target) :
    d.Records source target := by
  obtain ⟨-, ⟨b, s, t, -, property, hd⟩ | ⟨-, hwhole⟩⟩ := mem_atObject_cases (mem_threeWay.mp h)
  · intro hproperty
    rw [hd] at hproperty
    simp at hproperty
  · exact records_of_ofObject? hwhole

/-- The divergences of two documents against a base, or against each other without
one. -/
def since (base? : Option Json) (source target : Json) : List Divergence :=
  match base? with
  | some base => threeWay base source target
  | none => twoWay source target

theorem records_of_mem_since (h : d ∈ since base? source target) :
    d.Records source target := by
  cases base? with
  | some base => exact records_of_mem_threeWay h
  | none => exact records_of_mem_twoWay h

/-! ### Bounds -/

theorem within_of_mem_atObject {levels : Nat}
    (hsource : ∀ value ∈ source?, value.Within (levels + 1))
    (htarget : ∀ value ∈ target?, value.Within (levels + 1))
    (h : d ∈ atObject object base? source? target?) :
    (∀ value ∈ d.source?, value.Within (levels + 1))
      ∧ ∀ value ∈ d.target?, value.Within (levels + 1) := by
  obtain ⟨-, ⟨base, source, target, hall, property, rfl⟩ | ⟨-, hwhole⟩⟩ := mem_atObject_cases h
  · -- A property nests one level less than its object.
    constructor
    · intro value hvalue
      exact ((hsource _ hall.2.1).of_members hvalue).mono (Nat.le_succ levels)
    · intro value hvalue
      exact ((htarget _ hall.2.2).of_members hvalue).mono (Nat.le_succ levels)
  · rw [(ofObject?_eq_some_iff.mp hwhole).2]
    exact ⟨hsource, htarget⟩

/-- The values of a divergence nest less than the documents. -/
theorem within_of_mem_since {levels : Nat} (hsource : source.Within (levels + 3))
    (htarget : target.Within (levels + 3)) (h : d ∈ since base? source target) :
    (∀ value ∈ d.source?, value.Within (levels + 1))
      ∧ ∀ value ∈ d.target?, value.Within (levels + 1) := by
  have hs : ∀ value ∈ Keyed.get? d.object (Document.objectMap source), value.Within (levels + 1) :=
    fun _ => Document.within_of_get? hsource
  have ht : ∀ value ∈ Keyed.get? d.object (Document.objectMap target), value.Within (levels + 1) :=
    fun _ => Document.within_of_get? htarget
  cases base? with
  | some base => exact within_of_mem_atObject hs ht (mem_threeWay.mp h)
  | none =>
    have hd := (ofObject?_eq_some_iff.mp (mem_twoWay.mp h).2).2
    have hsource? := congrArg Divergence.source? hd
    have htarget? := congrArg Divergence.target? hd
    dsimp only at hsource? htarget?
    rw [hsource?, htarget?]
    exact ⟨hs, ht⟩

/-! ### Order of the slots -/

/-- Whether one divergence stands at a slot before that of another: by object, then by
property, the whole object before its properties. -/
def Before (a b : Divergence) : Prop :=
  a.object < b.object ∨ (a.object = b.object ∧ a.property? < b.property?)

theorem Before.slot_ne {a b : Divergence} (h : a.Before b) :
    ¬ (a.object = b.object ∧ a.property? = b.property?) := by
  rintro ⟨hobject, hproperty⟩
  rcases h with h | ⟨-, h⟩
  · rw [hobject] at h
    exact lt_irrefl _ h
  · rw [hproperty] at h
    cases hb : b.property? with
    | none => rw [hb] at h; exact absurd h (by simp)
    | some p => rw [hb] at h; exact absurd h (by simp)

theorem pairwise_ofProperties (object : String) (base source target : Keyed Json) :
    (ofProperties object base source target).Pairwise Before := by
  rw [ofProperties, List.pairwise_filterMap]
  refine (pairwise_ascending _).imp ?_
  intro p q hlt a ha b hb
  dsimp only at ha hb
  split at ha
  · simp at ha
  split at hb
  · simp at hb
  obtain rfl := Option.some_inj.mp ha
  obtain rfl := Option.some_inj.mp hb
  exact Or.inr ⟨rfl, hlt⟩

theorem pairwise_atObject (object : String) (base? source? target? : Option Json) :
    (atObject object base? source? target?).Pairwise Before := by
  rw [atObject.eq_def]
  split
  · exact List.Pairwise.nil
  split
  · exact pairwise_ofProperties _ _ _ _
  · cases ofObject? object source? target? <;> simp

/-- Divergences are found in ascending order of their slots. -/
theorem pairwise_threeWay (base source target : Json) :
    (threeWay base source target).Pairwise Before := by
  rw [threeWay]
  refine List.pairwise_flatMap.mpr ⟨fun object _ => pairwise_atObject _ _ _ _, ?_⟩
  refine (pairwise_ascending _).imp ?_
  intro p q hlt a ha b hb
  rw [← (object_of_mem_atObject ha).1, ← (object_of_mem_atObject hb).1] at hlt
  exact Or.inl hlt

theorem pairwise_twoWay (source target : Json) : (twoWay source target).Pairwise Before := by
  rw [twoWay, List.pairwise_filterMap]
  refine (pairwise_ascending _).imp ?_
  intro p q hlt a ha b hb
  dsimp only at ha hb
  split at ha
  · simp at ha
  split at hb
  · simp at hb
  rw [(ofObject?_eq_some_iff.mp ha).2, (ofObject?_eq_some_iff.mp hb).2]
  exact Or.inl hlt

theorem pairwise_since (base? : Option Json) (source target : Json) :
    (since base? source target).Pairwise Before := by
  cases base? with
  | some base => exact pairwise_threeWay base source target
  | none => exact pairwise_twoWay source target

end Divergence

end PlanHistory
