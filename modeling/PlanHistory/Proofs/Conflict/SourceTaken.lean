/-
Taking the source gives the source, but for two things.

A merge without a base whose labels all take the source's objects gives the source, and so does
a merge with a base that the target still is (`Merge.TakesSource`).  But the merged document
lists objects if one of the two sides does, so that it has an empty list where the source had
none and the target had one; and of two equal values, which may differ in the sign of a zero,
it takes the target's.

* **`Document.Valid.ext`** — documents are the same if their members, their objects and the
  order of these are;
* **`Merge.TakesSource.canonical_eq_iff`** — when the canonical form is the source's;
* **`Merge.ForSource.takesSource`** — what the two merges take.
-/
import PlanHistory.Proofs.Conflict.Absorbed

namespace PlanHistory

/-- Entries under the same keys in the same order, of which every key finds related values,
hold related values. -/
theorem Keyed.forall₂_of_keys {α β : Type} {R : α → β → Prop} {a : Keyed α} {b : Keyed β}
    (nodup : (keys a).Nodup) (hkeys : keys a = keys b)
    (h : ∀ key, Option.Rel R (get? key a) (get? key b)) :
    List.Forall₂ R (a.map Prod.snd) (b.map Prod.snd) := by
  induction a generalizing b with
  | nil =>
    cases b with
    | nil => exact .nil
    | cons y b => cases hkeys
  | cons x a ih =>
    cases b with
    | nil => cases hkeys
    | cons y b =>
      rw [keys_cons, keys_cons] at hkeys
      obtain ⟨hkey, hkeys⟩ := List.cons.inj hkeys
      rw [keys_cons] at nodup
      obtain ⟨hfresh, nodup⟩ := List.nodup_cons.mp nodup
      have hfirst := h x.1
      rw [get?_cons, if_pos rfl, get?_cons, if_pos hkey] at hfirst
      cases hfirst with
      | some hfirst =>
        refine .cons hfirst (ih nodup hkeys fun key => ?_)
        by_cases hat : key = x.1
        · rw [hat, get?_eq_none_iff.mpr hfresh, get?_eq_none_iff.mpr (hkeys ▸ hfresh)]
          exact .none
        · have hkey' := h key
          rwa [get?_cons, if_neg hat, get?_cons, if_neg (hkey ▸ hat)] at hkey'

namespace Document

variable {a b : Json}

/-- Accepted documents with related members and related objects in one order are related in
every member. -/
theorem rel_of_objects {R : Json → Json → Prop}
    (arrays : ∀ xs ys, List.Forall₂ R xs ys → R (.array xs) (.array ys))
    (ha : validate a = .ok ()) (hb : validate b = .ok ())
    (members : ∀ key, key ≠ objectsKey → Option.Rel R (a.get? key) (b.get? key))
    (objects : ∀ key, Option.Rel R (Keyed.get? key (objectMap a)) (Keyed.get? key (objectMap b)))
    (order : Keyed.keys (orderedObjects a) = Keyed.keys (orderedObjects b))
    (listed : (a.get? objectsKey).isSome = (b.get? objectsKey).isSome) (key : String) :
    Option.Rel R (a.get? key) (b.get? key) := by
  by_cases hkey : key = objectsKey
  · subst hkey
    cases hx : a.get? objectsKey with
    | none =>
      rw [hx] at listed
      rw [Option.isSome_eq_false_iff.mp listed.symm |> Option.isNone_iff_eq_none.mp]
      exact .none
    | some x =>
      rw [hx] at listed
      obtain ⟨y, hy⟩ := Option.isSome_iff_exists.mp listed.symm
      obtain ⟨xs, rfl, -, -⟩ := (validate_eq_ok_iff.mp ha).2 x hx
      obtain ⟨ys, rfl, -, -⟩ := (validate_eq_ok_iff.mp hb).2 y hy
      rw [hy, Merge.items_of_validate ha hx, Merge.items_of_validate hb hy]
      refine .some (arrays _ _ (Keyed.forall₂_of_keys (nodup_keys_orderedObjects ha) order ?_))
      intro key
      rw [← get?_objectMap ha, ← get?_objectMap hb]
      exact objects key
  · exact members key hkey

theorem rel_eq_iff {x? y? : Option Json} : Option.Rel Eq x? y? ↔ x? = y? := by
  constructor
  · rintro (rfl | -) <;> rfl
  · rintro rfl
    cases x? with
    | none => exact .none
    | some x => exact .some rfl

/-- Documents are the same if their members, their objects and the order of these are. -/
theorem Valid.ext (ha : Valid a) (hb : Valid b)
    (members : ∀ key, key ≠ objectsKey → a.get? key = b.get? key)
    (objects : ∀ key, Keyed.get? key (objectMap a) = Keyed.get? key (objectMap b))
    (order : Keyed.keys (orderedObjects a) = Keyed.keys (orderedObjects b))
    (listed : (a.get? objectsKey).isSome = (b.get? objectsKey).isSome) : a = b := by
  have arrays (xs ys : List Json) (h : List.Forall₂ Eq xs ys) : Json.array xs = .array ys := by
    rw [List.forall₂_eq_eq_eq] at h
    exact congrArg Json.array h
  have hget (key : String) : a.get? key = b.get? key :=
    rel_eq_iff.mp (rel_of_objects arrays ha.accepted hb.accepted
      (fun key hkey => rel_eq_iff.mpr (members key hkey)) (fun key => rel_eq_iff.mpr (objects key))
      order listed key)
  obtain ⟨⟨as, rfl⟩, -⟩ := validate_eq_ok_iff.mp ha.accepted
  obtain ⟨⟨bs, rfl⟩, -⟩ := validate_eq_ok_iff.mp hb.accepted
  exact congrArg Json.object (Keyed.ext_of_ascending (Json.ordered_object.mp ha.ordered).1
    (Json.ordered_object.mp hb.ordered).1 hget)

/-- Documents are equal if their members and their objects are, and these come in one order. -/
theorem Valid.same (ha : Valid a) (hb : Valid b)
    (members : ∀ key, key ≠ objectsKey → (a.get? key == b.get? key) = true)
    (objects : ∀ key, (Keyed.get? key (objectMap a) == Keyed.get? key (objectMap b)) = true)
    (order : Keyed.keys (orderedObjects a) = Keyed.keys (orderedObjects b))
    (listed : (a.get? objectsKey).isSome = (b.get? objectsKey).isSome) : (a == b) = true := by
  have arrays (xs ys : List Json) (h : List.Forall₂ (fun x y => Json.same x y = true) xs ys) :
      Json.same (.array xs) (.array ys) = true := by
    rw [Json.same]
    exact Json.sameItems_iff.mpr h
  have hget (key : String) : (a.get? key == b.get? key) = true :=
    Json.some_same_iff_rel.mpr (rel_of_objects arrays ha.accepted hb.accepted
      (fun key hkey => Json.some_same_iff_rel.mp (members key hkey))
      (fun key => Json.some_same_iff_rel.mp (objects key)) order listed key)
  obtain ⟨⟨as, rfl⟩, -⟩ := validate_eq_ok_iff.mp ha.accepted
  obtain ⟨⟨bs, rfl⟩, -⟩ := validate_eq_ok_iff.mp hb.accepted
  exact Json.same_of_get? (Json.ordered_object.mp ha.ordered).1
    (Json.ordered_object.mp hb.ordered).1 hget

end Document

namespace Merge

open Document (objectMap orderedObjects objectsKey)

/-! ### A list of objects -/

/-- A document, with an empty list of objects if another document lists objects and it does
not. -/
def listed (other original : Json) : Json :=
  if (other.get? objectsKey).isSome && !(original.get? objectsKey).isSome then
    .object (Keyed.insert objectsKey (.array []) (original.members?.getD []))
  else original

/-- Whether a document lists objects if another does. -/
def Lists (other original : Json) : Prop :=
  (other.get? objectsKey).isSome → (original.get? objectsKey).isSome

variable {other original source target base merged : Json} {base? : Option Json} {key : String}

theorem listed_of_lists (h : Lists other original) : listed other original = original := by
  rw [listed, if_neg]
  rw [Bool.and_eq_true, Bool.not_eq_true', not_and]
  intro hother
  rw [h hother]
  decide

theorem get?_listed (valid : Document.Valid original) (hkey : key ≠ objectsKey) :
    (listed other original).get? key = original.get? key := by
  obtain ⟨⟨members, rfl⟩, -⟩ := Document.validate_eq_ok_iff.mp valid.accepted
  rw [listed]
  split
  · exact Keyed.get?_insert_of_ne hkey
  · rfl

theorem get?_objects_listed (other original : Json) :
    (listed other original).get? objectsKey
      = if (other.get? objectsKey).isSome && !(original.get? objectsKey).isSome
        then some (.array []) else original.get? objectsKey := by
  rw [listed]
  split
  · exact Keyed.get?_insert_self
  · rfl

theorem isSome_listed (other original : Json) :
    ((listed other original).get? objectsKey).isSome
      = ((original.get? objectsKey).isSome || (other.get? objectsKey).isSome) := by
  rw [get?_objects_listed]
  cases (other.get? objectsKey).isSome <;> cases hdocument : (original.get? objectsKey).isSome <;>
    simp [hdocument]

theorem orderedObjects_listed (other original : Json) :
    orderedObjects (listed other original) = orderedObjects original := by
  rw [orderedObjects, orderedObjects, get?_objects_listed]
  by_cases h : ((other.get? objectsKey).isSome && !(original.get? objectsKey).isSome) = true
  · rw [if_pos h]
    rw [Bool.and_eq_true, Bool.not_eq_true', Option.isSome_eq_false_iff,
      Option.isNone_iff_eq_none] at h
    rw [h.2]
    rfl
  · rw [if_neg h]

theorem valid_listed (other : Json) (valid : Document.Valid original) :
    Document.Valid (listed other original) := by
  obtain ⟨⟨members, rfl⟩, -⟩ := Document.validate_eq_ok_iff.mp valid.accepted
  obtain ⟨ascending, ordered⟩ := Json.ordered_object.mp valid.ordered
  rw [listed]
  split
  · refine ⟨Json.ordered_object.mpr ⟨ascending.insert, fun member hmem => ?_⟩,
      Document.validate_eq_ok_iff.mpr ⟨⟨_, rfl⟩, fun objects hobjects => ?_⟩⟩
    · rcases Keyed.mem_of_mem_insert hmem with rfl | hmem
      · exact Json.ordered_array.mpr (by simp)
      · exact ordered member hmem
    · obtain rfl := Option.some_inj.mp (Keyed.get?_insert_self.symm.trans hobjects)
      exact ⟨[], rfl, by simp, by simp⟩
  · exact valid

/-! ### What is taken -/

/-- What is taken of a value: one that equals it, if there is one on another side. -/
def kept (other? value? : Option Json) : Option Json :=
  if value? == other? then other? else value?

theorem kept_same (other? value? : Option Json) : (kept other? value? == value?) = true := by
  rw [kept]
  split
  next h => rwa [Json.some_same_comm]
  next => exact beq_self_eq_true _

theorem isSome_kept (other? value? : Option Json) :
    (kept other? value?).isSome = value?.isSome := by
  have hrel := Json.some_same_iff_rel.mp (kept_same other? value?)
  generalize kept other? value? = taken? at hrel ⊢
  cases hrel <;> rfl

theorem kept_none (value? : Option Json) : kept none value? = value? := by
  cases value? <;> rfl

theorem kept_eq_iff {other? value? : Option Json} :
    kept other? value? = value? ↔ ((value? == other?) = true → other? = value?) := by
  rw [kept]
  split
  next h => simp [h]
  next h => simp [h]

/-- What a document must be to be a merge that takes what the source has, or what the base has
of equal value. -/
structure TakesSource (base? : Option Json) (source target merged : Json) : Prop where
  valid : Document.Valid merged
  members : ∀ key, key ≠ objectsKey →
    merged.get? key = kept (base?.bind (Json.get? key)) (source.get? key)
  objects : ∀ key, Keyed.get? key (objectMap merged)
    = kept (base?.bind fun base => Keyed.get? key (objectMap base))
      (Keyed.get? key (objectMap source))
  order : Keyed.keys (orderedObjects merged) = Keyed.keys (orderedObjects source)
  /-- Objects are listed if one of the two sides lists any. -/
  lists : (merged.get? objectsKey).isSome
    = ((source.get? objectsKey).isSome || (target.get? objectsKey).isSome)

/-- Whether what a source has in common with a base is the same to the letter. -/
structure SharesText (base? : Option Json) (source : Json) : Prop where
  members : ∀ base ∈ base?, ∀ key, key ≠ objectsKey →
    (source.get? key == base.get? key) = true → base.get? key = source.get? key
  objects : ∀ base ∈ base?, ∀ key,
    (Keyed.get? key (objectMap source) == Keyed.get? key (objectMap base)) = true →
      Keyed.get? key (objectMap base) = Keyed.get? key (objectMap source)

theorem SharesText.of_none : SharesText none source := ⟨by simp, by simp⟩

/-- A merge that takes the source equals it, with a list of objects if the target has one. -/
theorem TakesSource.same (h : TakesSource base? source target merged)
    (valid : Document.Valid source) : (merged == listed target source) = true := by
  refine h.valid.same (valid_listed target valid) (fun key hkey => ?_) (fun key => ?_) ?_ ?_
  · rw [get?_listed valid hkey, h.members key hkey]
    exact kept_same _ _
  · rw [h.objects key, objectMap, objectMap, orderedObjects_listed]
    exact kept_same _ _
  · rw [h.order, orderedObjects_listed]
  · rw [h.lists, isSome_listed]

/-- It is this document if what the source has in common with the base is the same to the
letter. -/
theorem TakesSource.eq_listed (h : TakesSource base? source target merged)
    (valid : Document.Valid source) (hshares : SharesText base? source) :
    merged = listed target source := by
  refine h.valid.ext (valid_listed target valid) (fun key hkey => ?_) (fun key => ?_) ?_ ?_
  · rw [get?_listed valid hkey, h.members key hkey]
    cases base? with
    | none => exact kept_none _
    | some base => exact kept_eq_iff.mpr (hshares.members base rfl key hkey)
  · rw [h.objects key, objectMap, objectMap, orderedObjects_listed]
    cases base? with
    | none => exact kept_none _
    | some base => exact kept_eq_iff.mpr (hshares.objects base rfl key)
  · rw [h.order, orderedObjects_listed]
  · rw [h.lists, isSome_listed]

/-- The canonical form is the source's if no list of objects is added, and what is taken of the
base is the same to the letter. -/
theorem TakesSource.canonical_eq_iff (h : TakesSource base? source target merged)
    (valid : Document.Valid source) :
    merged.canonical = source.canonical ↔ Lists target source ∧ SharesText base? source := by
  constructor
  · intro htext
    obtain rfl := Json.canonical_injective h.valid.ordered valid.ordered htext
    refine ⟨fun htarget => ?_, ⟨?_, ?_⟩⟩
    · rw [h.lists, htarget, Bool.or_true]
    · rintro base rfl key hkey
      exact kept_eq_iff.mp (h.members key hkey).symm
    · rintro base rfl key
      exact kept_eq_iff.mp (h.objects key).symm
  · rintro ⟨hlists, hshares⟩
    rw [h.eq_listed valid hshares, listed_of_lists hlists]

/-- What a merge that takes the source gives. -/
structure GivesSource (base? : Option Json) (source target merged : Json) : Prop
    extends TakesSource base? source target merged where
  /-- It equals the source, with an empty list of objects if only the target lists objects. -/
  same : (merged == listed target source) = true
  /-- It is this document to the letter without a base, or if the base's values are. -/
  exact : SharesText base? source → merged = listed target source
  text : merged.canonical = source.canonical ↔ Lists target source ∧ SharesText base? source

theorem TakesSource.givesSource (h : TakesSource base? source target merged)
    (valid : Document.Valid source) : GivesSource base? source target merged where
  toTakesSource := h
  same := h.same valid
  exact := h.eq_listed valid
  text := h.canonical_eq_iff valid

/-! ### Which merges take the source -/

variable {rulings : List Ruling}

theorem isSome_objects_document (base? : Option Json) (source target : Json)
    (rulings : List Ruling) :
    ((document base? source target rulings).get? objectsKey).isSome
      = ((source.get? objectsKey).isSome || (target.get? objectsKey).isSome) := by
  rw [get?_objects_document]
  split
  next h => exact h.symm
  next h => exact (Bool.not_eq_true _ ▸ h).symm

/-- What a merge lists of the source's objects comes in the source's order. -/
theorem filter_order_of_source {taken : String → Bool}
    (h : ∀ key, taken key = (Keyed.get? key (objectMap source)).isSome) :
    (order source target).filter taken = Keyed.keys (orderedObjects source) := by
  have hmem (key : String) : taken key = decide (key ∈ Keyed.keys (orderedObjects source)) := by
    rw [h, Bool.eq_iff_iff, decide_eq_true_eq, Keyed.get?_isSome_iff, Document.mem_keys_objectMap]
  rw [order, List.filter_append, List.filter_eq_self.mpr, List.filter_eq_nil_iff.mpr,
    List.append_nil]
  · intro key hkey
    rw [hmem]
    simpa using (List.mem_filter.mp hkey).2
  · intro key hkey
    rw [hmem, decide_eq_true_eq]
    exact hkey

/-- A merge without a base whose labels all take the source's objects. -/
theorem takesSource_of_labels
    (hrulings : rulings.map Ruling.toDivergence = Divergence.twoWay source target)
    (hlabels : ∀ ruling ∈ rulings, ruling.resolution? = some .sourceWins)
    (hsource : Document.Valid source) (htarget : Document.Valid target) :
    TakesSource none source target (document none source target rulings) := by
  have hmerged := IsTwoWay.of_labelled hrulings (isSome_label? hlabels) hsource htarget
  have hobjects := hmerged.objectMap_of_source hlabels
  refine ⟨hmerged.valid, fun key hkey => ?_, fun key => ?_, ?_, ?_⟩
  · rw [hmerged.members key hkey]
    exact (kept_none _).symm
  · rw [hobjects]
    exact (kept_none _).symm
  · exact hmerged.in_order.trans (filter_order_of_source fun key => by rw [hobjects])
  · exact isSome_objects_document none source target rulings

/-- The verdict on an object if the target still is the base. -/
theorem verdict_of_unchanged (base source : Json) (key : String) :
    (verdict (some base) source base [] key).value?
      = kept (Keyed.get? key (objectMap base)) (Keyed.get? key (objectMap source)) := by
  rw [verdict, object.eq_def]
  dsimp only [Ruling.find?, List.reverse_nil, List.findSome?_nil, Option.map_some]
  rw [threeWayObject.eq_def, Bool.or_self, kept]
  split
  · rfl
  · rw [if_pos (beq_self_eq_true _)]
    rfl

/-- A merge with a base that the target still is. -/
theorem takesSource_of_base (hbase : Document.Valid base) (hsource : Document.Valid source) :
    TakesSource (some base) source base (document (some base) source base []) := by
  have recorded := recorded_nil source base
  have hobjects (key : String) :
      Keyed.get? key (objectMap (document (some base) source base []))
        = kept (Keyed.get? key (objectMap base)) (Keyed.get? key (objectMap source)) := by
    rw [get?_document recorded hbase.ordered, verdict_of_unchanged]
  refine ⟨⟨ordered_document recorded hsource.ordered hbase.ordered, validate_document recorded
      hbase.ordered hsource.accepted hbase.accepted⟩, fun key hkey => member_document _ _ _ _ hkey,
    hobjects, ?_, isSome_objects_document _ _ _ _⟩
  rw [keys_document_eq_filter recorded hbase.ordered]
  refine filter_order_of_source fun key => ?_
  rw [hobjects, isSome_kept]

/-- Which merges take the source. -/
inductive ForSource : Option Json → Json → List Ruling → Prop
  /-- All labels do, and there is no base. -/
  | labelled {target : Json} {rulings : List Ruling} :
      (∀ ruling ∈ rulings, ruling.resolution? = some .sourceWins) → ForSource none target rulings
  /-- The target still is the base. -/
  | unchanged {target : Json} {rulings : List Ruling} : ForSource (some target) target rulings

/-- Nothing diverges from a target that still is the base. -/
theorem threeWay_unchanged (base source : Json) : Divergence.threeWay base source base = [] :=
  Divergence.threeWay_eq_nil (by rw [beq_self_eq_true, Bool.or_true])

theorem ForSource.takesSource (h : ForSource base? target rulings)
    (hrulings : rulings.map Ruling.toDivergence = Divergence.since base? source target)
    (hsource : Document.Valid source) (htarget : Document.Valid target) :
    TakesSource base? source target (document base? source target rulings) := by
  cases h with
  | labelled hlabels => exact takesSource_of_labels hrulings hlabels hsource htarget
  | unchanged =>
    have hnone : Divergence.since (some target) source target = [] := threeWay_unchanged _ _
    rw [hnone, List.map_eq_nil_iff] at hrulings
    rw [hrulings]
    exact takesSource_of_base htarget hsource

end Merge

end PlanHistory
