/-
The objects and the shape of a merged document.

Rulings are *recorded* between two documents if those on whole objects hold what the
documents have there (`Merge.Recorded`); the rulings on the divergences found by either
detector are.  Then:

* **`Merge.objectKey?_of_object`** — an object gets a value of its own key;
* **`Merge.get?_document`** — the merged document has under each key the verdict on it;
* **`Merge.validate_document`** — it is accepted;
* **`Merge.within_document`** — it nests no deeper than the documents it is put together
  from and the labels that settle it allow.
-/
import PlanHistory.Proofs.Conflict.Resolution

namespace PlanHistory

namespace Merge

open Document (objectKey? objectMap orderedObjects objectsKey idKey)

variable {rulings : List Ruling} {key : String} {item base source target : Json}
  {base? : Option Json}

/-! ### Properties -/

theorem get?_members (rulings : List Ruling) (object : String) (base source target : Keyed Json) :
    Keyed.get? key (members rulings object base source target)
      = (property rulings object key (Keyed.get? key base) (Keyed.get? key source)
          (Keyed.get? key target)).value? := by
  rw [members]
  refine (Keyed.get?_foldl_insert? (fun key => (property rulings object key
    (Keyed.get? key base) (Keyed.get? key source) (Keyed.get? key target)).value?) _ _).trans ?_
  rw [Keyed.get?_nil, Option.or_none]
  split
  next => rfl
  next h =>
    simp only [mem_ascending, List.mem_append, not_or, ← Keyed.get?_eq_none_iff] at h
    rw [h.1.1, h.1.2, h.2]
    rfl

theorem ascending_members (rulings : List Ruling) (object : String)
    (base source target : Keyed Json) :
    Keyed.Ascending (members rulings object base source target) :=
  Keyed.ascending_nil.foldl_insert? _ _

theorem property_of_agrees {object : String} {base? source? target? : Option Json}
    (h : Divergence.agrees base? source? target? = true) :
    (property rulings object key base? source? target?).value?
        = if source? == target? || source? == base? then target? else source? := by
  rw [property]
  split
  next => rfl
  next hleft =>
    rw [Divergence.agrees, Bool.or_eq_true] at h
    rw [if_pos (h.resolve_left hleft)]
    rfl

/-- Properties merged one by one keep the key of the object. -/
theorem objectKey?_members {b s t : Keyed Json} (object : String)
    (hb : objectKey? (.object b) = some key) (hs : objectKey? (.object s) = some key)
    (ht : objectKey? (.object t) = some key) :
    objectKey? (.object (members rulings object b s t)) = some key := by
  obtain ⟨idb, hidb, namesb⟩ := Document.objectKey?_eq_some_iff.mp hb
  obtain ⟨ids, hids, namess⟩ := Document.objectKey?_eq_some_iff.mp hs
  obtain ⟨idt, hidt, namest⟩ := Document.objectKey?_eq_some_iff.mp ht
  have hidb : Keyed.get? idKey b = some idb := hidb
  have hids : Keyed.get? idKey s = some ids := hids
  have hidt : Keyed.get? idKey t = some idt := hidt
  -- The three ids name one key, so two of them agree.
  have hagrees : Divergence.agrees (some idb) (some ids) (some idt) = true := by
    rw [Divergence.agrees, Bool.or_eq_true, Bool.or_eq_true]
    rcases Document.Names.same_of_three namesb namess namest with h | h | h
    · exact Or.inl (Or.inl h)
    · exact Or.inl (Or.inr h)
    · exact Or.inr h
  have hvalue : ∃ id, Keyed.get? idKey (members rulings object b s t) = some id
      ∧ Document.Names id key := by
    rw [get?_members, hidb, hids, hidt, property_of_agrees hagrees]
    split
    · exact ⟨idt, rfl, namest⟩
    · exact ⟨ids, rfl, namess⟩
  exact Document.objectKey?_eq_some_iff.mpr hvalue

/-! ### Objects -/

/-- The rulings on whole objects hold what two documents have there. -/
def Recorded (source target : Json) (rulings : List Ruling) : Prop :=
  ∀ ruling ∈ rulings, ruling.toDivergence.Records source target

/-- Rulings on what was found between two documents are recorded. -/
theorem recorded_of_since
    (h : rulings.map Ruling.toDivergence = Divergence.since base? source target) :
    Recorded source target rulings := by
  intro ruling hmem
  have hfound : ruling.toDivergence ∈ Divergence.since base? source target := by
    rw [← h]
    exact List.mem_map_of_mem hmem
  exact Divergence.records_of_mem_since hfound

theorem recorded_of_threeWay
    (h : rulings.map Ruling.toDivergence = Divergence.threeWay base source target) :
    Recorded source target rulings :=
  @recorded_of_since _ _ _ (some base) h

/-- The verdict on an object of two documents, and of their base if there is one. -/
abbrev verdict (base? : Option Json) (source target : Json) (rulings : List Ruling)
    (key : String) : Verdict :=
  object rulings (base?.map objectMap) (objectMap source) (objectMap target) key

/-- A recorded ruling on a whole object gives what its label asks for of what the two
documents have, one of them at least. -/
theorem verdict_of_find? {ruling : Ruling} {resolution : Resolution}
    (recorded : Recorded source target rulings)
    (hfind : Ruling.find? rulings key none = some (ruling, resolution)) :
    ((Keyed.get? key (objectMap source)).or (Keyed.get? key (objectMap target))).isSome
      ∧ verdict base? source target rulings key = .settled (resolution.object?
        (Keyed.get? key (objectMap source)) (Keyed.get? key (objectMap target))) := by
  obtain ⟨hmem, hobject, hproperty, hresolution⟩ := Ruling.find?_eq_some hfind
  obtain ⟨hsource, htarget, hsome⟩ := recorded ruling hmem hproperty
  rw [hobject] at hsource htarget
  rw [hsource, htarget] at hsome
  refine ⟨hsome, ?_⟩
  have hor (value? : Option Json) : value?.or value? = value? := by cases value? <;> rfl
  rw [verdict, object.eq_def, hfind]
  dsimp only
  rw [hsource, htarget, hor, hor]

/-- A verdict is a resolution of what the two documents have, or what the rules of
merging give. -/
theorem verdict_cases (base? : Option Json) (recorded : Recorded source target rulings)
    (key : String) :
    (∃ resolution, (∃ ruling ∈ rulings, ruling.resolution? = some resolution)
        ∧ ((Keyed.get? key (objectMap source)).or (Keyed.get? key (objectMap target))).isSome
        ∧ verdict base? source target rulings key = .settled (resolution.object?
          (Keyed.get? key (objectMap source)) (Keyed.get? key (objectMap target))))
      ∨ verdict base? source target rulings key
        = match base? with
          | some base => threeWayObject rulings key (Keyed.get? key (objectMap base))
            (Keyed.get? key (objectMap source)) (Keyed.get? key (objectMap target))
          | none => twoWayObject (Keyed.get? key (objectMap source))
            (Keyed.get? key (objectMap target)) := by
  cases hfind : Ruling.find? rulings key none with
  | none =>
    right
    rw [verdict, object.eq_def, hfind]
    cases base? <;> rfl
  | some found =>
    obtain ⟨ruling, resolution⟩ := found
    obtain ⟨hmem, -, -, hresolution⟩ := Ruling.find?_eq_some hfind
    exact Or.inl ⟨resolution, ⟨ruling, hmem, hresolution⟩, verdict_of_find? recorded hfind⟩

theorem verdict_of_absent (recorded : Recorded source target rulings)
    (hsource : Keyed.get? key (objectMap source) = none)
    (htarget : Keyed.get? key (objectMap target) = none) :
    verdict base? source target rulings key = .merged none := by
  rcases verdict_cases base? recorded key with ⟨_, -, hsome, -⟩ | h
  · rw [hsource, htarget] at hsome
    exact absurd hsome (by simp)
  · rw [h, hsource, htarget]
    cases base? <;> rfl

/-- An object of a merged document comes from a label, from one of the two documents, or is
put together from what three documents have. -/
theorem verdict_value?_cases (recorded : Recorded source target rulings)
    (h : (verdict base? source target rulings key).value? = some item) :
    (∃ resolution, (∃ ruling ∈ rulings, ruling.resolution? = some resolution)
        ∧ ((Keyed.get? key (objectMap source)).or (Keyed.get? key (objectMap target))).isSome
        ∧ resolution.object? (Keyed.get? key (objectMap source))
          (Keyed.get? key (objectMap target)) = some item)
      ∨ Keyed.get? key (objectMap source) = some item
      ∨ Keyed.get? key (objectMap target) = some item
      ∨ ∃ base b s t, Divergence.InAll (Keyed.get? key (objectMap base))
          (Keyed.get? key (objectMap source)) (Keyed.get? key (objectMap target)) b s t
        ∧ item = .object (members rulings key b s t) := by
  rcases verdict_cases base? recorded key with ⟨resolution, hresolution, hsome, hv⟩ | hv
  · rw [hv] at h
    exact Or.inl ⟨resolution, hresolution, hsome, h⟩
  -- No ruling is on the object, so that the rules of merging decide.
  · rw [hv] at h
    cases base? with
    | none =>
      dsimp only at h
      rw [twoWayObject] at h
      split at h
      · exact Or.inr (Or.inl h)
      · exact Or.inr (Or.inr (Or.inl h))
    | some base =>
      dsimp only at h
      rw [threeWayObject.eq_def] at h
      split at h
      · exact Or.inr (Or.inr (Or.inl h))
      split at h
      · exact Or.inr (Or.inl h)
      split at h
      next b s t hb hs ht =>
        exact Or.inr (Or.inr (Or.inr ⟨base, b, s, t, ⟨hb, hs, ht⟩, (Option.some_inj.mp h).symm⟩))
      next => exact Or.inr (Or.inr (Or.inl h))

/-- An object gets a value of its own key. -/
theorem objectKey?_of_object (recorded : Recorded source target rulings)
    (ordered : target.Ordered) (h : (verdict base? source target rulings key).value? = some item) :
    objectKey? item = some key := by
  have hsource : ∀ item ∈ Keyed.get? key (objectMap source), objectKey? item = some key :=
    fun _ => Document.objectKey?_of_get?
  have htarget : ∀ item ∈ Keyed.get? key (objectMap target), objectKey? item = some key :=
    fun _ => Document.objectKey?_of_get?
  rcases verdict_value?_cases recorded h with
    ⟨resolution, -, hsome, hitem⟩ | hitem | hitem | ⟨base, b, s, t, ⟨hb, hs, ht⟩, rfl⟩
  · exact Resolution.objectKey?_of_object? hsome hsource htarget
      (fun item hitem => Document.ordered_of_get? ordered hitem) hitem
  · exact hsource item hitem
  · exact htarget item hitem
  · exact objectKey?_members key (Document.objectKey?_of_get? hb) (hsource _ hs) (htarget _ ht)

/-! ### The document -/

theorem mem_order :
    key ∈ order source target
      ↔ (Keyed.get? key (objectMap source)).isSome
        ∨ (Keyed.get? key (objectMap target)).isSome := by
  rw [Keyed.get?_isSome_iff, Keyed.get?_isSome_iff, Document.mem_keys_objectMap,
    Document.mem_keys_objectMap, order, List.mem_append, List.mem_filter]
  by_cases h : key ∈ Keyed.keys (orderedObjects source) <;> simp [h]

theorem nodup_order (hsource : Document.validate source = .ok ())
    (htarget : Document.validate target = .ok ()) : (order source target).Nodup := by
  refine List.nodup_append.mpr ⟨Document.nodup_keys_orderedObjects hsource,
    (Document.nodup_keys_orderedObjects htarget).filter _, ?_⟩
  rintro a ha b hb rfl
  have hfresh := (List.mem_filter.mp hb).2
  rw [List.contains_iff_mem.mpr ha] at hfresh
  exact absurd hfresh (by decide)

theorem get?_objects_document (base? : Option Json) (source target : Json)
    (rulings : List Ruling) :
    (document base? source target rulings).get? objectsKey
      = if (source.get? objectsKey).isSome || (target.get? objectsKey).isSome then
          some (.array (objects base? source target rulings))
        else none := by
  rw [document.eq_def]
  dsimp only
  split
  · exact Keyed.get?_insert_self
  · exact Keyed.get?_erase.trans (if_pos rfl)

theorem order_of_absent (hsource : source.get? objectsKey = none)
    (htarget : target.get? objectsKey = none) : order source target = [] := by
  rw [order, orderedObjects, orderedObjects, hsource, htarget]
  rfl

theorem filterMap_objectKey?_objects (recorded : Recorded source target rulings)
    (ordered : target.Ordered) :
    (objects base? source target rulings).filterMap
        (fun item => (objectKey? item).map fun key => (key, item))
      = Keyed.ofNames (fun key => (verdict base? source target rulings key).value?)
          (order source target) := by
  rw [objects, Keyed.ofNames, List.filterMap_filterMap]
  refine List.filterMap_congr fun key _ => ?_
  cases hvalue : (verdict base? source target rulings key).value? with
  | none => rw [Option.map_none, Option.bind_none]
  | some item =>
    rw [Option.map_some, Option.bind_some, objectKey?_of_object recorded ordered hvalue,
      Option.map_some]

/-- The objects of the merged document, under their keys. -/
theorem orderedObjects_document (recorded : Recorded source target rulings)
    (ordered : target.Ordered) :
    orderedObjects (document base? source target rulings)
      = Keyed.ofNames (fun key => (verdict base? source target rulings key).value?)
          (order source target) := by
  rw [orderedObjects, get?_objects_document]
  by_cases h : ((source.get? objectsKey).isSome || (target.get? objectsKey).isSome) = true
  · rw [if_pos h, ← filterMap_objectKey?_objects recorded ordered]
    rfl
  · rw [if_neg h]
    simp only [Bool.or_eq_true, not_or, Option.not_isSome_iff_eq_none] at h
    rw [order_of_absent h.1 h.2]
    rfl

/-- The merged document has under each key the verdict on it. -/
theorem get?_document (recorded : Recorded source target rulings) (ordered : target.Ordered)
    (key : String) :
    Keyed.get? key (objectMap (document base? source target rulings))
      = (verdict base? source target rulings key).value? := by
  rw [objectMap, Keyed.get?_ofEntries, orderedObjects_document recorded ordered,
    Keyed.reverse_ofNames, Keyed.get?_ofNames]
  split
  · rfl
  next h =>
    simp only [List.mem_reverse, mem_order, not_or, Option.not_isSome_iff_eq_none] at h
    rw [verdict_of_absent recorded h.1 h.2]
    rfl

theorem keys_document (recorded : Recorded source target rulings) (ordered : target.Ordered) :
    Keyed.keys (orderedObjects (document base? source target rulings))
      = (order source target).filter fun key =>
          (verdict base? source target rulings key).value?.isSome := by
  rw [orderedObjects_document recorded ordered, Keyed.keys_ofNames]

/-- All items of the merged document carry a usable id. -/
theorem objects_document (recorded : Recorded source target rulings) (ordered : target.Ordered) :
    objects base? source target rulings
      = (orderedObjects (document base? source target rulings)).map Prod.snd := by
  rw [orderedObjects_document recorded ordered, objects, Keyed.ofNames, List.map_filterMap]
  refine List.filterMap_congr fun key _ => ?_
  rw [Option.map_map]
  exact Option.map_id'.symm

/-- The objects of the merged document are in the order of merging. -/
theorem keys_document_eq_filter (recorded : Recorded source target rulings)
    (ordered : target.Ordered) :
    Keyed.keys (orderedObjects (document base? source target rulings))
      = (order source target).filter fun key =>
          (Keyed.get? key (objectMap (document base? source target rulings))).isSome := by
  simp only [get?_document recorded ordered]
  exact keys_document recorded ordered

/-- An object of the merged document is one of the two sides. -/
theorem side_of_mem_document (recorded : Recorded source target rulings)
    (ordered : target.Ordered)
    (h : key ∈ Keyed.keys (orderedObjects (document base? source target rulings))) :
    key ∈ Keyed.keys (orderedObjects source) ∨ key ∈ Keyed.keys (orderedObjects target) := by
  rw [keys_document recorded ordered] at h
  have hside := mem_order.mp (List.mem_filter.mp h).1
  rwa [Keyed.get?_isSome_iff, Keyed.get?_isSome_iff, Document.mem_keys_objectMap,
    Document.mem_keys_objectMap] at hside

/-- The merged document lists these objects, if one of the two sides lists any. -/
theorem items_document (recorded : Recorded source target rulings) (ordered : target.Ordered) :
    ((document base? source target rulings).get? objectsKey).bind Json.items?
      = if (source.get? objectsKey).isSome || (target.get? objectsKey).isSome
        then some ((orderedObjects (document base? source target rulings)).map Prod.snd)
        else none := by
  rw [get?_objects_document, objects_document recorded ordered]
  split <;> rfl

/-- A merged document is accepted. -/
theorem validate_document (recorded : Recorded source target rulings) (ordered : target.Ordered)
    (hsource : Document.validate source = .ok ()) (htarget : Document.validate target = .ok ()) :
    Document.validate (document base? source target rulings) = .ok () := by
  refine Document.validate_eq_ok_iff.mpr ⟨?_, fun found hfound => ?_⟩
  · rw [document.eq_def]
    dsimp only
    split <;> exact ⟨_, rfl⟩
  · have hget := hfound
    rw [get?_objects_document] at hfound
    split at hfound
    next =>
      obtain rfl := Option.some_inj.mp hfound
      refine ⟨_, rfl, fun item hmem => ?_, ?_⟩
      · rw [objects] at hmem
        obtain ⟨key, -, hvalue⟩ := List.mem_filterMap.mp hmem
        rw [objectKey?_of_object recorded ordered hvalue]
        rfl
      · have hitems : ((document base? source target rulings).get? objectsKey).bind Json.items?
            = some (objects base? source target rulings) := by rw [hget]; rfl
        rw [← Document.keys_orderedObjects_of_items hitems, keys_document recorded ordered]
        exact (nodup_order hsource htarget).filter _
    next => simp at hfound

/-! ### Nesting -/

variable {levels : Nat}

/-- No label of some rulings spells JSON that nests deeper than some levels. -/
def Shallow (levels : Nat) (rulings : List Ruling) : Prop :=
  ∀ ruling ∈ rulings, ∀ resolution ∈ ruling.resolution?, resolution.Spells levels

theorem within_property (shallow : Shallow levels rulings) {object : String}
    {base? source? target? : Option Json} (hsource : ∀ value ∈ source?, value.Within levels)
    (htarget : ∀ value ∈ target?, value.Within levels)
    (h : (property rulings object key base? source? target?).value? = some item) :
    item.Within levels := by
  rw [property] at h
  split at h
  · exact htarget item h
  split at h
  · exact hsource item h
  split at h
  next ruling resolution hfind =>
    obtain ⟨hmem, -, -, hresolution⟩ := Ruling.find?_eq_some hfind
    exact Resolution.within_property? (shallow ruling hmem resolution hresolution) hsource htarget h
  next => exact htarget item h

theorem within_members (shallow : Shallow levels rulings) {object : String} {b s t : Keyed Json}
    (hs : (Json.object s).Within (levels + 1)) (ht : (Json.object t).Within (levels + 1)) :
    (Json.object (members rulings object b s t)).Within (levels + 1) := by
  refine Json.within_object (ascending_members _ _ _ _ _) fun key value hget => ?_
  rw [get?_members] at hget
  exact within_property shallow (fun _ => hs.of_members) (fun _ => ht.of_members) hget

theorem within_verdict (recorded : Recorded source target rulings)
    (shallow : Shallow levels rulings) (hsource : source.Within (levels + 3))
    (htarget : target.Within (levels + 3))
    (h : (verdict base? source target rulings key).value? = some item) :
    item.Within (levels + 1) := by
  have hs : ∀ item ∈ Keyed.get? key (objectMap source), item.Within (levels + 1) :=
    fun _ => Document.within_of_get? hsource
  have ht : ∀ item ∈ Keyed.get? key (objectMap target), item.Within (levels + 1) :=
    fun _ => Document.within_of_get? htarget
  rcases verdict_value?_cases recorded h with
    ⟨resolution, ⟨ruling, hmem, hresolution⟩, -, hitem⟩ | hitem | hitem
      | ⟨base, b, s, t, ⟨-, hbs, hbt⟩, rfl⟩
  · have hspells := shallow ruling hmem resolution hresolution
    exact Resolution.within_object? (hspells.mono (Nat.le_succ levels)) hs ht hitem
  · exact hs item hitem
  · exact ht item hitem
  · exact within_members shallow (hs _ hbs) (ht _ hbt)

theorem get?_topLevel (base source target : Keyed Json) (key : String) :
    Keyed.get? key (topLevel base source target)
      = if key = objectsKey then none
        else if Keyed.get? key source == Keyed.get? key base then Keyed.get? key target
        else Keyed.get? key source := by
  rw [topLevel]
  refine (Keyed.get?_foldl_insert? (fun key =>
    if Keyed.get? key source == Keyed.get? key base then Keyed.get? key target
    else Keyed.get? key source) _ _).trans ?_
  rw [Keyed.get?_nil, Option.or_none]
  by_cases hkey : key = objectsKey
  · rw [if_pos hkey, if_neg]
    simp [hkey]
  · rw [if_neg hkey]
    split
    next => rfl
    next h =>
      have habsent : key ∉ Keyed.keys base ∧ key ∉ Keyed.keys source ∧ key ∉ Keyed.keys target := by
        simpa [hkey, not_or, and_assoc] using h
      simp only [← Keyed.get?_eq_none_iff] at habsent
      rw [habsent.1, habsent.2.1, habsent.2.2]
      rfl

theorem ascending_topLevel (base source target : Keyed Json) :
    Keyed.Ascending (topLevel base source target) :=
  Keyed.ascending_nil.foldl_insert? _ _

/-- A merged document nests no deeper than its two sides, if no label spells more than
fits in the place of a property. -/
theorem within_document (recorded : Recorded source target rulings)
    (shallow : Shallow levels rulings) (hsource : source.Within (levels + 3))
    (htarget : target.Within (levels + 3)) :
    (document base? source target rulings).Within (levels + 3) := by
  have hobjects : (Json.array (objects base? source target rulings)).Within (levels + 2) := by
    refine Json.within_array.mpr fun item hmem => ?_
    rw [objects] at hmem
    obtain ⟨key, -, hvalue⟩ := List.mem_filterMap.mp hmem
    exact within_verdict recorded shallow hsource htarget hvalue
  -- A side that is no object has no members.
  have hmembers {side : Json} (hside : side.Within (levels + 3)) :
      Keyed.Ascending (side.members?.getD [])
        ∧ ∀ key value, Keyed.get? key (side.members?.getD []) = some value →
          value.Within (levels + 2) := by
    cases side with
    | object members => exact ⟨hside.ascending, fun _ _ => hside.of_members⟩
    | _ => exact ⟨Keyed.ascending_nil, by simp [Json.members?]⟩
  -- What stands around the objects is the source's, or is chosen key by key.
  have haround : Keyed.Ascending (match base? with
        | some base => topLevel (base.members?.getD []) (source.members?.getD [])
          (target.members?.getD [])
        | none => source.members?.getD [])
      ∧ ∀ key value, Keyed.get? key (match base? with
        | some base => topLevel (base.members?.getD []) (source.members?.getD [])
          (target.members?.getD [])
        | none => source.members?.getD []) = some value → value.Within (levels + 2) := by
    cases base? with
    | none => exact hmembers hsource
    | some base =>
      refine ⟨ascending_topLevel _ _ _, fun key value hget => ?_⟩
      dsimp only at hget
      rw [get?_topLevel] at hget
      split at hget
      · simp at hget
      split at hget
      · exact (hmembers htarget).2 key value hget
      · exact (hmembers hsource).2 key value hget
  obtain ⟨ascending, hvalues⟩ := haround
  rw [document.eq_def]
  dsimp only
  split
  · refine Json.within_object ascending.insert fun key value hget => ?_
    rw [Keyed.get?_insert] at hget
    split at hget
    · exact Option.some_inj.mp hget ▸ hobjects
    · exact hvalues key value hget
  · refine Json.within_object ascending.erase fun key value hget => ?_
    rw [Keyed.get?_erase] at hget
    split at hget
    · simp at hget
    · exact hvalues key value hget

theorem ordered_document (recorded : Recorded source target rulings) (hsource : source.Ordered)
    (htarget : target.Ordered) : (document base? source target rulings).Ordered := by
  have shallow : Shallow (Json.nestingLimit + source.nesting + target.nesting) rulings :=
    fun _ _ resolution _ => resolution.spells_nestingLimit.mono (by omega)
  exact (within_document recorded shallow (hsource.within.mono (by omega))
    (htarget.within.mono (by omega))).ordered

end Merge

end PlanHistory
