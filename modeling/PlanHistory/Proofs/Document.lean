/-
What a document that is accepted looks like.

* **`Document.validate_eq_ok_iff`** — an object whose `objects`, if there, is an array of
  items with usable and different ids;
* **`Document.Valid`** — an accepted document as the reader gives it;
* **`Document.get?_objectMap`** — the objects of such a document are found in document
  order and by key alike;
* **`Document.objectKey?_of_get?`** — what is found under a key is an object of that key.
-/
import Mathlib.Data.List.Basic
import PlanHistory.Proofs.Json.Value
import PlanHistory.Proofs.Number.Decimal
import PlanHistory.Document

namespace PlanHistory

namespace Document

variable {document item : Json} {items : List Json} {key : String}

/-! ### Keys of objects -/

theorem objectKey?_object {members other : Keyed Json}
    (h : Keyed.get? idKey members = Keyed.get? idKey other) :
    objectKey? (.object members) = objectKey? (.object other) := by
  have hget : (Json.object members).get? idKey = (Json.object other).get? idKey := h
  rw [objectKey?, hget, ← objectKey?]

/-- An item with a key is an object. -/
theorem exists_object_of_objectKey? (h : objectKey? item = some key) :
    ∃ members, item = .object members := by
  cases item with
  | object members => exact ⟨members, rfl⟩
  | _ => exact absurd h (by simp [objectKey?, Json.get?, Json.members?])

/-- Whether an `id` names a key: as the text itself, or as the integer it spells. -/
def Names (id : Json) (key : String) : Prop :=
  (id = .string key ∧ key.isEmpty = false)
    ∨ ∃ i : WideInt, id = .number (.whole i) ∧ String.ofList (Decimal.signedNumeral i.val) = key

theorem objectKey?_eq_some_iff :
    objectKey? item = some key ↔ ∃ id, item.get? idKey = some id ∧ Names id key := by
  constructor
  · intro h
    rw [objectKey?] at h
    split at h
    next id hid =>
      split at h
      · simp at h
      next hne =>
        obtain rfl := Option.some_inj.mp h
        exact ⟨_, hid, Or.inl ⟨rfl, by simpa using hne⟩⟩
    next id hid => exact ⟨_, hid, Or.inr ⟨id, rfl, Option.some_inj.mp h⟩⟩
    next => simp at h
  · rintro ⟨id, hid, ⟨rfl, hne⟩ | ⟨i, rfl, rfl⟩⟩
    · rw [objectKey?, hid]
      simp [hne]
    · rw [objectKey?, hid]

theorem whole_same_of_key {i j : WideInt}
    (hi : String.ofList (Decimal.signedNumeral i.val) = key)
    (hj : String.ofList (Decimal.signedNumeral j.val) = key) :
    (Json.number (.whole i) == Json.number (.whole j)) = true := by
  have hval : i.val = j.val :=
    Decimal.signedNumeral_injective (String.ofList_injective (hi.trans hj.symm))
  rw [Subtype.ext hval, beq_self_eq_true]

/-- Of three ids that name one key, two are the same. -/
theorem Names.same_of_three {a b c : Json} (ha : Names a key) (hb : Names b key)
    (hc : Names c key) : (b == c) = true ∨ (b == a) = true ∨ (c == a) = true := by
  -- Each of the ids is the key itself or the number that the key spells.
  rcases hb with ⟨rfl, -⟩ | ⟨i, rfl, hi⟩
  · rcases hc with ⟨rfl, -⟩ | ⟨j, rfl, hj⟩
    · exact Or.inl (beq_self_eq_true _)
    · rcases ha with ⟨rfl, -⟩ | ⟨l, rfl, hl⟩
      · exact Or.inr (Or.inl (beq_self_eq_true _))
      · exact Or.inr (Or.inr (whole_same_of_key hj hl))
  · rcases hc with ⟨rfl, -⟩ | ⟨j, rfl, hj⟩
    · rcases ha with ⟨rfl, -⟩ | ⟨l, rfl, hl⟩
      · exact Or.inr (Or.inr (beq_self_eq_true _))
      · exact Or.inr (Or.inl (whole_same_of_key hi hl))
    · exact Or.inl (whole_same_of_key hi hj)

/-! ### Accepted documents -/

theorem firstDefect?_eq_none_iff {index : Nat} {seen : List String} :
    firstDefect? index seen items = none
      ↔ (∀ item ∈ items, (objectKey? item).isSome)
        ∧ (items.filterMap objectKey?).Nodup
        ∧ ∀ key ∈ items.filterMap objectKey?, key ∉ seen := by
  induction items generalizing index seen with
  | nil => simp [firstDefect?]
  | cons item items ih =>
    rw [firstDefect?, List.forall_mem_cons, List.filterMap_cons]
    cases hkey : objectKey? item with
    | none =>
      split <;> simp
    | some key =>
      obtain ⟨members, rfl⟩ := exists_object_of_objectKey? hkey
      dsimp only [Json.members?]
      by_cases hseen : key ∈ seen
      · rw [if_pos (List.contains_iff_mem.mpr hseen)]
        simp [hseen]
      · rw [if_neg (by simpa using hseen), ih]
        simp only [List.nodup_cons, List.mem_cons, forall_eq_or_imp, Option.isSome_some, true_and]
        constructor
        · rintro ⟨hall, hnodup, hfresh⟩
          exact ⟨hall, ⟨fun hmem => hfresh key hmem (Or.inl rfl), hnodup⟩, hseen,
            fun other hmem h => hfresh other hmem (Or.inr h)⟩
        · rintro ⟨hall, ⟨hkeys, hnodup⟩, -, hfresh⟩
          refine ⟨hall, hnodup, fun other hmem h => ?_⟩
          rcases h with rfl | h
          · exact hkeys hmem
          · exact hfresh other hmem h

/-- A document is accepted exactly if it is an object whose `objects`, if there, is an
array of items with usable and different ids. -/
theorem validate_eq_ok_iff :
    validate document = .ok ()
      ↔ (∃ members, document = .object members)
        ∧ ∀ objects, document.get? objectsKey = some objects →
          ∃ items, objects = .array items ∧ (∀ item ∈ items, (objectKey? item).isSome)
            ∧ (items.filterMap objectKey?).Nodup := by
  have hdefect : validate document = .ok () ↔ defect? document = none := by
    rw [validate]
    split
    next h => simp [h]
    next h => simp [h]
  rw [hdefect, defect?]
  cases document with
  | object members =>
    simp only [Json.members?, Json.get?, Option.bind_some]
    cases hobjects : Keyed.get? objectsKey members with
    | none => simp
    | some objects =>
      cases objects with
      | array items =>
        simp only [Json.items?, firstDefect?_eq_none_iff]
        simp
      | _ => simp [Json.items?]
  | _ => simp [Json.members?]

/-- A document that may be committed: accepted, and its members as the reader gives
them. -/
structure Valid (document : Json) : Prop where
  ordered : document.Ordered
  accepted : validate document = .ok ()

/-! ### Objects by key -/

/-- What is found under a key is an object of that key. -/
theorem objectKey?_of_mem_orderedObjects (h : (key, item) ∈ orderedObjects document) :
    objectKey? item = some key := by
  rw [orderedObjects] at h
  split at h
  next items _ =>
    obtain ⟨other, -, h⟩ := List.mem_filterMap.mp h
    obtain ⟨found, hfound, h⟩ := Option.map_eq_some_iff.mp h
    obtain ⟨rfl, rfl⟩ := Prod.mk.inj h
    exact hfound
  next => simp at h

theorem objectKey?_of_get? (h : Keyed.get? key (objectMap document) = some item) :
    objectKey? item = some key := by
  rw [objectMap, Keyed.get?_ofEntries] at h
  exact objectKey?_of_mem_orderedObjects (List.mem_reverse.mp (Keyed.mem_of_get? h))

theorem mem_items_of_get? (h : Keyed.get? key (objectMap document) = some item) :
    ∃ items, document.get? objectsKey = some (.array items) ∧ item ∈ items := by
  rw [objectMap, Keyed.get?_ofEntries] at h
  have hmem := List.mem_reverse.mp (Keyed.mem_of_get? h)
  rw [orderedObjects] at hmem
  split at hmem
  next items hitems =>
    obtain ⟨other, hother, hmem⟩ := List.mem_filterMap.mp hmem
    obtain ⟨found, -, hmem⟩ := Option.map_eq_some_iff.mp hmem
    obtain ⟨rfl, rfl⟩ := Prod.mk.inj hmem
    obtain ⟨objects, hobjects, hitems⟩ := Option.bind_eq_some_iff.mp hitems
    cases objects with
    | array all => exact ⟨items, by rw [hobjects, Option.some_inj.mp hitems], hother⟩
    | _ => simp [Json.items?] at hitems
  next => simp at hmem

/-- The objects of a document nest two levels less. -/
theorem within_of_get? {levels : Nat} (hdocument : document.Within (levels + 2))
    (h : Keyed.get? key (objectMap document) = some item) : item.Within levels := by
  obtain ⟨items, hitems, hmem⟩ := mem_items_of_get? h
  exact Json.within_array.mp (hdocument.of_get? hitems) item hmem

theorem ordered_of_get? (hdocument : document.Ordered)
    (h : Keyed.get? key (objectMap document) = some item) : item.Ordered :=
  (within_of_get? (hdocument.within.mono (Nat.le_add_right _ 2)) h).ordered

theorem keys_orderedObjects_of_items
    (h : (document.get? objectsKey).bind Json.items? = some items) :
    Keyed.keys (orderedObjects document) = items.filterMap objectKey? := by
  rw [orderedObjects, h]
  dsimp only
  rw [Keyed.keys, List.map_filterMap]
  congr 1
  funext item
  cases objectKey? item <;> rfl

/-- The keys of an accepted document differ. -/
theorem nodup_keys_orderedObjects (h : validate document = .ok ()) :
    (Keyed.keys (orderedObjects document)).Nodup := by
  obtain ⟨-, hobjects⟩ := validate_eq_ok_iff.mp h
  cases hget : document.get? objectsKey with
  | none => simp [orderedObjects, hget, Keyed.keys]
  | some objects =>
    obtain ⟨items, rfl, -, hnodup⟩ := hobjects objects hget
    have hitems : (document.get? objectsKey).bind Json.items? = some items := by rw [hget]; rfl
    rw [keys_orderedObjects_of_items hitems]
    exact hnodup

/-- The objects of an accepted document are found in document order and by key alike. -/
theorem get?_objectMap (h : validate document = .ok ()) :
    Keyed.get? key (objectMap document) = Keyed.get? key (orderedObjects document) :=
  Keyed.get?_ofEntries_of_nodup (nodup_keys_orderedObjects h)

theorem mem_keys_objectMap :
    key ∈ Keyed.keys (objectMap document) ↔ key ∈ Keyed.keys (orderedObjects document) := by
  rw [← Keyed.get?_isSome_iff, objectMap, Keyed.get?_ofEntries, Keyed.get?_isSome_iff,
    Keyed.keys, List.map_reverse, List.mem_reverse, Keyed.keys]

/-! ### Equal documents -/

/-- Equal values have equal members. -/
theorem get?_same {a b : Json} (hsame : (a == b) = true) (key : String) :
    (a.get? key == b.get? key) = true := by
  cases a with
  | object members =>
    cases b with
    | object others => exact Json.get?_same hsame key
    | _ => exact absurd hsame Bool.false_ne_true
  | _ =>
    cases b with
    | object others => exact absurd hsame Bool.false_ne_true
    | _ => rfl

/-- An id that equals one that names a key names it, too. -/
theorem Names.of_same {a b : Json} (hsame : a.same b = true) (h : Names a key) : Names b key := by
  rcases h with ⟨rfl, hne⟩ | ⟨i, rfl, hi⟩
  · cases b with
    | string text =>
      obtain rfl : key = text := beq_iff_eq.mp hsame
      exact Or.inl ⟨rfl, hne⟩
    | _ => exact absurd hsame Bool.false_ne_true
  · cases b with
    | number n =>
      cases n with
      | whole j =>
        obtain rfl : i = j := Subtype.ext (beq_iff_eq.mp hsame)
        exact Or.inr ⟨i, rfl, hi⟩
      | float x => exact absurd hsame Bool.false_ne_true
    | _ => exact absurd hsame Bool.false_ne_true

/-- Equal objects have one key. -/
theorem objectKey?_same {a b : Json} (hsame : (a == b) = true) :
    objectKey? a = objectKey? b := by
  have keyed {a b : Json} (hsame : (a == b) = true) {key : String}
      (h : objectKey? a = some key) : objectKey? b = some key := by
    obtain ⟨id, hid, hnames⟩ := objectKey?_eq_some_iff.mp h
    have hids := Json.some_same_iff_rel.mp (get?_same hsame idKey)
    rw [hid] at hids
    generalize hother : b.get? idKey = other? at hids
    cases hids with
    | some hids => exact objectKey?_eq_some_iff.mpr ⟨_, hother, hnames.of_same hids⟩
  refine Option.ext fun key => ⟨keyed hsame, keyed ?_⟩
  exact Json.same_symm hsame

/-- Equal documents list equal objects under the same keys. -/
theorem orderedObjects_same {a b : Json} (hsame : (a == b) = true) :
    List.Forall₂ (fun x y => x.1 = y.1 ∧ x.2.same y.2 = true) (orderedObjects a)
      (orderedObjects b) := by
  have items {x y : List Json} (h : List.Forall₂ (fun x y => x.same y = true) x y) :
      List.Forall₂ (fun x y => x.1 = y.1 ∧ x.2.same y.2 = true)
        (x.filterMap fun item => (objectKey? item).map fun key => (key, item))
        (y.filterMap fun item => (objectKey? item).map fun key => (key, item)) := by
    refine List.rel_filterMap (fun x y hxy => ?_) h
    rw [objectKey?_same hxy]
    cases objectKey? y with
    | none => exact .none
    | some key => exact .some ⟨rfl, hxy⟩
  have hobjects := Json.some_same_iff_rel.mp (get?_same hsame objectsKey)
  rw [orderedObjects, orderedObjects]
  generalize a.get? objectsKey = x? at hobjects ⊢
  generalize b.get? objectsKey = y? at hobjects ⊢
  cases hobjects with
  | none => exact .nil
  | @some x y hxy =>
    -- Equal values are both arrays, or neither is one.
    cases x <;> cases y <;> try exact absurd hxy Bool.false_ne_true
    case array.array x y => exact items (Json.sameItems_iff.mp hxy)
    all_goals exact .nil

/-- Equal documents have equal objects. -/
theorem get?_objectMap_same {a b : Json} (hsame : (a == b) = true) (key : String) :
    (Keyed.get? key (objectMap a) == Keyed.get? key (objectMap b)) = true := by
  have hitems := List.rel_reverse (orderedObjects_same hsame)
  rw [objectMap, objectMap, Keyed.get?_ofEntries, Keyed.get?_ofEntries]
  refine Json.get?_same ?_ key
  show (Json.object _).same (Json.object _) = true
  rw [Json.same, Json.sameMembers_iff]
  exact hitems

end Document

/-! ### Hashes -/

/-- The digest of bytes, in lowercase hexadecimal. -/
def Sha256.hexOf (bytes : List UInt8) : String :=
  let ws := words (padded bytes)
  let s := absorbAll initial (ws.length / 16) ws
  String.ofList <| [s.a, s.b, s.c, s.d, s.e, s.f, s.g, s.h].flatMap fun word =>
    (bigEndian word.toNat 4).flatMap byteHex

theorem toList_loop (bytes : ByteArray) (i : Nat) (done : List UInt8) :
    ByteArray.toList.loop bytes i done = done.reverse ++ bytes.data.toList.drop i := by
  fun_induction ByteArray.toList.loop bytes i done with
  | case1 i done hlt ih =>
    have hlt : i < bytes.data.toList.length := hlt
    have hget : bytes.get! i = bytes.data.toList[i] := getElem!_pos bytes.data i hlt
    rw [ih, List.reverse_cons, List.append_assoc, List.drop_eq_getElem_cons hlt, hget]
    rfl
  | case2 i done hle =>
    rw [List.drop_eq_nil_of_le (Nat.le_of_not_lt hle), List.append_nil]

theorem Document.toList_contentBytes (document : Json) :
    (contentBytes document).toList = document.chars.flatMap String.utf8EncodeChar := by
  rw [ByteArray.toList, toList_loop, List.reverse_nil, List.nil_append, List.drop_zero,
    contentBytes, Json.canonical]
  simp [List.utf8Encode]

/-- The hash of a document is the digest of the characters of its canonical form. -/
theorem Document.contentHash_eq (document : Json) :
    contentHash document = Sha256.hexOf (document.chars.flatMap String.utf8EncodeChar) := by
  rw [← toList_contentBytes]
  rfl

end PlanHistory
