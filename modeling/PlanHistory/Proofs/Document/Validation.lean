/-
Validation is what indexing relies on.

An item of `objects` has a key if it is an object with a usable `id`: a text that is not empty
names it as it stands, an integer by its decimal text (`Document.HasKey`).  What is accepted is an
object without `objects`, or with an array there of items that all have keys, no two the same
(`Document.WellFormed`).  The functions that index objects leave out items without a key, and
of two under one key the earlier; so they lose nothing exactly of what is accepted.

* **`Document.validate_eq_ok_iff_wellFormed`** — what is accepted;
* **`Document.exists_fault`** — the check finds the first item that has no key, or one that an
  earlier item has;
* **`Document.validation_exact`** — what is accepted, how it is indexed, and what is said of the
  rest.
-/
import PlanHistory.Proofs.Document

namespace PlanHistory

namespace Document

variable {document item : Json} {items before : List Json} {key : String} {defect : Defect}

/-! ### Items with keys -/

/-- Whether an item is an object that a key names, by its `id`. -/
def HasKey (item : Json) (key : String) : Prop :=
  ∃ members id, item = .object members ∧ Keyed.get? idKey members = some id ∧ Names id key

theorem objectKey?_eq_some_iff_hasKey : objectKey? item = some key ↔ HasKey item key := by
  rw [objectKey?_eq_some_iff]
  constructor
  · rintro ⟨id, hid, hnames⟩
    obtain ⟨members, hmembers, hid⟩ := Option.bind_eq_some_iff.mp hid
    cases item with
    | object others =>
      obtain rfl := Option.some.inj hmembers
      exact ⟨others, id, rfl, hid, hnames⟩
    | _ => cases hmembers
  · rintro ⟨members, id, rfl, hid, hnames⟩
    exact ⟨id, hid, hnames⟩

/-- Whether all items have keys, no two of them the same. -/
def Distinct (items : List Json) : Prop :=
  ∃ keys, List.Forall₂ HasKey items keys ∧ keys.Nodup

theorem forall₂_hasKey_iff {keys : List String} :
    List.Forall₂ HasKey items keys
      ↔ (∀ item ∈ items, (objectKey? item).isSome) ∧ items.filterMap objectKey? = keys := by
  induction items generalizing keys with
  | nil =>
    rw [List.forall₂_nil_left_iff, List.filterMap_nil, eq_comm]
    simp
  | cons item items ih =>
    rw [List.forall_mem_cons, List.filterMap_cons, List.forall₂_cons_left_iff]
    cases hkey : objectKey? item with
    | none =>
      refine iff_of_false ?_ (by simp)
      rintro ⟨key, keys, hhas, -⟩
      simp [objectKey?_eq_some_iff_hasKey.mpr hhas] at hkey
    | some key =>
      constructor
      · rintro ⟨other, keys, hhas, hall, rfl⟩
        obtain rfl := Option.some.inj (hkey.symm.trans (objectKey?_eq_some_iff_hasKey.mpr hhas))
        obtain ⟨hsome, rfl⟩ := ih.mp hall
        exact ⟨⟨rfl, hsome⟩, rfl⟩
      · rintro ⟨⟨-, hsome⟩, rfl⟩
        exact ⟨key, _, objectKey?_eq_some_iff_hasKey.mp hkey, ih.mpr ⟨hsome, rfl⟩, rfl⟩

theorem distinct_iff :
    Distinct items
      ↔ (∀ item ∈ items, (objectKey? item).isSome) ∧ (items.filterMap objectKey?).Nodup := by
  simp only [Distinct, forall₂_hasKey_iff]
  constructor
  · rintro ⟨_, ⟨hsome, rfl⟩, hnodup⟩
    exact ⟨hsome, hnodup⟩
  · rintro ⟨hsome, hnodup⟩
    exact ⟨_, ⟨hsome, rfl⟩, hnodup⟩

theorem distinct_nil : Distinct [] :=
  ⟨[], .nil, List.nodup_nil⟩

theorem HasKey.unique {other : String} (h : HasKey item key) (h' : HasKey item other) :
    key = other :=
  Option.some.inj ((objectKey?_eq_some_iff_hasKey.mpr h).symm.trans
    (objectKey?_eq_some_iff_hasKey.mpr h'))

/-- An item is put behind others if it has a key, which is none of theirs. -/
theorem distinct_concat_iff :
    Distinct (before ++ [item])
      ↔ Distinct before ∧ ∃ key, HasKey item key ∧ ∀ other ∈ before, ¬ HasKey other key := by
  rw [distinct_iff, distinct_iff, List.forall_mem_append, List.forall_mem_singleton,
    List.filterMap_append, List.nodup_append]
  simp only [← objectKey?_eq_some_iff_hasKey]
  cases hkey : objectKey? item with
  | none => simp
  | some key =>
    have hnew : (∀ earlier ∈ before.filterMap objectKey?, earlier ≠ key)
        ↔ ∀ other ∈ before, objectKey? other ≠ some key := by
      simp only [List.mem_filterMap]
      constructor
      · rintro hnew other hother hsame
        exact hnew key ⟨other, hother, hsame⟩ rfl
      · rintro hnew _ ⟨other, hother, hsame⟩ rfl
        exact hnew other hother hsame
    have hsingle : [key].Nodup := by simp
    simp only [List.filterMap_cons, hkey, List.filterMap_nil, Option.isSome_some, and_true, hsingle,
      true_and, List.mem_singleton, forall_eq, hnew, Option.some.injEq, exists_eq_left', and_assoc]

/-! ### The first fault -/

/-- What is wrong with an item that stands behind others.  Whether it has a key is asked before
whether another one has it. -/
inductive Fault (before : List Json) (item : Json) : Defect → Prop where
  | notAnObject : (∀ members, item ≠ .object members) →
      Fault before item (.itemNotAnObject before.length)
  | withoutId {members : Keyed Json} : item = .object members → (∀ key, ¬ HasKey item key) →
      Fault before item (.itemWithoutId before.length)
  | repeatedId {other : Json} {key : String} : HasKey item key → other ∈ before →
      HasKey other key → Fault before item (.repeatedId before.length key)

/-- Items with a fault among them do not all have keys of their own. -/
theorem Fault.not_distinct (h : Fault before item defect) : ¬ Distinct (before ++ [item]) := by
  intro hdistinct
  obtain ⟨-, key, hkey, hnew⟩ := distinct_concat_iff.mp hdistinct
  cases h with
  | notAnObject hnot =>
    obtain ⟨members, -, hobject, -⟩ := hkey
    exact hnot members hobject
  | withoutId _ hnone => exact hnone key hkey
  | repeatedId hitem hother hsame =>
    obtain rfl := hkey.unique hitem
    exact hnew _ hother hsame

/-- The check stops at an item without a key, and at one whose key is taken, and else goes on
with the key of the item taken. -/
theorem firstDefect?_cons_cases (index : Nat) (seen : List String) (item : Json)
    (items : List Json) :
    ((∀ members, item ≠ .object members)
        ∧ firstDefect? index seen (item :: items) = some (.itemNotAnObject index))
      ∨ ((∃ members, item = .object members) ∧ (∀ key, ¬ HasKey item key)
        ∧ firstDefect? index seen (item :: items) = some (.itemWithoutId index))
      ∨ ∃ key, HasKey item key
        ∧ (key ∈ seen ∧ firstDefect? index seen (item :: items) = some (.repeatedId index key)
          ∨ key ∉ seen ∧ firstDefect? index seen (item :: items)
            = firstDefect? (index + 1) (key :: seen) items) := by
  simp only [firstDefect?, ← objectKey?_eq_some_iff_hasKey]
  cases item with
  | object members =>
    cases hkey : objectKey? (.object members) with
    | none => exact Or.inr (Or.inl ⟨⟨members, rfl⟩, fun key => by simp, rfl⟩)
    | some key =>
      refine Or.inr (Or.inr ⟨key, rfl, ?_⟩)
      by_cases hmem : key ∈ seen
      · exact Or.inl ⟨hmem, if_pos (List.contains_iff_mem.mpr hmem)⟩
      · exact Or.inr ⟨hmem, if_neg (mt List.contains_iff_mem.mp hmem)⟩
  | _ => exact Or.inl ⟨fun members => by simp, rfl⟩

/-- The check finds the first item that has no key, or one that an earlier item has. -/
theorem exists_fault {seen : List String} (hbefore : Distinct before)
    (hseen : ∀ key, key ∈ seen ↔ ∃ other ∈ before, HasKey other key)
    (h : firstDefect? before.length seen items = some defect) :
    ∃ more item after, items = more ++ item :: after ∧ Distinct (before ++ more)
      ∧ Fault (before ++ more) item defect := by
  induction items generalizing before seen with
  | nil => cases h
  | cons item items ih =>
    have here (hfault : Fault before item defect) :
        ∃ more other after, item :: items = more ++ other :: after ∧ Distinct (before ++ more)
          ∧ Fault (before ++ more) other defect :=
      ⟨[], item, items, rfl, by rwa [List.append_nil], by rwa [List.append_nil]⟩
    rcases firstDefect?_cons_cases before.length seen item items with
      ⟨hnot, hstop⟩ | ⟨⟨members, hobject⟩, hnone, hstop⟩ | ⟨key, hkey, ⟨hmem, hstop⟩ | ⟨hnew, hgo⟩⟩
    · obtain rfl := Option.some.inj (hstop.symm.trans h)
      exact here (.notAnObject hnot)
    · obtain rfl := Option.some.inj (hstop.symm.trans h)
      exact here (.withoutId hobject hnone)
    · obtain rfl := Option.some.inj (hstop.symm.trans h)
      obtain ⟨other, hother, hsame⟩ := (hseen key).mp hmem
      exact here (.repeatedId hkey hother hsame)
    · -- The item is one more of those before, and its key is taken.
      have hmore : Distinct (before ++ [item]) := distinct_concat_iff.mpr
        ⟨hbefore, key, hkey, fun other hother hsame =>
          hnew ((hseen key).mpr ⟨other, hother, hsame⟩)⟩
      have hseen' (other : String) :
          other ∈ key :: seen ↔ ∃ earlier ∈ before ++ [item], HasKey earlier other := by
        rw [List.mem_cons, hseen]
        simp only [List.mem_append, List.mem_singleton, or_and_right, exists_or, exists_eq_left]
        rw [or_comm]
        refine or_congr_right ⟨fun hsame => hsame ▸ hkey, fun hother => hother.unique hkey⟩
      have hlength : before.length + 1 = (before ++ [item]).length := by simp
      rw [hgo, hlength] at h
      obtain ⟨more, other, after, rfl, hdistinct, hfault⟩ := ih hmore hseen' h
      rw [List.append_assoc, List.singleton_append] at hdistinct hfault
      exact ⟨item :: more, other, after, rfl, hdistinct, hfault⟩

/-! ### Accepted documents -/

/-- Whether a document is an object without `objects`, or with an array there of items that all
have keys, no two the same. -/
def WellFormed (document : Json) : Prop :=
  ∃ members, document = .object members
    ∧ (Keyed.get? objectsKey members = none
      ∨ ∃ items, Keyed.get? objectsKey members = some (.array items) ∧ Distinct items)

theorem validate_eq_ok_iff_wellFormed : validate document = .ok () ↔ WellFormed document := by
  rw [validate_eq_ok_iff]
  constructor
  · rintro ⟨⟨members, rfl⟩, hobjects⟩
    refine ⟨members, rfl, ?_⟩
    cases hget : Keyed.get? objectsKey members with
    | none => exact Or.inl rfl
    | some objects =>
      obtain ⟨items, rfl, hdistinct⟩ := hobjects objects hget
      exact Or.inr ⟨items, rfl, distinct_iff.mpr hdistinct⟩
  · rintro ⟨members, rfl, hobjects⟩
    refine ⟨⟨members, rfl⟩, fun objects hget => ?_⟩
    have hget : Keyed.get? objectsKey members = some objects := hget
    rcases hobjects with hnone | ⟨items, hitems, hdistinct⟩
    · rw [hnone] at hget
      cases hget
    · exact ⟨items, Option.some.inj (hget.symm.trans hitems), distinct_iff.mp hdistinct⟩

/-- The items of the array under `objects`, if there is one. -/
def objectItems (document : Json) : List Json :=
  ((document.get? objectsKey).bind Json.items?).getD []

/-- Indexing is lossless if every item is listed in order under a key of its own, and found
under it. -/
structure Lossless (document : Json) : Prop where
  listed : (orderedObjects document).map Prod.snd = objectItems document
  keyed : ∀ entry ∈ orderedObjects document, HasKey entry.2 entry.1
  mapped : (objectMap document).Perm (orderedObjects document)
  ascending : Keyed.Ascending (objectMap document)

/-- Nothing is lost of an accepted document. -/
theorem lossless_of_validate (h : validate document = .ok ()) : Lossless document where
  listed := by
    obtain ⟨-, hobjects⟩ := validate_eq_ok_iff.mp h
    rw [orderedObjects, objectItems]
    cases hget : document.get? objectsKey with
    | none => rfl
    | some objects =>
      obtain ⟨items, rfl, hsome, -⟩ := hobjects objects hget
      have hlisted : (items.filterMap fun item => (objectKey? item).map fun key => (key, item)).map
          Prod.snd = items.filterMap some := by
        rw [List.map_filterMap]
        refine List.filterMap_congr fun item hmem => ?_
        obtain ⟨key, hkey⟩ := Option.isSome_iff_exists.mp (hsome item hmem)
        rw [hkey]
        rfl
      exact hlisted.trans List.filterMap_some
  keyed entry hmem := objectKey?_eq_some_iff_hasKey.mp (objectKey?_of_mem_orderedObjects hmem)
  mapped := Keyed.ofEntries_perm (nodup_keys_orderedObjects h)
  ascending := Keyed.ascending_ofEntries _

/-- Only of an accepted document nothing is lost, if it has an array of items. -/
theorem Lossless.validate (h : Lossless document)
    (hitems : document.get? objectsKey = some (.array items)) : validate document = .ok () := by
  have hkeys : List.Forall₂ HasKey (objectItems document)
      (Keyed.keys (orderedObjects document)) := by
    rw [← h.listed, Keyed.keys, List.forall₂_map_left_iff, List.forall₂_map_right_iff]
    exact List.forall₂_same.mpr h.keyed
  have hnodup : (Keyed.keys (orderedObjects document)).Nodup :=
    (h.mapped.map Prod.fst).nodup_iff.mp h.ascending.nodup_keys
  have hlisted : objectItems document = items := by
    rw [objectItems, hitems]
    rfl
  obtain ⟨members, hobject, hget⟩ := Option.bind_eq_some_iff.mp hitems
  cases document with
  | object others =>
    obtain rfl := Option.some.inj hobject
    rw [hlisted] at hkeys
    exact validate_eq_ok_iff_wellFormed.mpr ⟨others, rfl, Or.inr ⟨items, hget, _, hkeys, hnodup⟩⟩
  | _ => cases hobject

/-! ### Rejected documents -/

/-- The field that a fault names is the item, or the `id` of it. -/
theorem Fault.field (h : Fault before item defect) :
    defect.field = s!"{objectsKey}[{before.length}]"
      ∨ defect.field = s!"{objectsKey}[{before.length}].id" := by
  cases h with
  | notAnObject => exact Or.inl rfl
  | withoutId => exact Or.inr rfl
  | repeatedId => exact Or.inr rfl

theorem firstDefect?_of_validate
    (hitems : document.get? objectsKey = some (.array items))
    (h : validate document = .error defect) : firstDefect? 0 [] items = some defect := by
  obtain ⟨members, hmembers, hget⟩ := Option.bind_eq_some_iff.mp hitems
  have hdefect : defect? document = firstDefect? 0 [] items := by
    rw [defect?, hmembers]
    dsimp only
    rw [hget]
    rfl
  rw [validate, hdefect] at h
  split at h
  next found hfound => rw [hfound, Except.error.inj h]
  next => cases h

/-- **Validation is what indexing relies on.**  A document is accepted exactly if it is an object
without `objects`, or with an array there of items that all have keys, no two the same.  Then
every item is listed, in order and under its key, and the map holds exactly these entries; of an
array that is rejected something is lost.  Of such an array the first item is named that has no
key, or one of an earlier item. -/
theorem validation_exact (document : Json) :
    (validate document = .ok () ↔ WellFormed document)
      ∧ (validate document = .ok () → Lossless document)
      ∧ ∀ items, document.get? objectsKey = some (.array items) →
        (Lossless document → validate document = .ok ())
          ∧ ∀ defect, validate document = .error defect →
            ∃ before item after, items = before ++ item :: after ∧ Distinct before
              ∧ ¬ Distinct (before ++ [item]) ∧ Fault before item defect
              ∧ (defect.field = s!"{objectsKey}[{before.length}]"
                ∨ defect.field = s!"{objectsKey}[{before.length}].id") := by
  refine ⟨validate_eq_ok_iff_wellFormed, lossless_of_validate, fun items hitems =>
    ⟨fun h => h.validate hitems, fun defect h => ?_⟩⟩
  have hfirst : firstDefect? ([] : List Json).length [] items = some defect :=
    firstDefect?_of_validate hitems h
  obtain ⟨before, item, after, hsplit, hbefore, hfault⟩ :=
    exists_fault distinct_nil (by simp) hfirst
  exact ⟨before, item, after, hsplit, hbefore, hfault.not_distinct, hfault, hfault.field⟩

/-- Two objects, one named by an integer and one by its numeral. -/
def twins : Json :=
  .object [(objectsKey, .array
    [.object [(idKey, .number (.whole ⟨77, by decide⟩))], .object [(idKey, .string "77")]])]

/-- An integer and its numeral are the same key: the second object is named, and one of the two
would be lost. -/
theorem validation_exact_twins :
    validate twins = .error (.repeatedId 1 "77") ∧ ¬ WellFormed twins ∧ ¬ Lossless twins := by
  have hrejected : validate twins = .error (.repeatedId 1 "77") := rfl
  obtain ⟨haccepts, -, harray⟩ := validation_exact twins
  have hlossless := (harray _ rfl).1
  have hnot : validate twins ≠ .ok () := by simp [hrejected]
  exact ⟨hrejected, mt haccepts.mpr hnot, mt hlossless hnot⟩

end Document

end PlanHistory
