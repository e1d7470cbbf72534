/-
Looking up keys in entries.

An entry list is known by what `Keyed.get?` finds in it:

* **`Keyed.get?_insert`**, **`Keyed.get?_erase`** — what an operation does to each key,
  on entries in any order;
* **`Keyed.get?_ofEntries`** — of a repeated key the last value stays;
* **`Keyed.forall₂_of_ascending`**, **`Keyed.ext_of_ascending`** — ascending entries are
  related, or equal, once every key finds related values, or the same, in both;
* **`mem_ascending`**, **`pairwise_ascending`** — `ascending` lists each key once, in
  order, so that it goes by which keys there are (**`ascending_congr`**).
-/
import Mathlib.Data.List.Forall2
import Mathlib.Data.List.Nodup
import Mathlib.Data.List.Pairwise
import Mathlib.Data.String.Basic
import Mathlib.Tactic.Common
import PlanHistory.Keyed

namespace PlanHistory

namespace Keyed

variable {α β : Type} {key other : String} {value : α} {entries : Keyed α}

/-- The keys of entries ascend, so none is repeated. -/
def Ascending (entries : Keyed α) : Prop :=
  entries.Pairwise fun a b => a.1 < b.1

@[simp] theorem get?_nil : get? key ([] : Keyed α) = none := rfl

theorem get?_cons (entry : String × α) :
    get? key (entry :: entries) = if key = entry.1 then some entry.2 else get? key entries := by
  rw [get?, List.lookup_cons]
  by_cases h : key = entry.1
  · simp [h]
  · rw [beq_false_of_ne h, if_neg h, get?]

@[simp] theorem keys_cons (entry : String × α) :
    keys (entry :: entries) = entry.1 :: keys entries := rfl

theorem mem_of_get? (h : get? key entries = some value) : (key, value) ∈ entries := by
  induction entries with
  | nil => simp at h
  | cons entry entries ih =>
    rw [get?_cons] at h
    split at h
    next same =>
      obtain rfl := Option.some_inj.mp h
      rw [same]
      exact List.mem_cons_self
    next => exact List.mem_cons_of_mem _ (ih h)

theorem get?_isSome_iff : (get? key entries).isSome ↔ key ∈ keys entries := by
  induction entries with
  | nil => simp [keys]
  | cons entry entries ih =>
    rw [get?_cons]
    by_cases h : key = entry.1
    · simp [keys, h]
    · simpa [keys, h] using ih

theorem get?_eq_none_iff : get? key entries = none ↔ key ∉ keys entries := by
  rw [← get?_isSome_iff, Option.not_isSome_iff_eq_none]

theorem isSome_or_iff {more : Keyed α} :
    ((get? key entries).or (get? key more)).isSome ↔ key ∈ keys entries ∨ key ∈ keys more := by
  rw [Option.isSome_or, Bool.or_eq_true, get?_isSome_iff, get?_isSome_iff]

theorem get?_append (entries more : Keyed α) :
    get? key (entries ++ more) = (get? key entries).or (get? key more) :=
  List.lookup_append

theorem get?_insert :
    get? key (insert other value entries)
      = if key = other then some value else get? key entries := by
  induction entries with
  | nil => rw [insert, get?_cons]
  | cons entry entries ih =>
    rw [insert]
    split
    · rw [get?_cons]
    · split
      next same =>
        rw [get?_cons, get?_cons, same]
        split <;> rfl
      next ne =>
        rw [get?_cons, get?_cons, ih]
        by_cases h : key = entry.1
        · rw [if_pos h, if_pos h, if_neg fun hk => ne (hk.symm.trans h)]
        · rw [if_neg h, if_neg h]

@[simp] theorem get?_insert_self : get? key (insert key value entries) = some value := by
  rw [get?_insert, if_pos rfl]

theorem get?_insert_of_ne (h : key ≠ other) :
    get? key (insert other value entries) = get? key entries := by
  rw [get?_insert, if_neg h]

theorem get?_insert? (value? : Option α) :
    get? key (insert? other value? entries)
      = if key = other then value?.or (get? key entries) else get? key entries := by
  cases value? with
  | none => rw [insert?, Option.none_or, ite_self]
  | some value => rw [insert?, get?_insert, Option.some_or]

theorem get?_filter (keep : String → Bool) :
    get? key (entries.filter fun entry => keep entry.1)
      = if keep key then get? key entries else none := by
  induction entries with
  | nil => simp
  | cons entry entries ih =>
    rw [List.filter_cons, get?_cons]
    by_cases h : key = entry.1
    · subst h
      by_cases hk : keep entry.1
      · rw [if_pos hk, if_pos hk, get?_cons, if_pos rfl, if_pos rfl]
      · rw [if_neg hk, if_neg hk, ih, if_neg hk]
    · rw [if_neg h]
      split
      · rw [get?_cons, if_neg h, ih]
      · exact ih

theorem get?_erase :
    get? key (erase other entries) = if key = other then none else get? key entries := by
  rw [erase, get?_filter fun k => k != other]
  by_cases h : key = other <;> simp [h]

/-! ### Folds of insertions -/

theorem get?_foldl_insert (entries : List (String × α)) (kept : Keyed α) :
    get? key (entries.foldl (fun kept entry => insert entry.1 entry.2 kept) kept)
      = (get? key entries.reverse).or (get? key kept) := by
  induction entries generalizing kept with
  | nil => rfl
  | cons entry entries ih =>
    rw [List.foldl_cons, ih, get?_insert, List.reverse_cons, get?_append, get?_cons, get?_nil,
      Option.or_assoc]
    split <;> rfl

theorem get?_ofEntries (entries : List (String × α)) :
    get? key (ofEntries entries) = get? key entries.reverse := by
  rw [ofEntries, get?_foldl_insert, get?_nil, Option.or_none]

/-- Inserting what a function gives for each of some keys leaves that under these keys
and nothing under others. -/
theorem get?_foldl_insert? (value? : String → Option α) (names : List String) (kept : Keyed α) :
    get? key (names.foldl (fun merged name => insert? name (value? name) merged) kept)
      = if key ∈ names then (value? key).or (get? key kept) else get? key kept := by
  induction names generalizing kept with
  | nil => simp
  | cons name names ih =>
    rw [List.foldl_cons, ih, get?_insert?]
    by_cases h : key = name
    · subst h
      by_cases hm : key ∈ names <;> simp [hm, ← Option.or_assoc]
    · simp [h]

theorem get?_reverse_of_nodup (nodup : (keys entries).Nodup) :
    get? key entries.reverse = get? key entries := by
  induction entries with
  | nil => rfl
  | cons entry entries ih =>
    obtain ⟨fresh, nodup⟩ := List.nodup_cons.mp nodup
    rw [List.reverse_cons, get?_append, ih nodup, get?_cons, get?_cons, get?_nil]
    by_cases h : key = entry.1
    · rw [h, get?_eq_none_iff.mpr fresh, Option.none_or]
    · rw [if_neg h, if_neg h, Option.or_none]

/-- Entries without a repeated key keep their values under `ofEntries`. -/
theorem get?_ofEntries_of_nodup (nodup : (keys entries).Nodup) :
    get? key (ofEntries entries) = get? key entries := by
  rw [get?_ofEntries, get?_reverse_of_nodup nodup]

theorem get?_of_mem (nodup : (keys entries).Nodup) (h : (key, value) ∈ entries) :
    get? key entries = some value := by
  induction entries with
  | nil => simp at h
  | cons entry entries ih =>
    obtain ⟨fresh, nodup⟩ := List.nodup_cons.mp nodup
    rw [get?_cons]
    rcases List.mem_cons.mp h with rfl | h
    · exact if_pos rfl
    · rw [if_neg ?_, ih nodup h]
      intro same
      exact fresh (List.mem_map.mpr ⟨(key, value), h, same⟩)

/-- The entries that a function gives for some names, names without a value left out. -/
def ofNames (value? : String → Option α) (names : List String) : Keyed α :=
  names.filterMap fun name => (value? name).map fun value => (name, value)

theorem get?_ofNames (value? : String → Option α) (names : List String) :
    get? key (ofNames value? names) = if key ∈ names then value? key else none := by
  induction names with
  | nil => simp [ofNames]
  | cons name names ih =>
    rw [ofNames, List.filterMap_cons, ← ofNames]
    cases hvalue : value? name with
    | none =>
      rw [Option.map_none, ih]
      by_cases h : key = name
      · subst h; simp [hvalue]
      · simp [h]
    | some value =>
      rw [Option.map_some, get?_cons, ih]
      by_cases h : key = name
      · subst h; simp [hvalue]
      · simp [h]

theorem reverse_ofNames (value? : String → Option α) (names : List String) :
    (ofNames value? names).reverse = ofNames value? names.reverse := by
  rw [ofNames, ofNames, List.filterMap_reverse]

theorem keys_ofNames (value? : String → Option α) (names : List String) :
    keys (ofNames value? names) = names.filter fun name => (value? name).isSome := by
  induction names with
  | nil => rfl
  | cons name names ih =>
    rw [ofNames, List.filterMap_cons, ← ofNames, List.filter_cons]
    cases value? name with
    | none => exact ih
    | some value => rw [Option.map_some, keys_cons, ih]; rfl

theorem ofNames_filter (value? : String → Option α) (names : List String) :
    ofNames value? (names.filter fun name => (value? name).isSome) = ofNames value? names := by
  rw [ofNames, List.filterMap_filter, ofNames]
  refine List.filterMap_congr fun name _ => ?_
  cases value? name <;> rfl

/-- Entries are those that they give for their keys. -/
theorem ofNames_keys (nodup : (keys entries).Nodup) :
    ofNames (fun key => get? key entries) (keys entries) = entries := by
  rw [ofNames, keys, List.filterMap_map]
  refine (List.filterMap_congr fun entry hmem => ?_).trans List.filterMap_some
  rw [Function.comp_apply, get?_of_mem nodup hmem]
  rfl

/-! ### Ascending entries -/

@[simp] theorem ascending_nil : Ascending ([] : Keyed α) := List.Pairwise.nil

theorem Ascending.tail {entry : String × α} (h : Ascending (entry :: entries)) :
    Ascending entries :=
  (List.pairwise_cons.mp h).2

theorem Ascending.nodup_keys (h : Ascending entries) : (keys entries).Nodup :=
  List.pairwise_map.mpr (h.imp fun hlt => ne_of_lt hlt)

theorem mem_of_mem_insert {entry : String × α} (h : entry ∈ insert key value entries) :
    entry = (key, value) ∨ entry ∈ entries := by
  induction entries with
  | nil => exact Or.inl (List.mem_singleton.mp h)
  | cons first entries ih =>
    rw [insert] at h
    split at h
    · exact List.mem_cons.mp h
    · split at h
      · exact (List.mem_cons.mp h).imp_right (List.mem_cons_of_mem _)
      · rcases List.mem_cons.mp h with rfl | h
        · exact Or.inr List.mem_cons_self
        · exact (ih h).imp_right (List.mem_cons_of_mem _)

theorem mem_keys_insert :
    other ∈ keys (insert key value entries) ↔ other = key ∨ other ∈ keys entries := by
  rw [← get?_isSome_iff, get?_insert, ← get?_isSome_iff]
  by_cases h : other = key <;> simp [h]

theorem Ascending.insert (h : Ascending entries) : Ascending (insert key value entries) := by
  induction entries with
  | nil => exact List.pairwise_singleton _ _
  | cons entry entries ih =>
    obtain ⟨first, rest⟩ := List.pairwise_cons.mp h
    rw [Keyed.insert]
    split
    next hlt =>
      refine List.pairwise_cons.mpr ⟨fun other hmem => ?_, h⟩
      rcases List.mem_cons.mp hmem with rfl | hmem
      · exact hlt
      · exact hlt.trans (first other hmem)
    · split
      next same => exact List.pairwise_cons.mpr ⟨fun other hmem => same ▸ first other hmem, rest⟩
      next hge hne =>
        refine List.pairwise_cons.mpr ⟨fun other hmem => ?_, ih rest⟩
        have hkey : other.1 ∈ keys (Keyed.insert key value entries) :=
          List.mem_map_of_mem (f := Prod.fst) hmem
        rcases mem_keys_insert.mp hkey with same | hmem
        · rw [same]
          exact lt_of_le_of_ne (not_lt.mp hge) fun h => hne h.symm
        · obtain ⟨found, hfound, same⟩ := List.mem_map.mp hmem
          rw [← same]
          exact first found hfound

theorem Ascending.insert? (h : Ascending entries) (value? : Option α) :
    Ascending (insert? key value? entries) := by
  cases value? with
  | none => exact h
  | some value => exact h.insert

theorem Ascending.erase (h : Ascending entries) : Ascending (erase key entries) :=
  List.Pairwise.filter _ h

theorem Ascending.foldl_insert (more : List (String × α)) (h : Ascending entries) :
    Ascending (more.foldl (fun kept entry => Keyed.insert entry.1 entry.2 kept) entries) := by
  induction more generalizing entries with
  | nil => exact h
  | cons entry more ih => exact ih h.insert

theorem ascending_ofEntries (entries : List (String × α)) : Ascending (ofEntries entries) :=
  ascending_nil.foldl_insert entries

/-- Entries without a repeated key are all kept by `ofEntries`. -/
theorem ofEntries_perm (nodup : (keys entries).Nodup) : (ofEntries entries).Perm entries := by
  have hkept := (ascending_ofEntries entries).nodup_keys
  rw [List.perm_ext_iff_of_nodup (List.Nodup.of_map _ hkept) (List.Nodup.of_map _ nodup)]
  rintro ⟨key, value⟩
  constructor
  · intro hmem
    have hget := get?_of_mem hkept hmem
    rw [get?_ofEntries_of_nodup nodup] at hget
    exact mem_of_get? hget
  · intro hmem
    refine mem_of_get? ?_
    rw [get?_ofEntries_of_nodup nodup]
    exact get?_of_mem nodup hmem

theorem Ascending.foldl_insert? (value? : String → Option α) (names : List String)
    (h : Ascending entries) :
    Ascending
      (names.foldl (fun merged name => Keyed.insert? name (value? name) merged) entries) := by
  induction names generalizing entries with
  | nil => exact h
  | cons name names ih => exact ih (h.insert? _)

theorem get?_eq_none_of_lt {entry : String × α} (h : Ascending (entry :: entries))
    (hlt : key < entry.1) : get? key (entry :: entries) = none := by
  rw [get?_eq_none_iff]
  intro hmem
  rcases List.mem_cons.mp hmem with rfl | hmem
  · exact lt_irrefl _ hlt
  · obtain ⟨found, hfound, rfl⟩ := List.mem_map.mp hmem
    exact lt_irrefl _ (hlt.trans ((List.pairwise_cons.mp h).1 found hfound))

/-- Ascending entries whose keys find related values are related one by one. -/
theorem forall₂_of_ascending {R : α → β → Prop} {a : Keyed α} {b : Keyed β} (ha : Ascending a)
    (hb : Ascending b) (h : ∀ key, Option.Rel R (get? key a) (get? key b)) :
    List.Forall₂ (fun x y => x.1 = y.1 ∧ R x.2 y.2) a b := by
  induction a generalizing b with
  | nil =>
    cases b with
    | nil => exact .nil
    | cons y b =>
      have hy := h y.1
      rw [get?_nil, get?_cons, if_pos rfl] at hy
      cases hy
  | cons x a ih =>
    cases b with
    | nil =>
      have hx := h x.1
      rw [get?_nil, get?_cons, if_pos rfl] at hx
      cases hx
    | cons y b =>
      -- The first keys agree: the smaller of two different ones is found on one side only.
      have same : x.1 = y.1 := by
        rcases lt_trichotomy x.1 y.1 with hlt | heq | hlt
        · have hx := h x.1
          rw [get?_eq_none_of_lt hb hlt, get?_cons, if_pos rfl] at hx
          cases hx
        · exact heq
        · have hy := h y.1
          rw [get?_eq_none_of_lt ha hlt, get?_cons, if_pos rfl] at hy
          cases hy
      have value : R x.2 y.2 := by
        have hx := h x.1
        rw [get?_cons, if_pos rfl, get?_cons, if_pos same] at hx
        cases hx with
        | some hx => exact hx
      refine .cons ⟨same, value⟩ (ih ha.tail hb.tail fun key => ?_)
      by_cases hk : key = x.1
      · have fresh := (List.nodup_cons.mp ha.nodup_keys).1
        have fresh' := (List.nodup_cons.mp hb.nodup_keys).1
        rw [hk, get?_eq_none_iff.mpr fresh, same, get?_eq_none_iff.mpr fresh']
        exact .none
      · have hkey := h key
        rwa [get?_cons, if_neg hk, get?_cons, if_neg (same ▸ hk)] at hkey

/-- Ascending entries are known by what each key finds in them. -/
theorem ext_of_ascending {a b : Keyed α} (ha : Ascending a) (hb : Ascending b)
    (h : ∀ key, get? key a = get? key b) : a = b := by
  have hrel (key : String) : Option.Rel Eq (get? key a) (get? key b) := by
    rw [h key]
    cases get? key b with
    | none => exact .none
    | some value => exact .some rfl
  exact List.forall₂_eq_eq_eq ▸
    (forall₂_of_ascending ha hb hrel).imp fun _ _ hsame => Prod.ext hsame.1 hsame.2

/-- Entries that ascend stay as they are under `ofEntries`. -/
theorem ofEntries_of_ascending (h : Ascending entries) : ofEntries entries = entries :=
  ext_of_ascending (ascending_ofEntries entries) h fun _ =>
    get?_ofEntries_of_nodup h.nodup_keys

end Keyed

/-! ### Ascending keys -/

theorem mem_insertKey {key other : String} {names : List String} :
    other ∈ insertKey key names ↔ other = key ∨ other ∈ names := by
  induction names with
  | nil => simp [insertKey]
  | cons first names ih =>
    rw [insertKey]
    split
    · exact List.mem_cons
    · split
      next same => simp [same]
      next => rw [List.mem_cons, ih, List.mem_cons, or_left_comm]

@[simp] theorem mem_ascending {key : String} {names : List String} :
    key ∈ ascending names ↔ key ∈ names := by
  induction names with
  | nil => simp [ascending]
  | cons name names ih =>
    rw [ascending, List.foldr_cons, ← ascending, mem_insertKey, ih, List.mem_cons]

theorem pairwise_insertKey {key : String} {names : List String} (h : names.Pairwise (· < ·)) :
    (insertKey key names).Pairwise (· < ·) := by
  induction names with
  | nil => exact List.pairwise_singleton _ _
  | cons first names ih =>
    obtain ⟨least, rest⟩ := List.pairwise_cons.mp h
    rw [insertKey]
    split
    next hlt =>
      refine List.pairwise_cons.mpr ⟨fun other hmem => ?_, h⟩
      rcases List.mem_cons.mp hmem with rfl | hmem
      · exact hlt
      · exact hlt.trans (least other hmem)
    · split
      · exact h
      next hge hne =>
        refine List.pairwise_cons.mpr ⟨fun other hmem => ?_, ih rest⟩
        rcases mem_insertKey.mp hmem with rfl | hmem
        · exact lt_of_le_of_ne (not_lt.mp hge) fun h => hne h.symm
        · exact least other hmem

/-- `ascending` lists each key once, in order. -/
theorem pairwise_ascending (names : List String) : (ascending names).Pairwise (· < ·) := by
  induction names with
  | nil => exact List.Pairwise.nil
  | cons name names ih => exact pairwise_insertKey ih

/-- Which keys there are is all that `ascending` goes by. -/
theorem ascending_congr {names other : List String} (h : ∀ key, key ∈ names ↔ key ∈ other) :
    ascending names = ascending other := by
  have hnames := pairwise_ascending names
  have hother := pairwise_ascending other
  have perm : (ascending names).Perm (ascending other) := by
    refine (List.perm_ext_iff_of_nodup (hnames.imp fun h => ne_of_lt h)
      (hother.imp fun h => ne_of_lt h)).mpr fun key => ?_
    rw [mem_ascending, mem_ascending, h key]
  exact perm.eq_of_pairwise (fun a b _ _ hab hba => absurd (hab.trans hba) (lt_irrefl a))
    hnames hother

end PlanHistory
