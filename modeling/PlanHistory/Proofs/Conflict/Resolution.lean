/-
What the labels of a merge give.

* **`Ruling.find?_of_filter_eq`** — the ruling on a slot decides it if it is the only one;
* **`Resolution.objectKey?_of_object?`** — a resolution gives an object under its own key,
  whatever its label;
* **`Resolution.within_object?`**, **`Resolution.within_property?`** — no value nests
  deeper than what the two sides have and what the label spells.
-/
import PlanHistory.Conflict.Merge
import PlanHistory.Proofs.Conflict.Detection
import PlanHistory.Proofs.Json.RoundTrip

namespace PlanHistory

namespace Ruling

variable {rulings : List Ruling} {ruling : Ruling} {object : String} {property? : Option String}
  {resolution : Resolution}

/-- Whether a ruling is on an object, or on a property of it. -/
def isAt (object : String) (property? : Option String) (ruling : Ruling) : Bool :=
  ruling.object == object && ruling.property? == property?

theorem isAt_iff :
    ruling.isAt object property? ↔ ruling.object = object ∧ ruling.property? = property? := by
  rw [isAt, Bool.and_eq_true, beq_iff_eq, beq_iff_eq]

theorem find?_eq_some (h : find? rulings object property? = some (ruling, resolution)) :
    ruling ∈ rulings ∧ ruling.object = object ∧ ruling.property? = property?
      ∧ ruling.resolution? = some resolution := by
  obtain ⟨other, hmem, h⟩ := List.exists_of_findSome?_eq_some h
  split at h
  next hat =>
    obtain ⟨found, hfound, h⟩ := Option.map_eq_some_iff.mp h
    obtain ⟨rfl, rfl⟩ := Prod.mk.inj h
    rw [Bool.and_eq_true, beq_iff_eq, beq_iff_eq] at hat
    exact ⟨List.mem_reverse.mp hmem, hat.1, hat.2, hfound⟩
  next => simp at h

/-- A slot with a settled ruling on it is decided. -/
theorem isSome_find?_of_mem (hmem : ruling ∈ rulings) (hlabel : ruling.resolution?.isSome) :
    (find? rulings ruling.object ruling.property?).isSome := by
  rw [find?, List.findSome?_isSome_iff]
  refine ⟨ruling, List.mem_reverse.mpr hmem, ?_⟩
  rw [beq_self_eq_true, beq_self_eq_true, Bool.and_self, if_pos rfl, Option.isSome_map]
  exact hlabel

theorem find?_of_filter_eq_nil (h : rulings.filter (isAt object property?) = []) :
    find? rulings object property? = none := by
  cases hfind : find? rulings object property? with
  | none => rfl
  | some found =>
    obtain ⟨hmem, hobject, hproperty, -⟩ := find?_eq_some hfind
    have : found.1 ∈ rulings.filter (isAt object property?) :=
      List.mem_filter.mpr ⟨hmem, isAt_iff.mpr ⟨hobject, hproperty⟩⟩
    rw [h] at this
    exact absurd this List.not_mem_nil

/-- A ruling that is the only one on its slot decides it. -/
theorem find?_of_filter_eq (h : rulings.filter (isAt object property?) = [ruling])
    (hlabel : ruling.resolution? = some resolution) :
    find? rulings object property? = some (ruling, resolution) := by
  have hat : ruling ∈ rulings.filter (isAt object property?) := by
    rw [h]
    exact List.mem_singleton_self _
  obtain ⟨hmem, hat⟩ := List.mem_filter.mp hat
  obtain ⟨hobject, hproperty⟩ := isAt_iff.mp hat
  have hsome := isSome_find?_of_mem hmem (by rw [hlabel]; rfl)
  rw [hobject, hproperty] at hsome
  obtain ⟨found, hfind⟩ := Option.isSome_iff_exists.mp hsome
  obtain ⟨hfound, hobject, hproperty, hresolution⟩ := find?_eq_some hfind
  have hsame : found.1 ∈ rulings.filter (isAt object property?) :=
    List.mem_filter.mpr ⟨hfound, isAt_iff.mpr ⟨hobject, hproperty⟩⟩
  rw [h, List.mem_singleton] at hsame
  rw [hsame, hlabel] at hresolution
  rw [hfind]
  exact congrArg some (Prod.ext hsame (Option.some_inj.mp hresolution).symm)

end Ruling

namespace Resolution

open Document (objectKey? idKey)

variable {key : String} {source? target? : Option Json} {item : Json} {resolution : Resolution}
  {levels : Nat}

/-! ### Overlays -/

theorem get?_overlayMembers {lower upper : Keyed Json} (ascending : Keyed.Ascending upper) :
    Keyed.get? key (overlayMembers lower upper)
      = (Keyed.get? key upper).or (Keyed.get? key lower) := by
  rw [overlayMembers, Keyed.get?_foldl_insert, Keyed.get?_reverse_of_nodup ascending.nodup_keys]

theorem objectKey?_of_overlaid? (hsource : ∀ item ∈ source?, objectKey? item = some key)
    (htarget : ∀ item ∈ target?, objectKey? item = some key)
    (hordered : ∀ item ∈ target?, item.Ordered)
    (h : overlaid? source? target? = some item) : objectKey? item = some key := by
  rw [overlaid?.eq_def] at h
  split at h
  next source target =>
    have hkey := htarget _ rfl
    obtain ⟨ascending, -⟩ := Json.ordered_object.mp (hordered _ rfl)
    obtain ⟨id, hid, -⟩ := Document.objectKey?_eq_some_iff.mp hkey
    have hid : Keyed.get? idKey target = some id := hid
    rw [← Option.some_inj.mp h, ← hkey]
    refine Document.objectKey?_object ?_
    rw [get?_overlayMembers ascending, hid, Option.some_or]
  next source _ => exact Option.some_inj.mp h ▸ hsource _ rfl
  next => exact htarget item h

theorem within_overlaid? (hsource : ∀ item ∈ source?, item.Within levels)
    (htarget : ∀ item ∈ target?, item.Within levels)
    (h : overlaid? source? target? = some item) : item.Within levels := by
  rw [overlaid?.eq_def] at h
  split at h
  next source target =>
    have hs := hsource _ rfl
    have ht := htarget _ rfl
    obtain ⟨fewer, rfl⟩ : ∃ fewer, levels = fewer + 1 := by
      have hpos := ht.nesting
      rw [Json.nesting] at hpos
      exact ⟨levels - 1, by omega⟩
    rw [← Option.some_inj.mp h]
    refine Json.within_object (hs.ascending.foldl_insert target) fun key value hget => ?_
    rw [get?_overlayMembers ht.ascending, Option.or_eq_some_iff] at hget
    rcases hget with hget | ⟨-, hget⟩
    · exact ht.of_members hget
    · exact hs.of_members hget
  next source _ => exact Option.some_inj.mp h ▸ hsource _ rfl
  next => exact htarget item h

/-! ### Whole objects -/

/-- A resolution gives an object under the key that the two sides have it under. -/
theorem objectKey?_of_object? (hsome : (source?.or target?).isSome)
    (hsource : ∀ item ∈ source?, objectKey? item = some key)
    (htarget : ∀ item ∈ target?, objectKey? item = some key)
    (hordered : ∀ item ∈ target?, item.Ordered)
    (h : resolution.object? source? target? = some item) : objectKey? item = some key := by
  rw [object?.eq_def] at h
  cases resolution with
  | sourceWins => exact hsource item h
  | targetWins => exact htarget item h
  | overlay => exact objectKey?_of_overlaid? hsource htarget hordered h
  | custom text =>
    dsimp only at h
    split at h
    next => simp at h
    next members _ =>
      -- A replacement gets the id of the object in whose place it stands.
      obtain ⟨present, hpresent⟩ := Option.isSome_iff_exists.mp hsome
      have hkey : objectKey? present = some key := by
        rw [Option.or_eq_some_iff] at hpresent
        rcases hpresent with hpresent | ⟨-, hpresent⟩
        · exact hsource present hpresent
        · exact htarget present hpresent
      obtain ⟨id, hid, names⟩ := Document.objectKey?_eq_some_iff.mp hkey
      rw [hpresent, Option.bind_some, hid] at h
      rw [← Option.some_inj.mp h]
      refine Document.objectKey?_eq_some_iff.mpr ⟨id, ?_, names⟩
      exact Keyed.get?_insert_self
    next => exact htarget item h

/-- The JSON that a label spells, if it is a replacement, nests no deeper than some
levels. -/
def Spells (levels : Nat) : Resolution → Prop
  | .custom text => ∀ value, Json.parse? text = some value → value.nesting ≤ levels
  | _ => True

theorem Spells.mono {more : Nat} (h : resolution.Spells levels) (hle : levels ≤ more) :
    resolution.Spells more := by
  cases resolution with
  | custom text => exact fun value hvalue => (h value hvalue).trans hle
  | _ => trivial

/-- No label spells more than the reader takes. -/
theorem spells_nestingLimit (resolution : Resolution) :
    resolution.Spells Json.nestingLimit := by
  cases resolution with
  | custom text => exact fun value hvalue => (Json.ordered_of_parse? hvalue).2
  | _ => trivial

theorem within_object? (hspells : resolution.Spells (levels + 1))
    (hsource : ∀ item ∈ source?, item.Within (levels + 1))
    (htarget : ∀ item ∈ target?, item.Within (levels + 1))
    (h : resolution.object? source? target? = some item) : item.Within (levels + 1) := by
  rw [object?.eq_def] at h
  cases resolution with
  | sourceWins => exact hsource item h
  | targetWins => exact htarget item h
  | overlay => exact within_overlaid? hsource htarget h
  | custom text =>
    dsimp only at h
    split at h
    next => simp at h
    next members hparse =>
      have hmembers : (Json.object members).Within (levels + 1) :=
        ⟨(Json.ordered_of_parse? hparse).1, hspells _ hparse⟩
      rw [← Option.some_inj.mp h]
      refine Json.within_object (hmembers.ascending.insert? _) fun key value hget => ?_
      rw [Keyed.get?_insert?] at hget
      split at hget
      next =>
        -- The id is taken over from the object that is replaced, and may nest as deep as that one.
        rw [Option.or_eq_some_iff] at hget
        rcases hget with hid | ⟨-, hget⟩
        · obtain ⟨present, hpresent, hid⟩ := Option.bind_eq_some_iff.mp hid
          rw [Option.or_eq_some_iff] at hpresent
          rcases hpresent with hpresent | ⟨-, hpresent⟩
          · exact (hsource present hpresent).of_get? hid
          · exact (htarget present hpresent).of_get? hid
        · exact hmembers.of_members hget
      next => exact hmembers.of_members hget
    next => exact htarget item h

/-! ### Properties -/

theorem within_property? (hspells : resolution.Spells levels)
    (hsource : ∀ value ∈ source?, value.Within levels)
    (htarget : ∀ value ∈ target?, value.Within levels)
    (h : resolution.property? source? target? = some item) : item.Within levels := by
  rw [property?.eq_def] at h
  cases resolution with
  | sourceWins => exact hsource item h
  | targetWins => exact htarget item h
  | overlay =>
    dsimp only at h
    split at h
    next => exact within_overlaid? hsource htarget h
    next source _ _ => exact Option.some_inj.mp h ▸ hsource _ rfl
    next => exact htarget item h
  | custom text =>
    dsimp only at h
    split at h
    next value hparse =>
      obtain rfl := Option.some_inj.mp h
      exact ⟨(Json.ordered_of_parse? hparse).1, hspells _ hparse⟩
    next => exact htarget item h

/-! ### Labels that spell objects -/

variable {members : Keyed Json}

theorem toList_canonical (members : Keyed Json) :
    ∃ rest, (Json.object members).canonical.toList = '{' :: rest := by
  rw [Json.canonical, String.toList_ofList]
  cases members with
  | nil => exact ⟨_, Json.chars.eq_def _⟩
  | cons member members => exact ⟨_, Json.chars.eq_def _⟩

theorem isBlank_canonical (members : Keyed Json) :
    Text.isBlank (Json.object members).canonical = false := by
  obtain ⟨rest, hlist⟩ := toList_canonical members
  rw [Text.isBlank, hlist]
  rfl

/-- No text that begins with a brace is one of the three known labels. -/
theorem ofLabel_canonical (members : Keyed Json) :
    ofLabel (Json.object members).canonical = .custom (Json.object members).canonical := by
  obtain ⟨rest, hlist⟩ := toList_canonical members
  have hprefix : (Text.trim (Json.object members).canonical).toList <+: '{' :: rest := by
    have hsuffix := List.reverse_prefix.mpr
      (List.dropWhile_suffix (l := ('{' :: rest).reverse) Text.isSpace)
    rw [List.reverse_reverse] at hsuffix
    rw [Text.trim, String.toList_ofList, hlist]
    exact hsuffix
  rw [ofLabel]
  split
  next h => rw [h] at hprefix; simp at hprefix
  next h => rw [h] at hprefix; simp at hprefix
  next h => rw [h] at hprefix; simp at hprefix
  next => rfl

/-- The canonical form of an object puts the object in, under the id that is there. -/
theorem object?_canonical (within : (Json.object members).Within Json.nestingLimit)
    (source? target? : Option Json) :
    (ofLabel (Json.object members).canonical).object? source? target?
      = some (.object
          (Keyed.insert? idKey ((source?.or target?).bind (Json.get? idKey)) members)) := by
  rw [ofLabel_canonical, object?.eq_def]
  dsimp only
  rw [Json.parse?_canonical_of_nesting within.ordered within.nesting]

end Resolution

end PlanHistory
