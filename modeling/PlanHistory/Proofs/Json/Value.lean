/-
Values as the reader gives them.

* **`Json.induction`** — induction on a value: what holds of the items of an array and
  of the members of an object holds of the whole;
* **`Json.same_self`**, **`Json.same_comm`**, **`Json.same_trans`** — a value equals itself, and
  equality goes both ways, and on;
* **`Json.same_of_get?`** — objects are equal if what each key finds is;
* **`Json.Ordered`** — the members of every object within ascend, so that none is
  repeated;
* **`Json.nesting`** — how deep arrays and objects nest in a value;
* **`Json.Within`** — ordered, and nesting no deeper than some levels.
-/
import PlanHistory.Json.Value
import PlanHistory.Proofs.Keyed

namespace PlanHistory

namespace Json

/-- Induction on a value. -/
@[elab_as_elim]
theorem induction {motive : Json → Prop}
    (null : motive .null) (bool : ∀ b, motive (.bool b)) (number : ∀ n, motive (.number n))
    (string : ∀ s, motive (.string s))
    (array : ∀ items, (∀ item ∈ items, motive item) → motive (.array items))
    (object : ∀ members, (∀ member ∈ members, motive member.2) → motive (.object members)) :
    ∀ value, motive value := by
  refine Json.rec (motive_1 := motive) (motive_2 := fun items => ∀ item ∈ items, motive item)
    (motive_3 := fun members => ∀ member ∈ members, motive member.2)
    (motive_4 := fun member => motive member.2) null bool number string
    (fun items ih => array items ih) (fun members ih => object members ih) ?_ ?_ ?_ ?_ ?_
  · simp
  · intro item items hitem hitems other hmem
    rcases List.mem_cons.mp hmem with rfl | hmem
    · exact hitem
    · exact hitems other hmem
  · simp
  · intro member members hmember hmembers other hmem
    rcases List.mem_cons.mp hmem with rfl | hmem
    · exact hmember
    · exact hmembers other hmem
  · intro key value hvalue
    exact hvalue

/-! ### Equality -/

theorem number_same_self (n : Number) : n.same n = true := by
  cases n with
  | whole i => simp [Number.same]
  | float x => simp [Number.same, Binary64.same]

/-- A value equals itself. -/
theorem same_self (value : Json) : value.same value = true := by
  induction value using induction with
  | null => rfl
  | bool b => simp [same]
  | number n => rw [same, number_same_self]
  | string s => simp [same]
  | array items ih =>
    rw [same]
    induction items with
    | nil => rfl
    | cons item items ihs =>
      rw [sameItems, ih item List.mem_cons_self,
        ihs fun other h => ih other (List.mem_cons_of_mem _ h), Bool.and_self]
  | object members ih =>
    rw [same]
    induction members with
    | nil => rfl
    | cons member members ihs =>
      rw [sameMembers, ih member List.mem_cons_self,
        ihs fun other h => ih other (List.mem_cons_of_mem _ h), beq_self_eq_true,
        Bool.and_self, Bool.and_self]

instance : ReflBEq Json := ⟨same_self _⟩

theorem number_same_trans {a b c : Number} (hab : a.same b = true) (hbc : b.same c = true) :
    a.same c = true := by
  cases a with
  | whole i =>
    cases b with
    | float y => simp [Number.same] at hab
    | whole j =>
      rw [Number.same, beq_iff_eq] at hab
      cases c with
      | float z => simp [Number.same] at hbc
      | whole k =>
        rw [Number.same, beq_iff_eq] at hbc ⊢
        exact hab.trans hbc
  | float x =>
    cases b with
    | whole j => simp [Number.same] at hab
    | float y =>
      cases c with
      | whole k => simp [Number.same] at hbc
      | float z =>
        simp only [Number.same, Binary64.same, Bool.and_eq_true, Bool.or_eq_true, beq_iff_eq]
          at hab hbc ⊢
        refine ⟨hab.1.trans hbc.1, ?_⟩
        rcases hab.2 with hzero | hsign
        · exact Or.inl hzero
        · exact hbc.2.imp hab.1.trans hsign.trans

theorem sameItems_iff {as bs : List Json} :
    sameItems as bs = true ↔ List.Forall₂ (fun a b => a.same b = true) as bs := by
  induction as generalizing bs with
  | nil => cases bs <;> simp [sameItems, List.forall₂_nil_left_iff]
  | cons a as ih =>
    cases bs with
    | nil => simp [sameItems, List.forall₂_nil_right_iff]
    | cons b bs => rw [sameItems, Bool.and_eq_true, ih, List.forall₂_cons]

theorem sameMembers_iff {as bs : List (String × Json)} :
    sameMembers as bs = true
      ↔ List.Forall₂ (fun a b => a.1 = b.1 ∧ a.2.same b.2 = true) as bs := by
  induction as generalizing bs with
  | nil => cases bs <;> simp [sameMembers, List.forall₂_nil_left_iff]
  | cons a as ih =>
    cases bs with
    | nil => simp [sameMembers, List.forall₂_nil_right_iff]
    | cons b bs =>
      rw [sameMembers, Bool.and_eq_true, Bool.and_eq_true, beq_iff_eq, ih, List.forall₂_cons]

theorem forall₂_trans {α : Type} {R : α → α → Prop} {as bs cs : List α}
    (h : ∀ a ∈ as, ∀ b c, R a b → R b c → R a c) (hab : List.Forall₂ R as bs)
    (hbc : List.Forall₂ R bs cs) : List.Forall₂ R as cs := by
  induction hab generalizing cs with
  | nil => exact hbc
  | cons hfirst _ ih =>
    cases hbc with
    | cons hfirst' hrest' =>
      exact .cons (h _ List.mem_cons_self _ _ hfirst hfirst')
        (ih (fun a hmem => h a (List.mem_cons_of_mem _ hmem)) hrest')

/-- A value that equals another equals all that the other equals. -/
theorem same_trans {a b c : Json} (hab : a.same b = true) (hbc : b.same c = true) :
    a.same c = true := by
  induction a using induction generalizing b c with
  | null => cases b <;> cases c <;> simp_all [same]
  | bool x => cases b <;> cases c <;> simp_all [same]
  | string x => cases b <;> cases c <;> simp_all [same]
  | number x =>
    cases b <;> cases c <;> simp only [same, Bool.false_eq_true] at hab hbc ⊢
    exact number_same_trans hab hbc
  | array items ih =>
    cases b <;> cases c <;> simp only [same, Bool.false_eq_true, sameItems_iff] at hab hbc ⊢
    exact forall₂_trans (fun item hmem _ _ => ih item hmem) hab hbc
  | object members ih =>
    cases b <;> cases c <;> simp only [same, Bool.false_eq_true, sameMembers_iff] at hab hbc ⊢
    exact forall₂_trans (fun member hmem _ _ hfirst hsecond =>
      ⟨hfirst.1.trans hsecond.1, ih member hmem hfirst.2 hsecond.2⟩) hab hbc

theorem some_same_trans {a b c : Option Json} (hab : (a == b) = true) (hbc : (b == c) = true) :
    (a == c) = true := by
  cases a with
  | none => cases b with
    | none => exact hbc
    | some _ => simp at hab
  | some x => cases b with
    | none => simp at hab
    | some y => cases c with
      | none => simp at hbc
      | some z => exact same_trans hab hbc

theorem number_same_comm (a b : Number) : a.same b = b.same a := by
  cases a with
  | whole i =>
    cases b with
    | whole j => exact Bool.beq_comm
    | float y => rfl
  | float x =>
    cases b with
    | whole j => rfl
    | float y =>
      rw [Number.same, Number.same, Binary64.same, Binary64.same, Bool.beq_comm (a := y.negative)]
      -- The one rank may stand for the other, once the two are the same.
      by_cases h : x.rank = y.rank
      · rw [h]
      · rw [beq_false_of_ne h, beq_false_of_ne (Ne.symm h)]
        rfl

theorem forall₂_symm {α : Type} {R : α → α → Prop} {as bs : List α}
    (h : ∀ a ∈ as, ∀ b, R a b → R b a) (hab : List.Forall₂ R as bs) : List.Forall₂ R bs as := by
  induction hab with
  | nil => exact .nil
  | cons hfirst _ ih =>
    exact .cons (h _ List.mem_cons_self _ hfirst)
      (ih fun a hmem => h a (List.mem_cons_of_mem _ hmem))

/-- Equality of values goes both ways. -/
theorem same_symm {a b : Json} (hab : a.same b = true) : b.same a = true := by
  induction a using induction generalizing b with
  | null => cases b <;> simp_all [same]
  | bool x => cases b <;> simp_all [same]
  | string x => cases b <;> simp_all [same]
  | number x =>
    cases b <;> simp only [same, Bool.false_eq_true] at hab ⊢
    rwa [number_same_comm]
  | array items ih =>
    cases b <;> simp only [same, Bool.false_eq_true, sameItems_iff] at hab ⊢
    exact forall₂_symm (fun item hmem _ => ih item hmem) hab
  | object members ih =>
    cases b <;> simp only [same, Bool.false_eq_true, sameMembers_iff] at hab ⊢
    exact forall₂_symm (fun member hmem _ hpair => ⟨hpair.1.symm, ih member hmem hpair.2⟩) hab

theorem same_comm (a b : Json) : a.same b = b.same a := by
  rw [Bool.eq_iff_iff]
  exact ⟨same_symm, same_symm⟩

theorem some_same_comm (a b : Option Json) : (a == b) = (b == a) := by
  cases a with
  | none => cases b <;> rfl
  | some x => cases b with
    | none => rfl
    | some y => exact same_comm x y

/-- Two sides are equal if both have values that are equal, or neither has one. -/
theorem some_same_iff_rel {a b : Option Json} :
    (a == b) = true ↔ Option.Rel (fun x y => Json.same x y = true) a b := by
  constructor
  · intro h
    cases a <;> cases b
    · exact .none
    · simp at h
    · simp at h
    · exact .some h
  · rintro (hsame | -)
    · exact hsame
    · rfl

/-- Equal objects have equal members. -/
theorem get?_same {a b : List (String × Json)} (hsame : (object a == object b) = true)
    (key : String) : (Keyed.get? key a == Keyed.get? key b) = true := by
  have h : (object a).same (object b) = true := hsame
  clear hsame
  rw [same, sameMembers_iff] at h
  induction h with
  | nil => exact beq_self_eq_true _
  | @cons x y _ _ hfirst _ ih =>
    rw [Keyed.get?_cons, Keyed.get?_cons, hfirst.1]
    split
    · exact hfirst.2
    · exact ih

/-- Objects are equal if their members ascend and are equal. -/
theorem same_of_get? {a b : Keyed Json} (ha : Keyed.Ascending a) (hb : Keyed.Ascending b)
    (h : ∀ key, (Keyed.get? key a == Keyed.get? key b) = true) :
    (object a == object b) = true := by
  show (object a).same (object b) = true
  rw [same, sameMembers_iff]
  exact Keyed.forall₂_of_ascending ha hb fun key => some_same_iff_rel.mp (h key)

/-! ### Order of the members -/

mutual

/-- The members of every object within a value ascend. -/
def Ordered : Json → Prop
  | .array items => OrderedItems items
  | .object members => Keyed.Ascending members ∧ OrderedMembers members
  | _ => True

/-- The members of every object within some items ascend. -/
def OrderedItems : List Json → Prop
  | [] => True
  | item :: items => Ordered item ∧ OrderedItems items

/-- The members of every object within the values of some members ascend. -/
def OrderedMembers : List (String × Json) → Prop
  | [] => True
  | (_, value) :: members => Ordered value ∧ OrderedMembers members

end

@[simp] theorem ordered_array {items : List Json} :
    (array items).Ordered ↔ ∀ item ∈ items, item.Ordered := by
  rw [Ordered]
  induction items with
  | nil => simp [OrderedItems]
  | cons item items ih => simp [OrderedItems, ih]

theorem orderedMembers_iff {members : List (String × Json)} :
    OrderedMembers members ↔ ∀ member ∈ members, member.2.Ordered := by
  induction members with
  | nil => simp [OrderedMembers]
  | cons member members ih => rw [OrderedMembers, ih, List.forall_mem_cons]

@[simp] theorem ordered_object {members : List (String × Json)} :
    (object members).Ordered
      ↔ Keyed.Ascending members ∧ ∀ member ∈ members, member.2.Ordered := by
  rw [Ordered, orderedMembers_iff]

theorem Ordered.of_get? {key : String} {value member : Json} (h : value.Ordered)
    (found : value.get? key = some member) : member.Ordered := by
  cases value with
  | object members =>
    exact (ordered_object.mp h).2 (key, member) (Keyed.mem_of_get? found)
  | _ => exact absurd found (by simp [get?, members?])

/-! ### Nesting -/

mutual

/-- How deep arrays and objects nest in a value. -/
def nesting : Json → Nat
  | .array items => nestingOfItems items + 1
  | .object members => nestingOfMembers members + 1
  | _ => 0

/-- How deep arrays and objects nest in some items. -/
def nestingOfItems : List Json → Nat
  | [] => 0
  | item :: items => max item.nesting (nestingOfItems items)

/-- How deep arrays and objects nest in the values of some members. -/
def nestingOfMembers : List (String × Json) → Nat
  | [] => 0
  | (_, value) :: members => max value.nesting (nestingOfMembers members)

end

theorem nestingOfItems_le {items : List Json} {levels : Nat} :
    nestingOfItems items ≤ levels ↔ ∀ item ∈ items, item.nesting ≤ levels := by
  induction items with
  | nil => simp [nestingOfItems]
  | cons item items ih => simp [nestingOfItems, ih]

theorem nestingOfMembers_le {members : List (String × Json)} {levels : Nat} :
    nestingOfMembers members ≤ levels ↔ ∀ member ∈ members, member.2.nesting ≤ levels := by
  induction members with
  | nil => simp [nestingOfMembers]
  | cons member members ih => simp [nestingOfMembers, ih]

/-! ### Values within bounds -/

/-- A value as the reader gives it with some levels of nesting: members ascend, and it
nests no deeper. -/
structure Within (levels : Nat) (value : Json) : Prop where
  ordered : value.Ordered
  nesting : value.nesting ≤ levels

variable {levels more : Nat} {value member : Json} {members : Keyed Json} {items : List Json}

theorem Within.mono (h : Within levels value) (hle : levels ≤ more) : Within more value :=
  ⟨h.ordered, h.nesting.trans hle⟩

theorem Ordered.within (h : value.Ordered) : Within value.nesting value := ⟨h, le_rfl⟩

theorem within_string (text : String) : Within levels (.string text) :=
  ⟨trivial, Nat.zero_le _⟩

theorem within_array :
    Within (levels + 1) (.array items) ↔ ∀ item ∈ items, Within levels item := by
  constructor
  · intro h item hmem
    refine ⟨ordered_array.mp h.ordered item hmem, ?_⟩
    have hnesting := h.nesting
    rw [Json.nesting] at hnesting
    exact nestingOfItems_le.mp (by omega) item hmem
  · intro h
    refine ⟨ordered_array.mpr fun item hmem => (h item hmem).ordered, ?_⟩
    rw [Json.nesting]
    exact Nat.succ_le_succ (nestingOfItems_le.mpr fun item hmem => (h item hmem).nesting)

theorem within_object (ascending : Keyed.Ascending members)
    (h : ∀ key value, Keyed.get? key members = some value → Within levels value) :
    Within (levels + 1) (.object members) := by
  have hmem : ∀ member ∈ members, Within levels member.2 := fun member hmem =>
    h member.1 member.2 (Keyed.get?_of_mem ascending.nodup_keys hmem)
  refine ⟨ordered_object.mpr ⟨ascending, fun member hm => (hmem member hm).ordered⟩, ?_⟩
  rw [Json.nesting]
  exact Nat.succ_le_succ (nestingOfMembers_le.mpr fun member hm => (hmem member hm).nesting)

/-- An object of texts. -/
theorem within_texts (ascending : Keyed.Ascending members)
    (h : ∀ member ∈ members, ∃ text, member.2 = .string text) :
    Within (levels + 1) (.object members) := by
  refine within_object ascending fun key value hget => ?_
  obtain ⟨text, rfl⟩ : ∃ text, value = .string text := h (key, value) (Keyed.mem_of_get? hget)
  exact within_string text

theorem Within.ascending (h : Within levels (.object members)) : Keyed.Ascending members :=
  (ordered_object.mp h.ordered).1

theorem Within.of_members {key : String} (h : Within (levels + 1) (.object members))
    (found : Keyed.get? key members = some member) : Within levels member := by
  have hmem := Keyed.mem_of_get? found
  refine ⟨(ordered_object.mp h.ordered).2 _ hmem, ?_⟩
  have hnesting := h.nesting
  rw [Json.nesting] at hnesting
  exact nestingOfMembers_le.mp (by omega) _ hmem

theorem Within.of_get? {key : String} (h : Within (levels + 1) value)
    (found : value.get? key = some member) : Within levels member := by
  cases value with
  | object members => exact h.of_members found
  | _ => exact absurd found (by simp [get?, members?])

end Json

end PlanHistory
