/-
The canonical form of a value reads back, up to the nesting that the reader takes.

* **`Json.Read.value?_chars`** — reading the characters of a value gives the value if it
  nests no deeper than the levels left, and nothing otherwise;
* **`Json.parse?_canonical`** — the same for whole texts, and
  **`Json.ofBytes?_contentBytes`** for bytes;
* **`Json.ordered_of_parse?`** — what is read from any text has ascending members and
  nests `nestingLimit` deep at most.
-/
import PlanHistory.Document
import PlanHistory.Proofs.Json.Token
import PlanHistory.Proofs.Json.Value

namespace PlanHistory

namespace Json

/-! ### The first character of a value -/

theorem chars_eq_cons (value : Json) :
    ∃ c cs, value.chars = c :: cs ∧ Read.isBlank c = false ∧ c ≠ ']' ∧ c ≠ '}' := by
  match value with
  | .null => exact ⟨_, _, rfl, by decide, by decide, by decide⟩
  | .bool true => exact ⟨_, _, rfl, by decide, by decide, by decide⟩
  | .bool false => exact ⟨_, _, rfl, by decide, by decide, by decide⟩
  | .string s => exact ⟨_, _, rfl, by decide, by decide, by decide⟩
  | .array [] => exact ⟨_, _, rfl, by decide, by decide, by decide⟩
  | .array (_ :: _) =>
    rw [chars]
    exact ⟨_, _, rfl, by decide, by decide, by decide⟩
  | .object [] => exact ⟨_, _, rfl, by decide, by decide, by decide⟩
  | .object ((_, _) :: _) =>
    rw [chars]
    exact ⟨_, _, rfl, by decide, by decide, by decide⟩
  | .number n =>
    obtain ⟨c, cs, hcs, hc⟩ : ∃ c cs, numberChars n = c :: cs ∧ (c.isDigit ∨ c = '-') :=
      Read.numberChars_eq_cons n
    refine ⟨c, cs, by rw [chars, hcs], ?_⟩
    rcases hc with hc | rfl
    · refine ⟨?_, ?_, ?_⟩
      · rw [Bool.eq_false_iff]
        intro hblank
        simp only [Read.isBlank, Bool.or_eq_true, beq_iff_eq] at hblank
        rcases hblank with ((rfl | rfl) | rfl) | rfl <;> exact absurd hc (by decide)
      · rintro rfl; exact absurd hc (by decide)
      · rintro rfl; exact absurd hc (by decide)
    · decide

namespace Read

theorem skipBlank_cons {c : Char} {cs : List Char} (h : isBlank c = false) :
    skipBlank (c :: cs) = c :: cs := by
  rw [skipBlank, List.dropWhile_cons, h]
  rfl

theorem quoted_append (text : String) (rest : List Char) :
    quoted text ++ rest = '"' :: (text.toList.flatMap escape ++ '"' :: rest) := by
  simp [quoted]

theorem closes_itemChars (items : List Json) (rest : List Char) :
    Closes (itemChars items ++ rest) := by
  cases items with
  | nil => exact closes_cons (by simp)
  | cons item items =>
    rw [itemChars]
    exact closes_cons (by simp)

theorem closes_memberChars (members : List (String × Json)) (rest : List Char) :
    Closes (memberChars members ++ rest) := by
  cases members with
  | nil => exact closes_cons (by simp)
  | cons member members =>
    rw [memberChars]
    exact closes_cons (by simp)

/-! ### Items and members -/

/-- What reading `value` gives where `levels` of nesting are left. -/
def Reads (read : List Char → Option (Json × List Char)) (levels : Nat) (value : Json) : Prop :=
  ∀ rest, Closes rest →
    read (value.chars ++ rest) = if value.nesting ≤ levels then some (value, rest) else none

variable {read : List Char → Option (Json × List Char)} {levels : Nat}

theorem items?_none {cs : List Char} (bound : Nat) (done : List Json) (h : read cs = none) :
    items? read (bound + 1) done cs = none := by
  rw [items?, h]

theorem items?_next {cs rest : List Char} {item : Json} (bound : Nat) (done : List Json)
    (h : read cs = some (item, ',' :: rest)) :
    items? read (bound + 1) done cs = items? read bound (item :: done) rest := by
  simp [items?, h, skipBlank, isBlank]

theorem items?_last {cs rest : List Char} {item : Json} (bound : Nat) (done : List Json)
    (h : read cs = some (item, ']' :: rest)) :
    items? read (bound + 1) done cs = some (done.reverse ++ [item], rest) := by
  simp [items?, h, skipBlank, isBlank]

theorem members?_none {cs : List Char} (key : String) (bound : Nat) (done : Keyed Json)
    (h : read cs = none) :
    members? read (bound + 1) done (quoted key ++ ':' :: cs) = none := by
  rw [quoted_append]
  simp [members?, h, skipBlank, isBlank, string?_quoted]

theorem members?_next {cs rest : List Char} {value : Json} (key : String) (bound : Nat)
    (done : Keyed Json) (h : read cs = some (value, ',' :: rest)) :
    members? read (bound + 1) done (quoted key ++ ':' :: cs)
      = members? read bound (Keyed.insert key value done) rest := by
  rw [quoted_append]
  simp [members?, h, skipBlank, isBlank, string?_quoted]

theorem members?_last {cs rest : List Char} {value : Json} (key : String) (bound : Nat)
    (done : Keyed Json) (h : read cs = some (value, '}' :: rest)) :
    members? read (bound + 1) done (quoted key ++ ':' :: cs)
      = some (Keyed.insert key value done, rest) := by
  rw [quoted_append]
  simp [members?, h, skipBlank, isBlank, string?_quoted]

theorem items?_chars (item : Json) (items : List Json)
    (hread : ∀ other ∈ item :: items, Reads read levels other) (done : List Json)
    (rest : List Char) {bound : Nat} (hbound : items.length < bound) :
    items? read bound done (item.chars ++ (itemChars items ++ rest))
      = if nestingOfItems (item :: items) ≤ levels then some (done.reverse ++ item :: items, rest)
        else none := by
  induction items generalizing item done bound with
  | nil =>
    obtain ⟨bound, rfl⟩ : ∃ more, bound = more + 1 := ⟨bound - 1, by simp at hbound; omega⟩
    have hitem := hread item List.mem_cons_self _ (closes_itemChars [] rest)
    by_cases h : item.nesting ≤ levels
    · rw [if_pos h] at hitem
      rw [items?_last bound done hitem, if_pos (by simpa [nestingOfItems] using h)]
      rfl
    · rw [if_neg h] at hitem
      rw [items?_none bound done hitem, if_neg (by simpa [nestingOfItems] using h)]
  | cons next items ih =>
    obtain ⟨bound, rfl⟩ : ∃ more, bound = more + 1 := ⟨bound - 1, by simp at hbound; omega⟩
    have hitem := hread item List.mem_cons_self _ (closes_itemChars (next :: items) rest)
    rw [itemChars, List.cons_append, List.cons_append, List.append_assoc] at hitem ⊢
    by_cases h : item.nesting ≤ levels
    · rw [if_pos h] at hitem
      rw [items?_next bound done hitem,
        ih next (fun other hmem => hread other (List.mem_cons_of_mem _ hmem)) (item :: done)
          (by simpa using hbound)]
      simp [nestingOfItems, h]
    · rw [if_neg h] at hitem
      rw [items?_none bound done hitem, if_neg (by rw [nestingOfItems]; omega)]

theorem members?_chars (member : String × Json) (members : List (String × Json))
    (hread : ∀ other ∈ member :: members, Reads read levels other.2) (done : Keyed Json)
    (rest : List Char) {bound : Nat} (hbound : members.length < bound) :
    members? read bound done
        (quoted member.1 ++ (':' :: (member.2.chars ++ (memberChars members ++ rest))))
      = if nestingOfMembers (member :: members) ≤ levels then
          some ((member :: members).foldl
            (fun kept entry => Keyed.insert entry.1 entry.2 kept) done, rest)
        else none := by
  induction members generalizing member done bound with
  | nil =>
    obtain ⟨bound, rfl⟩ : ∃ more, bound = more + 1 := ⟨bound - 1, by simp at hbound; omega⟩
    have hvalue := hread member List.mem_cons_self _ (closes_memberChars [] rest)
    by_cases h : member.2.nesting ≤ levels
    · rw [if_pos h] at hvalue
      rw [members?_last member.1 bound done hvalue, if_pos (by simpa [nestingOfMembers] using h)]
      rfl
    · rw [if_neg h] at hvalue
      rw [members?_none member.1 bound done hvalue, if_neg (by simpa [nestingOfMembers] using h)]
  | cons next members ih =>
    obtain ⟨bound, rfl⟩ : ∃ more, bound = more + 1 := ⟨bound - 1, by simp at hbound; omega⟩
    have hvalue := hread member List.mem_cons_self _ (closes_memberChars (next :: members) rest)
    rw [memberChars] at hvalue ⊢
    simp only [List.cons_append, List.append_assoc] at hvalue ⊢
    by_cases h : member.2.nesting ≤ levels
    · rw [if_pos h] at hvalue
      rw [members?_next member.1 bound done hvalue,
        ih next (fun other hmem => hread other (List.mem_cons_of_mem _ hmem))
          (Keyed.insert member.1 member.2 done) (by simpa using hbound)]
      simp [nestingOfMembers, h]
    · rw [if_neg h] at hvalue
      rw [members?_none member.1 bound done hvalue, if_neg (by rw [nestingOfMembers]; omega)]

theorem length_le_itemChars (items : List Json) : items.length < (itemChars items).length := by
  induction items with
  | nil => decide
  | cons item items ih =>
    rw [itemChars]
    simp only [List.cons_append, List.length_cons, List.length_append]
    omega

theorem length_le_memberChars (members : List (String × Json)) :
    members.length < (memberChars members).length := by
  induction members with
  | nil => decide
  | cons member members ih =>
    rw [memberChars]
    simp only [List.cons_append, List.length_cons, List.length_append]
    omega

theorem length_chars_le_itemChars {item other : Json} {items : List Json}
    (h : other ∈ item :: items) : other.chars.length ≤ (item.chars ++ itemChars items).length := by
  induction items generalizing item with
  | nil =>
    obtain rfl := List.mem_singleton.mp h
    rw [List.length_append]
    omega
  | cons next items ih =>
    rw [itemChars]
    simp only [List.cons_append, List.length_append, List.length_cons]
    rcases List.mem_cons.mp h with rfl | h
    · omega
    · have := ih h
      rw [List.length_append] at this
      omega

theorem length_chars_le_memberChars {member other : String × Json}
    {members : List (String × Json)} (h : other ∈ member :: members) :
    other.2.chars.length ≤ (member.2.chars ++ memberChars members).length := by
  induction members generalizing member with
  | nil =>
    obtain rfl := List.mem_singleton.mp h
    rw [List.length_append]
    omega
  | cons next members ih =>
    rw [memberChars]
    simp only [List.cons_append, List.length_append, List.length_cons]
    rcases List.mem_cons.mp h with rfl | h
    · omega
    · have := ih h
      rw [List.length_append] at this
      omega

/-! ### Values -/

section Values

attribute [local simp] value?.eq_def

theorem value?_number (bound levels : Nat) {c : Char} {cs : List Char}
    (hc : c.isDigit ∨ c = '-') :
    value? bound levels (c :: cs) = (number? (c :: cs)).map fun (n, rest) => (.number n, rest) := by
  have hne : ∀ d : Char, (d.isDigit = false ∧ d ≠ '-') → c ≠ d := by
    rintro d ⟨hd, hminus⟩ rfl
    rcases hc with hc | hc
    · rw [hd] at hc
      exact absurd hc (by decide)
    · exact hminus hc
  have hblank : isBlank c = false := by
    simp [isBlank, hne ' ' (by decide), hne '\t' (by decide), hne '\n' (by decide),
      hne '\r' (by decide)]
  rw [value?.eq_def, skipBlank_cons hblank]
  split
  next heq => exact absurd (List.cons.inj heq).1 (hne _ (by decide))
  next heq => exact absurd (List.cons.inj heq).1 (hne _ (by decide))
  next heq => exact absurd (List.cons.inj heq).1 (hne _ (by decide))
  next heq => exact absurd (List.cons.inj heq).1 (hne _ (by decide))
  next heq => exact absurd (List.cons.inj heq).1 (hne _ (by decide))
  next heq => exact absurd (List.cons.inj heq).1 (hne _ (by decide))
  next => rfl

theorem value?_string (bound levels : Nat) (cs : List Char) :
    value? bound levels ('"' :: cs)
      = (string? [] cs).map fun (text, rest) => (.string (String.ofList text), rest) := by
  simp [skipBlank, isBlank]

theorem value?_array_zero (bound : Nat) (cs : List Char) : value? bound 0 ('[' :: cs) = none := by
  simp [skipBlank, isBlank]

theorem value?_object_zero (bound : Nat) (cs : List Char) : value? bound 0 ('{' :: cs) = none := by
  simp [skipBlank, isBlank]

theorem value?_array (bound levels : Nat) {c : Char} (cs : List Char) (hblank : isBlank c = false)
    (hclose : c ≠ ']') :
    value? bound (levels + 1) ('[' :: c :: cs)
      = (items? (value? bound levels) bound [] (c :: cs)).map fun (items, rest) =>
          (.array items, rest) := by
  simp [skipBlank_cons (c := '['), isBlank, skipBlank_cons hblank, hclose]

theorem value?_object (bound levels : Nat) {c : Char} (cs : List Char) (hblank : isBlank c = false)
    (hclose : c ≠ '}') :
    value? bound (levels + 1) ('{' :: c :: cs)
      = (members? (value? bound levels) bound [] (c :: cs)).map fun (members, rest) =>
          (.object members, rest) := by
  simp [skipBlank_cons (c := '{'), isBlank, skipBlank_cons hblank, hclose]

end Values

theorem length_chars_le_array {item : Json} {items : List Json} (h : item ∈ items) :
    item.chars.length ≤ (array items).chars.length := by
  cases items with
  | nil => simp at h
  | cons first items =>
    have hle := length_chars_le_itemChars h
    rw [chars, List.cons_append, List.length_cons]
    omega

theorem length_chars_le_object {member : String × Json} {members : List (String × Json)}
    (h : member ∈ members) : member.2.chars.length ≤ (object members).chars.length := by
  cases members with
  | nil => simp at h
  | cons first members =>
    have hle := length_chars_le_memberChars h
    rw [chars]
    simp only [List.cons_append, List.length_cons, List.length_append] at hle ⊢
    omega

/-- An array is read if its items are, one level down. -/
theorem reads_array {items : List Json} {bound : Nat} (levels : Nat)
    (hbound : (array items).chars.length ≤ bound)
    (hread : ∀ below, ∀ item ∈ items, Reads (value? bound below) below item) :
    Reads (value? bound levels) levels (array items) := by
  intro rest hrest
  cases items with
  | nil =>
    rw [chars, value?.eq_def]
    cases levels with
    | zero => simp [skipBlank_cons, isBlank, nesting]
    | succ levels => simp [skipBlank_cons, isBlank, nesting, nestingOfItems]
  | cons item items =>
    rw [chars, List.cons_append] at hbound ⊢
    rw [List.length_cons] at hbound
    cases levels with
    | zero => rw [List.cons_append, value?_array_zero, nesting]; rfl
    | succ levels =>
      -- The bound is on characters, and every item takes one at least.
      have hcount : items.length < bound := by
        have := length_le_itemChars items
        rw [List.length_append] at hbound
        omega
      obtain ⟨c, cs, hcs, hblank, hclose, -⟩ := chars_eq_cons item
      have hitems := items?_chars item items (hread levels) [] rest hcount
      rw [List.cons_append, List.append_assoc]
      rw [hcs, List.cons_append] at hitems ⊢
      rw [value?_array bound levels _ hblank hclose, hitems, nesting]
      by_cases h : nestingOfItems (item :: items) ≤ levels
      · rw [if_pos h, if_pos (by omega)]; rfl
      · rw [if_neg h, if_neg (by omega)]; rfl

/-- An object is read if the values of its members are, one level down. -/
theorem reads_object {members : List (String × Json)} {bound : Nat} (levels : Nat)
    (ascending : Keyed.Ascending members) (hbound : (object members).chars.length ≤ bound)
    (hread : ∀ below, ∀ member ∈ members, Reads (value? bound below) below member.2) :
    Reads (value? bound levels) levels (object members) := by
  intro rest hrest
  cases members with
  | nil =>
    rw [chars, value?.eq_def]
    cases levels with
    | zero => simp [skipBlank_cons, isBlank, nesting]
    | succ levels => simp [skipBlank_cons, isBlank, nesting, nestingOfMembers]
  | cons member members =>
    obtain ⟨key, first⟩ := member
    rw [chars] at hbound ⊢
    simp only [List.cons_append, List.append_assoc, List.length_cons, List.length_append]
      at hbound ⊢
    cases levels with
    | zero => rw [value?_object_zero, nesting]; rfl
    | succ levels =>
      have hcount : members.length < bound := by
        have := length_le_memberChars members
        omega
      -- Members that ascend are put back in the order in which they are read.
      have hkept : ((key, first) :: members).foldl
          (fun kept entry => Keyed.insert entry.1 entry.2 kept) [] = (key, first) :: members :=
        Keyed.ofEntries_of_ascending ascending
      have hmembers := members?_chars (key, first) members (hread levels) [] rest hcount
      rw [quoted_append, hkept] at hmembers
      rw [quoted_append, value?_object bound levels _ (by decide) (by decide), hmembers, nesting]
      by_cases h : nestingOfMembers ((key, first) :: members) ≤ levels
      · rw [if_pos h, if_pos (by omega)]; rfl
      · rw [if_neg h, if_neg (by omega)]; rfl

/-- Reading the characters of a value gives the value if it nests no deeper than the
levels left, and nothing otherwise. -/
theorem value?_chars {value : Json} (ordered : value.Ordered) {bound : Nat} (levels : Nat)
    (hbound : value.chars.length ≤ bound) : Reads (value? bound levels) levels value := by
  induction value using Json.induction generalizing levels with
  | null => intro rest _; simp [chars, value?, skipBlank_cons, isBlank, nesting]
  | bool b => intro rest _; cases b <;> simp [chars, value?, skipBlank_cons, isBlank, nesting]
  | number n =>
    intro rest hrest
    obtain ⟨c, cs, hcs, hc⟩ := numberChars_eq_cons n
    have hread := number?_numberChars n hrest
    rw [hcs, List.cons_append] at hread
    rw [chars, hcs, List.cons_append, value?_number bound levels hc, hread]
    rfl
  | string s =>
    intro rest _
    rw [chars, quoted_append, value?_string, string?_quoted, Option.map_some]
    simp [nesting]
  | array items ih =>
    refine reads_array levels hbound fun below item hmem => ?_
    exact ih item hmem (ordered_array.mp ordered item hmem) below
      ((length_chars_le_array hmem).trans hbound)
  | object members ih =>
    obtain ⟨ascending, hmembers⟩ := ordered_object.mp ordered
    refine reads_object levels ascending hbound fun below member hmem => ?_
    exact ih member hmem (hmembers member hmem) below ((length_chars_le_object hmem).trans hbound)

end Read

/-! ### Texts -/

/-- The canonical form of a value reads back as the value, if it nests no deeper than
the limit of the reader, and not at all otherwise. -/
theorem parse?_canonical {value : Json} (ordered : value.Ordered) :
    parse? value.canonical = if value.nesting ≤ nestingLimit then some value else none := by
  have hread := Read.value?_chars ordered nestingLimit (Nat.le_succ _) [] Read.closes_nil
  rw [List.append_nil] at hread
  rw [parse?, canonical, String.toList_ofList, ofChars?, hread]
  by_cases h : value.nesting ≤ nestingLimit
  · rw [if_pos h, if_pos h]; rfl
  · rw [if_neg h, if_neg h]

/-- Different values have different canonical forms, however deep they nest. -/
theorem canonical_injective {a b : Json} (ha : a.Ordered) (hb : b.Ordered)
    (h : a.canonical = b.canonical) : a = b := by
  have hchars : a.chars = b.chars := String.ofList_injective h
  -- With levels enough for both, the same characters read as either.
  have hread {value : Json} (ordered : value.Ordered) {levels : Nat}
      (hlevels : value.nesting ≤ levels) :
      Read.value? value.chars.length levels value.chars = some (value, []) := by
    have hread := Read.value?_chars ordered levels le_rfl [] Read.closes_nil
    rwa [List.append_nil, if_pos hlevels] at hread
  have hfirst := hread ha (le_max_left a.nesting b.nesting)
  have hsecond := hread hb (le_max_right a.nesting b.nesting)
  rw [← hchars, hfirst] at hsecond
  exact (Prod.mk.inj (Option.some_inj.mp hsecond)).1

theorem parse?_canonical_of_nesting {value : Json} (ordered : value.Ordered)
    (h : value.nesting ≤ nestingLimit) : parse? value.canonical = some value := by
  rw [parse?_canonical ordered, if_pos h]

/-- The bytes of a text read as the text does. -/
theorem ofBytes?_toUTF8 (text : String) : ofBytes? text.toUTF8 = parse? text := by
  rw [ofBytes?, String.fromUTF8?, dif_pos (show text.toUTF8.IsValidUTF8 from text.isValidUTF8)]
  rfl

theorem ofBytes?_contentBytes {value : Json} (ordered : value.Ordered) :
    ofBytes? (Document.contentBytes value)
      = if value.nesting ≤ nestingLimit then some value else none := by
  rw [Document.contentBytes, ofBytes?_toUTF8, parse?_canonical ordered]

/-! ### What texts give -/

namespace Read

variable {read : List Char → Option (Json × List Char)} {P : Json → Prop}

theorem forall_mem_of_items?
    (hread : ∀ {cs value rest}, read cs = some (value, rest) → P value) {bound : Nat}
    {done items : List Json} {cs rest : List Char} (hdone : ∀ item ∈ done, P item)
    (h : items? read bound done cs = some (items, rest)) : ∀ item ∈ items, P item := by
  induction bound generalizing done cs with
  | zero => simp [items?] at h
  | succ bound ih =>
    rw [items?] at h
    split at h
    next => exact absurd h (by simp)
    next item more hitem =>
      have hmore : ∀ other ∈ item :: done, P other :=
        List.forall_mem_cons.mpr ⟨hread hitem, hdone⟩
      split at h
      next => exact ih hmore h
      next =>
        obtain ⟨rfl, -⟩ := Prod.mk.inj (Option.some_inj.mp h)
        exact fun other hmem => hmore other (List.mem_reverse.mp hmem)
      next => exact absurd h (by simp)

theorem forall_mem_of_members?
    (hread : ∀ {cs value rest}, read cs = some (value, rest) → P value) {bound : Nat}
    {done members : Keyed Json} {cs rest : List Char} (ascending : Keyed.Ascending done)
    (hdone : ∀ member ∈ done, P member.2)
    (h : members? read bound done cs = some (members, rest)) :
    Keyed.Ascending members ∧ ∀ member ∈ members, P member.2 := by
  induction bound generalizing done cs with
  | zero => simp [members?] at h
  | succ bound ih =>
    rw [members?] at h
    split at h
    next =>
      split at h
      next => simp at h
      next key _ _ =>
        split at h
        next =>
          split at h
          next => simp at h
          next value _ hvalue =>
            dsimp only at h
            have hkept : ∀ member ∈ Keyed.insert (String.ofList key) value done, P member.2 := by
              intro member hmem
              rcases Keyed.mem_of_mem_insert hmem with rfl | hmem
              · exact hread hvalue
              · exact hdone member hmem
            split at h
            next => exact ih ascending.insert hkept h
            next =>
              obtain ⟨rfl, -⟩ := Prod.mk.inj (Option.some_inj.mp h)
              exact ⟨ascending.insert, hkept⟩
            next => simp at h
        next => simp at h
    next => simp at h

/-- A value that is read is without items or members, or these are read with a level
less. -/
theorem value?_cases {bound levels : Nat} {cs rest : List Char} {value : Json}
    (h : value? bound levels cs = some (value, rest)) :
    (value.Ordered ∧ value.nesting = 0)
      ∨ ∃ fewer, levels = fewer + 1 ∧
        ((∃ items, value = .array items ∧ (items = [] ∨ ∃ cs rest,
            items? (value? bound fewer) bound [] cs = some (items, rest)))
          ∨ ∃ members, value = .object members ∧ (members = [] ∨ ∃ cs rest,
            members? (value? bound fewer) bound [] cs = some (members, rest))) := by
  rw [value?.eq_def] at h
  split at h
  next =>
    obtain ⟨rfl, -⟩ := Prod.mk.inj (Option.some_inj.mp h)
    exact Or.inl ⟨trivial, rfl⟩
  next =>
    obtain ⟨rfl, -⟩ := Prod.mk.inj (Option.some_inj.mp h)
    exact Or.inl ⟨trivial, rfl⟩
  next =>
    obtain ⟨rfl, -⟩ := Prod.mk.inj (Option.some_inj.mp h)
    exact Or.inl ⟨trivial, rfl⟩
  next =>
    obtain ⟨⟨text, more⟩, -, h⟩ := Option.map_eq_some_iff.mp h
    obtain ⟨rfl, -⟩ := Prod.mk.inj h
    exact Or.inl ⟨trivial, rfl⟩
  next =>
    cases levels with
    | zero => simp at h
    | succ fewer =>
      refine Or.inr ⟨fewer, rfl, Or.inl ?_⟩
      dsimp only at h
      split at h
      next =>
        obtain ⟨rfl, -⟩ := Prod.mk.inj (Option.some_inj.mp h)
        exact ⟨[], rfl, Or.inl rfl⟩
      next =>
        obtain ⟨⟨items, more⟩, hitems, h⟩ := Option.map_eq_some_iff.mp h
        obtain ⟨rfl, -⟩ := Prod.mk.inj h
        exact ⟨items, rfl, Or.inr ⟨_, _, hitems⟩⟩
  next =>
    cases levels with
    | zero => simp at h
    | succ fewer =>
      refine Or.inr ⟨fewer, rfl, Or.inr ?_⟩
      dsimp only at h
      split at h
      next =>
        obtain ⟨rfl, -⟩ := Prod.mk.inj (Option.some_inj.mp h)
        exact ⟨[], rfl, Or.inl rfl⟩
      next =>
        obtain ⟨⟨members, more⟩, hmembers, h⟩ := Option.map_eq_some_iff.mp h
        obtain ⟨rfl, -⟩ := Prod.mk.inj h
        exact ⟨members, rfl, Or.inr ⟨_, _, hmembers⟩⟩
  next =>
    obtain ⟨⟨n, more⟩, -, h⟩ := Option.map_eq_some_iff.mp h
    obtain ⟨rfl, -⟩ := Prod.mk.inj h
    exact Or.inl ⟨trivial, rfl⟩

/-- A value that is read has ascending members and nests no deeper than the levels
left. -/
theorem ordered_of_value? {bound levels : Nat} {cs rest : List Char} {value : Json}
    (h : value? bound levels cs = some (value, rest)) :
    value.Ordered ∧ value.nesting ≤ levels := by
  induction levels generalizing cs rest value with
  | zero =>
    rcases value?_cases h with ⟨ordered, flat⟩ | ⟨fewer, hlevels, -⟩
    · exact ⟨ordered, by omega⟩
    · exact absurd hlevels (by omega)
  | succ levels ih =>
    rcases value?_cases h with ⟨ordered, flat⟩ | ⟨fewer, hlevels, hcase⟩
    · exact ⟨ordered, by omega⟩
    obtain rfl : fewer = levels := by omega
    rcases hcase with ⟨items, rfl, hcase⟩ | ⟨members, rfl, hcase⟩
    · have hitems : ∀ item ∈ items, item.Ordered ∧ item.nesting ≤ fewer := by
        rcases hcase with rfl | ⟨cs, rest, hcase⟩
        · simp
        · exact forall_mem_of_items? ih (by simp) hcase
      refine ⟨ordered_array.mpr fun item hmem => (hitems item hmem).1, ?_⟩
      rw [nesting]
      exact Nat.succ_le_succ (nestingOfItems_le.mpr fun item hmem => (hitems item hmem).2)
    · have hmembers : Keyed.Ascending members
          ∧ ∀ member ∈ members, member.2.Ordered ∧ member.2.nesting ≤ fewer := by
        rcases hcase with rfl | ⟨cs, rest, hcase⟩
        · simp
        · exact forall_mem_of_members? ih Keyed.ascending_nil (by simp) hcase
      refine ⟨ordered_object.mpr ⟨hmembers.1, fun member hmem => (hmembers.2 member hmem).1⟩, ?_⟩
      rw [nesting]
      exact Nat.succ_le_succ
        (nestingOfMembers_le.mpr fun member hmem => (hmembers.2 member hmem).2)

end Read

/-- What a text spells has ascending members and nests no deeper than the limit. -/
theorem ordered_of_parse? {text : String} {value : Json} (h : parse? text = some value) :
    value.Ordered ∧ value.nesting ≤ nestingLimit := by
  rw [parse?, ofChars?] at h
  split at h
  next read rest hread =>
    split at h
    next => exact Option.some_inj.mp h ▸ Read.ordered_of_value? hread
    next => simp at h
  next => simp at h

end Json

end PlanHistory
