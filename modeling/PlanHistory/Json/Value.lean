/-
JSON values as floor documents hold them.

A number is a 64-bit integer or a finite double, and the two never equal each other.
The members of an object are entries under ascending keys, so an object has one form
whatever the order in its text.  Equality of values is `Json.same`: structural but
for the two zeros among the doubles.
-/
import PlanHistory.Keyed
import PlanHistory.Number.Binary64

namespace PlanHistory

/-- The integers of a document: what fits a signed or an unsigned 64-bit word. -/
abbrev WideInt := { i : Int // -0x8000000000000000 ≤ i ∧ i < 0x10000000000000000 }

/-- A number of a document. -/
inductive Number where
  | whole (value : WideInt)
  | float (value : Binary64)
deriving DecidableEq

/-- Equality of numbers; an integer and a double are never equal. -/
def Number.same : Number → Number → Bool
  | .whole i, .whole j => i.val == j.val
  | .float x, .float y => x.same y
  | _, _ => false

/-- A JSON value. -/
inductive Json where
  | null
  | bool (value : Bool)
  | number (value : Number)
  | string (value : String)
  | array (items : List Json)
  | object (members : List (String × Json))

namespace Json

mutual

/-- Equality of values. -/
def same : Json → Json → Bool
  | .null, .null => true
  | .bool a, .bool b => a == b
  | .number a, .number b => a.same b
  | .string a, .string b => a == b
  | .array as, .array bs => sameItems as bs
  | .object as, .object bs => sameMembers as bs
  | _, _ => false

/-- Equality of items, place by place. -/
def sameItems : List Json → List Json → Bool
  | [], [] => true
  | a :: as, b :: bs => same a b && sameItems as bs
  | _, _ => false

/-- Equality of members, key by key. -/
def sameMembers : List (String × Json) → List (String × Json) → Bool
  | [], [] => true
  | (k, a) :: as, (l, b) :: bs => k == l && same a b && sameMembers as bs
  | _, _ => false

end

instance : BEq Json := ⟨same⟩

/-- The members, if the value is an object. -/
def members? : Json → Option (Keyed Json)
  | .object members => some members
  | _ => none

/-- The items, if the value is an array. -/
def items? : Json → Option (List Json)
  | .array items => some items
  | _ => none

/-- The member under `key`, if the value is an object that has it. -/
def get? (key : String) (value : Json) : Option Json :=
  value.members?.bind (Keyed.get? key)

/-- The object with the given members, in any order; of a repeated key the last
value stays. -/
def ofMembers (members : List (String × Json)) : Json :=
  .object (Keyed.ofEntries members)

end Json

end PlanHistory
