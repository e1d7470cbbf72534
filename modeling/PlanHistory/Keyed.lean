/-
Entries under text keys, in ascending order of the keys.

The members of a JSON object, the objects of a floor document and the blobs of a
store are all lists of key and value built with `insert`, which keeps the keys
ascending and replaces the value of a key already there.  `ascending` sorts plain
keys the same way, so a walk over a union of key sets is a walk over one list.
-/
namespace PlanHistory

/-- Entries under text keys. -/
abbrev Keyed (α : Type) := List (String × α)

namespace Keyed

variable {α : Type}

/-- The value under `key`. -/
def get? (key : String) (entries : Keyed α) : Option α :=
  entries.lookup key

/-- Put `value` under `key`, in its place among the keys or over the value there. -/
def insert (key : String) (value : α) : Keyed α → Keyed α
  | [] => [(key, value)]
  | entry :: entries =>
    if key < entry.1 then (key, value) :: entry :: entries
    else if key = entry.1 then (key, value) :: entries
    else entry :: insert key value entries

/-- Remove `key` and its value. -/
def erase (key : String) (entries : Keyed α) : Keyed α :=
  entries.filter fun entry => entry.1 != key

/-- The entries of a list in any order; the last value of a repeated key stays. -/
def ofEntries (entries : List (String × α)) : Keyed α :=
  entries.foldl (fun kept entry => insert entry.1 entry.2 kept) []

/-- The keys, in the order of the entries. -/
def keys (entries : Keyed α) : List String :=
  entries.map Prod.fst

/-- Put `value` under `key` if there is one. -/
def insert? (key : String) (value? : Option α) (entries : Keyed α) : Keyed α :=
  match value? with
  | some value => insert key value entries
  | none => entries

end Keyed

/-- Put a key in its place among ascending keys, once. -/
def insertKey (key : String) : List String → List String
  | [] => [key]
  | first :: keys =>
    if key < first then key :: first :: keys
    else if key = first then first :: keys
    else first :: insertKey key keys

/-- The distinct keys of a list, ascending. -/
def ascending (keys : List String) : List String :=
  keys.foldr insertKey []

end PlanHistory
