/-
Floor documents: what may be committed, and the objects inside.

A floor document is a JSON object whose optional `objects` array holds the rooms,
devices and other items of a floor, each carrying an `id`.

* **`Document.validate`** — accepts a document or names the first thing wrong;
* **`Document.orderedObjects`** — the objects under their keys, in document order;
* **`Document.objectMap`** — the same by ascending key;
* **`Document.contentHash`** — the digest of the canonical form.
-/
import PlanHistory.Json.Printer
import PlanHistory.Sha256

namespace PlanHistory

namespace Document

/-- The member that holds the objects of a floor. -/
def objectsKey : String := "objects"

/-- The member that names an object. -/
def idKey : String := "id"

/-- The bytes that are stored and hashed: the canonical form in UTF-8. -/
def contentBytes (document : Json) : ByteArray :=
  document.canonical.toUTF8

/-- The digest that tells contents apart. -/
def contentHash (document : Json) : String :=
  Sha256.hex (contentBytes document)

/-- The key an object is indexed by: a nonempty text `id` as it stands, an integer
`id` in decimal.  So `7` and `"7"` name the same object. -/
def objectKey? (object : Json) : Option String :=
  match object.get? idKey with
  | some (.string id) => if id.isEmpty then none else some id
  | some (.number (.whole id)) => some (String.ofList (Decimal.signedNumeral id.val))
  | _ => none

/-- What can be wrong with a document. -/
inductive Defect where
  | notAnObject
  | objectsNotAnArray
  | itemNotAnObject (index : Nat)
  | itemWithoutId (index : Nat)
  | repeatedId (index : Nat) (key : String)
deriving DecidableEq

namespace Defect

/-- The place at which something is wrong. -/
def field : Defect → String
  | .notAnObject => "document"
  | .objectsNotAnArray => objectsKey
  | .itemNotAnObject index => s!"{objectsKey}[{index}]"
  | .itemWithoutId index => s!"{objectsKey}[{index}].id"
  | .repeatedId index _ => s!"{objectsKey}[{index}].id"

/-- What is wrong there. -/
def detail : Defect → String
  | .notAnObject => "must be a JSON object"
  | .objectsNotAnArray => "must be an array"
  | .itemNotAnObject _ => "must be a JSON object"
  | .itemWithoutId _ => "must be a non-empty string or an integer"
  | .repeatedId _ key => s!"duplicate object id '{key}'"

end Defect

/-- The first defect among the items of `objects` from `index` on, if the keys `seen`
are taken. -/
def firstDefect? (index : Nat) (seen : List String) : List Json → Option Defect
  | [] => none
  | item :: items =>
    match item.members? with
    | none => some (.itemNotAnObject index)
    | some _ =>
      match objectKey? item with
      | none => some (.itemWithoutId index)
      | some key =>
        if seen.contains key then some (.repeatedId index key)
        else firstDefect? (index + 1) (key :: seen) items

/-- What is wrong with a document, if anything: it must be an object, and `objects`,
if there, an array of objects with usable and different ids. -/
def defect? (document : Json) : Option Defect :=
  match document.members? with
  | none => some .notAnObject
  | some members =>
    match Keyed.get? objectsKey members with
    | none => none
    | some objects =>
      match objects.items? with
      | none => some .objectsNotAnArray
      | some items => firstDefect? 0 [] items

/-- Accept a document or say what is wrong with it. -/
def validate (document : Json) : Except Defect Unit :=
  match defect? document with
  | some defect => .error defect
  | none => .ok ()

/-- The items of `objects` that carry a usable id, under their keys, in document
order.  In a valid document those are all items. -/
def orderedObjects (document : Json) : List (String × Json) :=
  match (document.get? objectsKey).bind Json.items? with
  | some items => items.filterMap fun item => (objectKey? item).map fun key => (key, item)
  | none => []

/-- The objects by ascending key; of two under one key the later. -/
def objectMap (document : Json) : Keyed Json :=
  Keyed.ofEntries (orderedObjects document)

end Document

end PlanHistory
