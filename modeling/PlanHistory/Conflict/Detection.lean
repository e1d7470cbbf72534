/-
Divergences between the objects of two floor documents.

* **`Divergence.twoWay`** — every object whose value differs between two documents;
* **`Divergence.threeWay`** — what both of two documents changed, and differently,
  since a common base: property by property where all three have the object, and as
  a whole otherwise.

Both lists ascend by object and then by property, because each walks one ascending
list of keys.
-/
import PlanHistory.Document
import PlanHistory.Label

namespace PlanHistory

/-- How the two sides of a merge diverge at an object. -/
inductive ConflictKind where
  | objectModified
  | objectAdded
  | objectDeleted
  | propertyConflict
deriving DecidableEq, Repr

instance : Labelled ConflictKind where
  noun := "conflict type"
  label
    | .objectModified => "object_modified"
    | .objectAdded => "object_added"
    | .objectDeleted => "object_deleted"
    | .propertyConflict => "property_conflict"
  all := [.objectModified, .objectAdded, .objectDeleted, .propertyConflict]

/-- A divergence at an object, or at one property of it, with the value on either
side; `none` is absence. -/
structure Divergence where
  kind : ConflictKind
  object : String
  property? : Option String
  source? : Option Json
  target? : Option Json

namespace Divergence

/-- Whether one of three values agrees with another, so that merging needs no
decision. -/
def agrees (base? source? target? : Option Json) : Bool :=
  source? == target? || source? == base? || target? == base?

/-- A divergence at a whole object, of the kind that says which sides have it. -/
def ofObject? (object : String) (source? target? : Option Json) : Option Divergence :=
  match source?, target? with
  | some _, some _ => some ⟨.objectModified, object, none, source?, target?⟩
  | some _, none => some ⟨.objectAdded, object, none, source?, target?⟩
  | none, some _ => some ⟨.objectDeleted, object, none, source?, target?⟩
  | none, none => none

/-- The objects that differ between two documents. -/
def twoWay (source target : Json) : List Divergence :=
  let sources := Document.objectMap source
  let targets := Document.objectMap target
  (ascending (Keyed.keys sources ++ Keyed.keys targets)).filterMap fun object =>
    let source? := Keyed.get? object sources
    let target? := Keyed.get? object targets
    if source? == target? then none else ofObject? object source? target?

/-- The properties of an object that both sides changed, differently. -/
def ofProperties (object : String) (base source target : Keyed Json) : List Divergence :=
  (ascending (Keyed.keys base ++ Keyed.keys source ++ Keyed.keys target)).filterMap
    fun property =>
      let source? := Keyed.get? property source
      let target? := Keyed.get? property target
      if agrees (Keyed.get? property base) source? target? then none
      else some ⟨.propertyConflict, object, some property, source?, target?⟩

/-- The divergences at one object of three documents. -/
def atObject (object : String) (base? source? target? : Option Json) : List Divergence :=
  if agrees base? source? target? then []
  else
    match base?, source?, target? with
    | some (.object base), some (.object source), some (.object target) =>
      ofProperties object base source target
    | _, _, _ => (ofObject? object source? target?).toList

/-- What two documents both changed, differently, since their common base. -/
def threeWay (base source target : Json) : List Divergence :=
  let bases := Document.objectMap base
  let sources := Document.objectMap source
  let targets := Document.objectMap target
  (ascending (Keyed.keys bases ++ Keyed.keys sources ++ Keyed.keys targets)).flatMap
    fun object =>
      atObject object (Keyed.get? object bases) (Keyed.get? object sources)
        (Keyed.get? object targets)

end Divergence

end PlanHistory
