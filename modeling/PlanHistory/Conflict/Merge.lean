/-
The merged document of two floor documents.

Each object and each property of the merged document gets a `Verdict`: what the
rules of merging give, what a recorded resolution gives, or — where neither speaks —
the target's value.  `Merge.document` puts the verdicts together: the objects in the
source's order, then those of the target alone in the target's order, and around them
the other members of the two documents.
-/
import PlanHistory.Conflict.Detection
import PlanHistory.Conflict.Resolution

namespace PlanHistory

/-- A divergence and the label that settles it, if one does. -/
structure Ruling extends Divergence where
  label? : Option String

namespace Ruling

/-- The resolution that the label asks for. -/
def resolution? (ruling : Ruling) : Option Resolution :=
  ruling.label?.map Resolution.ofLabel

/-- The last settled ruling on an object, or on a property of it, with its
resolution. -/
def find? (rulings : List Ruling) (object : String) (property? : Option String) :
    Option (Ruling × Resolution) :=
  rulings.reverse.findSome? fun ruling =>
    if ruling.object == object && ruling.property? == property? then
      ruling.resolution?.map fun resolution => (ruling, resolution)
    else none

end Ruling

/-- Why an object or a property of a merged document has its value; `none` is
absence. -/
inductive Verdict where
  /-- The rules of merging give the value. -/
  | merged (value? : Option Json)
  /-- A recorded resolution gives the value. -/
  | settled (value? : Option Json)
  /-- Both sides changed the value and nothing settles it: the target's stays. -/
  | unsettled (value? : Option Json)

namespace Verdict

/-- The value of a verdict. -/
def value? : Verdict → Option Json
  | .merged value? => value?
  | .settled value? => value?
  | .unsettled value? => value?

end Verdict

namespace Merge

/-- The verdict on one property of an object that all three documents have. -/
def property (rulings : List Ruling) (object property : String)
    (base? source? target? : Option Json) : Verdict :=
  if source? == target? || source? == base? then .merged target?
  else if target? == base? then .merged source?
  else
    match Ruling.find? rulings object (some property) with
    | some (_, resolution) => .settled (resolution.property? source? target?)
    | none => .unsettled target?

/-- The members of an object that all three documents have. -/
def members (rulings : List Ruling) (object : String) (base source target : Keyed Json) :
    Keyed Json :=
  let keys := ascending (Keyed.keys base ++ Keyed.keys source ++ Keyed.keys target)
  keys.foldl
    (fun merged key =>
      let verdict := property rulings object key (Keyed.get? key base)
        (Keyed.get? key source) (Keyed.get? key target)
      Keyed.insert? key verdict.value? merged)
    []

/-- The verdict on an object by its values in three documents, properties merged one
by one where all three have it. -/
def threeWayObject (rulings : List Ruling) (object : String)
    (base? source? target? : Option Json) : Verdict :=
  if source? == target? || source? == base? then .merged target?
  else if target? == base? then .merged source?
  else
    match base?, source?, target? with
    | some (.object base), some (.object source), some (.object target) =>
      .merged (some (.object (members rulings object base source target)))
    | _, _, _ => .unsettled target?

/-- The verdict on an object by its values in two documents. -/
def twoWayObject (source? target? : Option Json) : Verdict :=
  if source? == target? then .merged source? else .unsettled target?

/-- The verdict on an object: a resolution of the whole object first, applied to the
values it was recorded with, and the rules of merging otherwise. -/
def object (rulings : List Ruling) (base? : Option (Keyed Json))
    (sources targets : Keyed Json) (object : String) : Verdict :=
  let source? := Keyed.get? object sources
  let target? := Keyed.get? object targets
  match Ruling.find? rulings object none with
  | some (ruling, resolution) =>
    .settled (resolution.object? (ruling.source?.or source?) (ruling.target?.or target?))
  | none =>
    match base? with
    | some bases => threeWayObject rulings object (Keyed.get? object bases) source? target?
    | none => twoWayObject source? target?

/-- The keys of the merged document's objects: the source's in its order, then those
of the target alone in the target's. -/
def order (source target : Json) : List String :=
  let sources := Document.orderedObjects source
  let targets := Document.orderedObjects target
  Keyed.keys sources ++
    (Keyed.keys targets).filter fun key => !(Keyed.keys sources).contains key

/-- The members beside `objects`, three-way: the target's value where the source left
the base's, and the source's otherwise. -/
def topLevel (base source target : Keyed Json) : Keyed Json :=
  let keys := (ascending (Keyed.keys base ++ Keyed.keys source ++ Keyed.keys target)).filter
    (· != Document.objectsKey)
  keys.foldl
    (fun merged key =>
      let source? := Keyed.get? key source
      let value? := if source? == Keyed.get? key base then Keyed.get? key target else source?
      Keyed.insert? key value? merged)
    []

/-- The objects of the merged document. -/
def objects (base? : Option Json) (source target : Json) (rulings : List Ruling) : List Json :=
  let bases? := base?.map Document.objectMap
  let sources := Document.objectMap source
  let targets := Document.objectMap target
  (order source target).filterMap fun key => (object rulings bases? sources targets key).value?

/-- The merged document.  `objects` is there exactly if one of the two sides has it. -/
def document (base? : Option Json) (source target : Json) (rulings : List Ruling) : Json :=
  let membersOf (value : Json) : Keyed Json := value.members?.getD []
  let around :=
    match base? with
    | some base => topLevel (membersOf base) (membersOf source) (membersOf target)
    | none => membersOf source
  if (source.get? Document.objectsKey).isSome || (target.get? Document.objectsKey).isSome then
    .object (Keyed.insert Document.objectsKey (.array (objects base? source target rulings)) around)
  else .object (Keyed.erase Document.objectsKey around)

end Merge

end PlanHistory
