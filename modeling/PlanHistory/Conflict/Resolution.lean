/-
Resolutions: labels that settle a divergence.

A label is free text.  Three labels choose a side or overlay the two; any other text
is a replacement of its own, read as JSON where it can be.

* **`Resolution.object?`** — the value an object gets, `none` for removal;
* **`Resolution.property?`** — the same for a single property.
-/
import PlanHistory.Document
import PlanHistory.Json.Parser
import PlanHistory.Text.Blank

namespace PlanHistory

/-- What a label asks for. -/
inductive Resolution where
  | sourceWins
  | targetWins
  | overlay
  | custom (text : String)
deriving DecidableEq

namespace Resolution

/-- The resolution of a label.  White space around the three known labels does not
count; any other label is kept as it stands. -/
def ofLabel (label : String) : Resolution :=
  match Text.trim label with
  | "source_wins" => .sourceWins
  | "target_wins" => .targetWins
  | "merge" => .overlay
  | _ => .custom label

/-- The label of a resolution. -/
def label : Resolution → String
  | .sourceWins => "source_wins"
  | .targetWins => "target_wins"
  | .overlay => "merge"
  | .custom text => text

/-- The members of `upper` written over those of `lower`. -/
def overlayMembers (lower upper : Keyed Json) : Keyed Json :=
  upper.foldl (fun members entry => Keyed.insert entry.1 entry.2 members) lower

/-- The source with the target's members over it; without two objects, the target if
there is one. -/
def overlaid? (source? target? : Option Json) : Option Json :=
  match source?, target? with
  | some (.object source), some (.object target) => some (.object (overlayMembers source target))
  | some source, none => some source
  | _, target? => target?

/-- The value an object gets.  A custom object keeps the id it is indexed under, a
custom `null` removes the object, and other custom text leaves the target's value. -/
def object? (resolution : Resolution) (source? target? : Option Json) : Option Json :=
  match resolution with
  | .sourceWins => source?
  | .targetWins => target?
  | .overlay => overlaid? source? target?
  | .custom text =>
    match Json.parse? text with
    | some .null => none
    | some (.object members) =>
      let id? := (source?.or target?).bind (Json.get? Document.idKey)
      some (.object (Keyed.insert? Document.idKey id? members))
    | _ => target?

/-- The value a property gets.  Custom text that is JSON is the value, `null`
included; other custom text leaves the target's value. -/
def property? (resolution : Resolution) (source? target? : Option Json) : Option Json :=
  match resolution with
  | .sourceWins => source?
  | .targetWins => target?
  | .overlay =>
    match source?, target? with
    | some (.object _), some (.object _) => overlaid? source? target?
    | some source, _ => some source
    | none, target? => target?
  | .custom text =>
    match Json.parse? text with
    | some value => some value
    | none => target?

end Resolution

end PlanHistory
