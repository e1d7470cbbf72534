/-
The identity of a floor plan: a floor of a building.

Versions, branches, merge requests and notes belong to one floor plan each.  Its
written form is `building/floor`, split at the first slash.
-/
import PlanHistory.Label

namespace PlanHistory

/-- A floor of a building. -/
structure PlanId where
  building : String
  floor : String
deriving DecidableEq, Repr

namespace PlanId

/-- The written form. -/
def text (plan : PlanId) : String :=
  s!"{plan.building}/{plan.floor}"

/-- The floor plan of a written form; both sides of the first slash must be there. -/
def ofText (text : String) : Except UnknownLabel PlanId :=
  let building := text.toList.takeWhile (· != '/')
  match text.toList.dropWhile (· != '/') with
  | '/' :: floor =>
    if building.isEmpty || floor.isEmpty then .error ⟨"document id", text⟩
    else .ok ⟨String.ofList building, String.ofList floor⟩
  | _ => .error ⟨"document id", text⟩

end PlanId

end PlanHistory
