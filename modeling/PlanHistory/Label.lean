/-
Names under which the values of a closed kind are stored and shown.

A kind that is `Labelled` lists its values and names each; `ofLabel?` finds the value
of a name, and `UnknownLabel` says which kind of name was expected when there is none.
-/
namespace PlanHistory

/-- A closed kind whose values have names. -/
class Labelled (α : Type) where
  /-- What the kind is called. -/
  noun : String
  /-- The name of a value. -/
  label : α → String
  /-- All values. -/
  all : List α

export Labelled (label)

/-- A text that names no value of the kind called `noun`. -/
structure UnknownLabel where
  noun : String
  text : String
deriving DecidableEq, Repr

/-- The refusal as text. -/
def UnknownLabel.message (unknown : UnknownLabel) : String :=
  s!"unknown {unknown.noun} '{unknown.text}'"

/-- The value that a text names. -/
def ofLabel? {α : Type} [Labelled α] (text : String) : Option α :=
  (Labelled.all : List α).find? fun value => label value == text

/-- The value that a text names, or a refusal. -/
def ofLabel {α : Type} [Labelled α] (text : String) : Except UnknownLabel α :=
  match ofLabel? text with
  | some value => .ok value
  | none => .error ⟨Labelled.noun α, text⟩

end PlanHistory
