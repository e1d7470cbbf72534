/-
Tables whose rows are numbered.

A new row gets the number after the greatest that is there or was ever given, so that
ascending numbers are the order in which rows were written.  Only an edit of a number
takes a row out of that order; it does not change which number was given last.
-/
import PlanHistory.Failure
import PlanHistory.Record.IntegerCell

namespace PlanHistory

/-- A row with its number. -/
structure Numbered (ρ : Type) where
  number : Int
  row : ρ

/-- A table whose rows are numbered, in ascending order. -/
structure Roll (ρ : Type) where
  entries : List (Numbered ρ)
  /-- The number given last. -/
  last : Int

namespace Roll

variable {ρ : Type}

/-- A table without rows. -/
def empty : Roll ρ := ⟨[], 0⟩

/-- The rows, in ascending order of their numbers. -/
def rows (roll : Roll ρ) : List ρ :=
  roll.entries.map Numbered.row

/-- The greatest number that is there or was given. -/
def greatest (roll : Roll ρ) : Int :=
  roll.entries.foldl (fun greatest entry => max greatest entry.number) roll.last

/-- Add a row, which the table refuses once the numbers have run out. -/
def append (row : ρ) (roll : Roll ρ) : Except TableFault (Roll ρ) :=
  if greatestWord ≤ roll.greatest then .error .full
  else
    let number := roll.greatest + 1
    .ok ⟨roll.entries ++ [⟨number, row⟩], number⟩

/-- Change the rows that `applies` picks, and count them. -/
def update (applies : ρ → Bool) (change : ρ → ρ) (roll : Roll ρ) : Nat × Roll ρ :=
  (roll.rows.countP applies,
    { roll with
      entries := roll.entries.map fun entry =>
        if applies entry.row then { entry with row := change entry.row } else entry })

/-- Take over edited entries, which may have new numbers. -/
def withEntries (entries : List (Numbered ρ)) (roll : Roll ρ) : Roll ρ :=
  { roll with entries := entries.mergeSort fun a b => decide (a.number ≤ b.number) }

end Roll

end PlanHistory
