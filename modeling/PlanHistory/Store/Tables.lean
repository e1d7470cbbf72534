/-
The tables of a store.

A table is its rows in the order they were written, numbered where an edit can change
that order, and no row is ever removed.  Functions that read a row fail on a text that is no value of its column;
functions that change a table refuse a key that is taken and a reference to a version
or a merge request that is not there, and say how many rows they changed.
-/
import PlanHistory.Store.Roll
import PlanHistory.Store.Row

namespace PlanHistory

/-- The tables, each in the order its rows were written. -/
structure Tables where
  versions : Roll VersionRow
  branches : List BranchRow
  merges : Roll MergeRow
  conflicts : List ConflictRow
  notes : List NoteRow
  comments : List CommentRow

namespace Tables

/-- Tables without rows. -/
def empty : Tables := ⟨.empty, [], .empty, [], [], []⟩

/-- A row read back, as the tables report it. -/
def readRow {ρ α : Type} (read : ρ → Except BadCell α) (row : ρ) : Except TableFault α :=
  match read row with
  | .ok record => .ok record
  | .error cell => .error (.badCell cell)

/-- The record of a row, if there is a row. -/
def readRow? {ρ α : Type} (read : ρ → Except BadCell α) :
    Option ρ → Except TableFault (Option α)
  | none => .ok none
  | some row => (readRow read row).map some

/-- The records of rows; one that cannot be read fails all. -/
def readRows {ρ α : Type} (read : ρ → Except BadCell α) (rows : List ρ) :
    Except TableFault (List α) :=
  rows.mapM (readRow read)

/-- Change the rows that `applies` picks, and count them. -/
def update {ρ : Type} (applies : ρ → Bool) (change : ρ → ρ) (rows : List ρ) :
    Nat × List ρ :=
  (rows.countP applies, rows.map fun row => if applies row then change row else row)

/-- Rows by ascending text, those of one text in the order they were written. -/
def ascendingBy {ρ : Type} (text : ρ → String) (rows : List ρ) : List ρ :=
  rows.mergeSort fun a b => decide (text a ≤ text b)

end Tables

end PlanHistory
