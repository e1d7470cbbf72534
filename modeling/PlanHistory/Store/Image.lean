/-
The tables of a store as the bytes of a file.

Each row is written as the texts of its columns.  The bytes start with a mark that no
text starts with, so a file of tables is never taken for a text or a text for one; a
file without bytes holds tables without rows.
-/
import PlanHistory.Json.Printer
import PlanHistory.Store.Tables

namespace PlanHistory

/-- The texts of the columns of a row. -/
abbrev Cells := List (Option String)

namespace Cell

/-- An integer as the text of a column. -/
def ofInt (i : Int) : Option String :=
  some (String.ofList (Decimal.signedNumeral i))

/-- The integer in a column. -/
def int? (text : String) : Option Int :=
  match text.toList with
  | '-' :: digits => if digits.all Char.isDigit then some (-(Decimal.ofNumeral digits : Int)) else none
  | digits => if digits.all Char.isDigit then some (Decimal.ofNumeral digits) else none

/-- A coordinate as the text of a column. -/
def ofCoordinate (x? : Option Coordinate) : Option String :=
  x?.map fun x => String.ofList (x.render Layout.json)

/-- The coordinate in a column. -/
def coordinate? : Option String → Option (Option Coordinate)
  | none => some none
  | some text => Coordinate.ofText? text

end Cell

namespace Numbered

variable {ρ : Type}

/-- The columns of a numbered row: its number, then those of the row. -/
def cells (rowCells : ρ → Cells) (entry : Numbered ρ) : Cells :=
  Cell.ofInt entry.number :: rowCells entry.row

/-- The numbered row of columns. -/
def ofCells? (rowOfCells? : Cells → Option ρ) : Cells → Option (Numbered ρ)
  | some number :: cells => do return ⟨← Cell.int? number, ← rowOfCells? cells⟩
  | _ => none

end Numbered

namespace VersionRow

/-- The columns of a version. -/
def cells (row : VersionRow) : Cells :=
  [some row.id, some row.plan.building, some row.plan.floor, some row.branch, row.parent?,
   some (label row.kind), some row.number, some row.sequence.spelling, some row.message,
   some row.author, some row.createdAt, some row.contentHash, some row.contentSize.spelling,
   some row.metadata]

/-- The version of columns. -/
def ofCells? : Cells → Option VersionRow
  | [some id, some building, some floor, some branch, parent?, some kind, some number,
     some sequence, some message, some author, some createdAt, some contentHash,
     some contentSize, some metadata] => do
    let kind ← ofLabel? kind
    return { id, plan := ⟨building, floor⟩, branch, parent?, kind, number,
             sequence := .ofText sequence, message, author, createdAt, contentHash,
             contentSize := .ofText contentSize, metadata }
  | _ => none

end VersionRow

namespace BranchRow

/-- The columns of a branch. -/
def cells (row : BranchRow) : Cells :=
  [some row.name, some row.plan.building, some row.plan.floor, some row.base, some row.head,
   some row.status, some row.createdBy, some row.createdAt, some row.updatedAt,
   some row.description]

/-- The branch of columns. -/
def ofCells? : Cells → Option BranchRow
  | [some name, some building, some floor, some base, some head, some status,
     some createdBy, some createdAt, some updatedAt, some description] =>
    some { name, plan := ⟨building, floor⟩, base, head, status, createdBy, createdAt,
           updatedAt, description }
  | _ => none

end BranchRow

namespace MergeRow

/-- The columns of a merge request. -/
def cells (row : MergeRow) : Cells :=
  [some row.id, some row.sourceBranch, some row.targetBranch, some row.plan.building,
   some row.plan.floor, some row.status, some row.strategy, some row.source,
   some row.target, row.base?, row.result?, some row.createdBy, some row.createdAt,
   row.mergedBy?, row.mergedAt?, some row.description]

/-- The merge request of columns. -/
def ofCells? : Cells → Option MergeRow
  | [some id, some sourceBranch, some targetBranch, some building, some floor,
     some status, some strategy, some source, some target, base?, result?,
     some createdBy, some createdAt, mergedBy?, mergedAt?, some description] =>
    some { id, sourceBranch, targetBranch, plan := ⟨building, floor⟩, status, strategy,
           source, target, base?, result?, createdBy, createdAt, mergedBy?, mergedAt?,
           description }
  | _ => none

end MergeRow

namespace ConflictRow

/-- The columns of a conflict. -/
def cells (row : ConflictRow) : Cells :=
  [row.id, some row.merge, some row.kind, some row.object, row.property?,
   row.source?, row.target?, row.resolution?, row.resolvedBy?, row.resolvedAt?,
   some row.createdAt]

/-- The conflict of columns. -/
def ofCells? : Cells → Option ConflictRow
  | [id, some merge, some kind, some object, property?, source?, target?,
     resolution?, resolvedBy?, resolvedAt?, some createdAt] =>
    some { id, merge, kind, object, property?, source?, target?, resolution?, resolvedBy?,
           resolvedAt?, createdAt }
  | _ => none

end ConflictRow

namespace NoteRow

/-- The columns of a note. -/
def cells (row : NoteRow) : Cells :=
  [some row.id, some row.version, some row.plan.building, some row.plan.floor, row.object?,
   Cell.ofCoordinate row.x?, Cell.ofCoordinate row.y?, some row.kind, some row.title,
   some row.content, some row.author, some row.createdAt, some row.updatedAt]

/-- The note of columns. -/
def ofCells? : Cells → Option NoteRow
  | [some id, some version, some building, some floor, object?, x?, y?, some kind,
     some title, some content, some author, some createdAt, some updatedAt] => do
    let x? ← Cell.coordinate? x?
    let y? ← Cell.coordinate? y?
    return { id, version, plan := ⟨building, floor⟩, object?, x?, y?, kind, title, content,
             author, createdAt, updatedAt }
  | _ => none

end NoteRow

namespace CommentRow

/-- The columns of a comment. -/
def cells (row : CommentRow) : Cells :=
  [some row.id, some row.parent, some (label row.parentKind), some row.author,
   some row.content, some row.createdAt, some row.updatedAt]

/-- The comment of columns. -/
def ofCells? : Cells → Option CommentRow
  | [some id, some parent, some parentKind, some author, some content, some createdAt,
     some updatedAt] => do
    let parentKind ← ofLabel? parentKind
    return { id, parent, parentKind, author, content, createdAt, updatedAt }
  | _ => none

end CommentRow

namespace Tables

/-- The text of a column in a file. -/
def cellJson : Option String → Json
  | some text => .string text
  | none => .null

/-- The text of a column of a file. -/
def cell? : Json → Option (Option String)
  | .string text => some (some text)
  | .null => some none
  | _ => none

/-- Rows in a file. -/
def rowsJson {ρ : Type} (cells : ρ → Cells) (rows : List ρ) : Json :=
  .array (rows.map fun row => .array ((cells row).map cellJson))

/-- The rows of a table of a file. -/
def rows? {ρ : Type} (ofCells? : Cells → Option ρ) (table? : Option Json) :
    Option (List ρ) := do
  let rows ← table?.bind Json.items?
  rows.mapM fun row => do
    let cells ← row.items?
    (← cells.mapM cell?) |> ofCells?

/-- Numbered rows in a file. -/
def rollJson {ρ : Type} (cells : ρ → Cells) (roll : Roll ρ) : Json :=
  Json.ofMembers [("last", cellJson (Cell.ofInt roll.last)),
    ("rows", rowsJson (Numbered.cells cells) roll.entries)]

/-- The numbered rows of a table of a file. -/
def roll? {ρ : Type} (ofCells? : Cells → Option ρ) (table? : Option Json) :
    Option (Roll ρ) := do
  let table ← table?
  let last ← (← cell? (← table.get? "last"))
  let entries ← rows? (Numbered.ofCells? ofCells?) (table.get? "rows")
  return ⟨entries, ← Cell.int? last⟩

/-- The bytes that a file of tables starts with. -/
def mark : List UInt8 := [0xFF, 0x50, 0x48]

/-- The bytes of tables. -/
def image (tables : Tables) : ByteArray :=
  let json := Json.ofMembers
    [("versions", rollJson VersionRow.cells tables.versions),
     ("branches", rowsJson BranchRow.cells tables.branches),
     ("merges", rollJson MergeRow.cells tables.merges),
     ("conflicts", rowsJson ConflictRow.cells tables.conflicts),
     ("notes", rowsJson NoteRow.cells tables.notes),
     ("comments", rowsJson CommentRow.cells tables.comments)]
  ByteArray.mk mark.toArray ++ json.canonical.toUTF8

/-- The tables of the bytes of a file. -/
def ofImage? (bytes : ByteArray) : Option Tables := do
  if bytes.isEmpty then return empty
  if (bytes.extract 0 mark.length).toList != mark then none
  let json ← Json.ofBytes? (bytes.extract mark.length bytes.size)
  return {
    versions := ← roll? VersionRow.ofCells? (json.get? "versions")
    branches := ← rows? BranchRow.ofCells? (json.get? "branches")
    merges := ← roll? MergeRow.ofCells? (json.get? "merges")
    conflicts := ← rows? ConflictRow.ofCells? (json.get? "conflicts")
    notes := ← rows? NoteRow.ofCells? (json.get? "notes")
    comments := ← rows? CommentRow.ofCells? (json.get? "comments") }

end Tables

end PlanHistory
