/-
Rows: records as the tables keep them.

Times, metadata, values and most labels are kept as text.  `store` writes a record
down and `read` reads a row back; a text that is no value of its column fails the
reading of its row, by the number of the column, and so does a value that is not of
the type of its column.
-/
import PlanHistory.Failure
import PlanHistory.Json.Parser
import PlanHistory.Record.Branch
import PlanHistory.Record.Merge
import PlanHistory.Record.Note
import PlanHistory.Record.Version

namespace PlanHistory

namespace Cell

/-- The instant in a column. -/
def time (column : Nat) (text : String) : Except BadCell Timestamp :=
  match Timestamp.ofText? text with
  | some t => .ok t
  | none => .error ⟨column, .time⟩

/-- The value in a column. -/
def json (column : Nat) (text : String) : Except BadCell Json :=
  match Json.parse? text with
  | some value => .ok value
  | none => .error ⟨column, .json⟩

/-- The members of the object in a column. -/
def members (column : Nat) (text : String) : Except BadCell (Keyed Json) :=
  match (Json.parse? text).bind Json.members? with
  | some members => .ok members
  | none => .error ⟨column, .json⟩

/-- The value that is named in a column. -/
def labelled {α : Type} [Labelled α] (column : Nat) (text : String) : Except BadCell α :=
  match ofLabel text with
  | .ok value => .ok value
  | .error unknown => .error ⟨column, .label unknown⟩

/-- The integer in a column. -/
def integer (column : Nat) (name : String) : IntegerCell → Except BadCell Int
  | .whole i => .ok i
  | .real _ => .error ⟨column, .kind .real name⟩
  | .text _ => .error ⟨column, .kind .text name⟩

/-- The text in a column, which must not be empty. -/
def present (column : Nat) (name : String) : Option String → Except BadCell String
  | some text => .ok text
  | none => .error ⟨column, .kind .null name⟩

/-- What a column holds if it is not empty. -/
def optional {α : Type} (read : String → Except BadCell α) :
    Option String → Except BadCell (Option α)
  | none => .ok none
  | some text => (read text).map some

end Cell

namespace VersionRow

/-- The row of a version. -/
def store (version : Version) : VersionRow :=
  { version with
    sequence := .whole version.sequence
    createdAt := version.createdAt.text
    contentSize := .whole version.contentSize
    metadata := (Json.object version.metadata).canonical }

/-- The version of a row. -/
def read (row : VersionRow) : Except BadCell Version := do
  let sequence ← Cell.integer 7 "branch_seq" row.sequence
  let createdAt ← Cell.time 10 row.createdAt
  let contentSize ← Cell.integer 12 "content_size" row.contentSize
  let metadata ← Cell.members 13 row.metadata
  return { row with sequence, createdAt, contentSize, metadata }

end VersionRow

namespace BranchRow

/-- The row of a branch. -/
def store (branch : Branch) : BranchRow :=
  { branch with
    status := label branch.status
    createdAt := branch.createdAt.text
    updatedAt := branch.updatedAt.text }

/-- The branch of a row. -/
def read (row : BranchRow) : Except BadCell Branch := do
  let status ← Cell.labelled 5 row.status
  let createdAt ← Cell.time 7 row.createdAt
  let updatedAt ← Cell.time 8 row.updatedAt
  return { row with status, createdAt, updatedAt }

end BranchRow

namespace MergeRow

/-- The row of a merge request. -/
def store (request : MergeRequest) : MergeRow :=
  { request with
    status := label request.status
    createdAt := request.createdAt.text
    mergedAt? := request.mergedAt?.map Timestamp.text }

/-- The merge request of a row. -/
def read (row : MergeRow) : Except BadCell MergeRequest := do
  let status ← Cell.labelled 5 row.status
  let createdAt ← Cell.time 12 row.createdAt
  let mergedAt? ← Cell.optional (Cell.time 14) row.mergedAt?
  return { row with status, createdAt, mergedAt? }

end MergeRow

namespace ConflictRow

/-- The row of a conflict. -/
def store (conflict : Conflict) : ConflictRow :=
  { conflict with
    id := some conflict.id
    kind := label conflict.kind
    source? := conflict.source?.map Json.canonical
    target? := conflict.target?.map Json.canonical
    resolvedAt? := conflict.resolvedAt?.map Timestamp.text
    createdAt := conflict.createdAt.text }

/-- The id of the conflict of a row. -/
def readId (row : ConflictRow) : Except BadCell String :=
  Cell.present 0 "conflict_id" row.id

/-- The conflict of a row. -/
def read (row : ConflictRow) : Except BadCell Conflict := do
  let id ← row.readId
  let kind ← Cell.labelled 2 row.kind
  let source? ← Cell.optional (Cell.json 5) row.source?
  let target? ← Cell.optional (Cell.json 6) row.target?
  let resolvedAt? ← Cell.optional (Cell.time 9) row.resolvedAt?
  let createdAt ← Cell.time 10 row.createdAt
  return { row with id, kind, source?, target?, resolvedAt?, createdAt }

end ConflictRow

namespace Coordinate

/-- A coordinate as it is kept: zero has no sign. -/
def stored : Coordinate → Coordinate
  | .finite value => if value.rank == 0 then .finite (Binary64.zero false) else .finite value
  | .infinite negative => .infinite negative

end Coordinate

namespace NoteRow

/-- The row of a note. -/
def store (note : Note) : NoteRow :=
  { note with
    x? := note.x?.map Coordinate.stored
    y? := note.y?.map Coordinate.stored
    createdAt := note.createdAt.text
    updatedAt := note.updatedAt.text }

/-- The note of a row. -/
def read (row : NoteRow) : Except BadCell Note := do
  let createdAt ← Cell.time 11 row.createdAt
  let updatedAt ← Cell.time 12 row.updatedAt
  return { row with createdAt, updatedAt }

end NoteRow

namespace CommentRow

/-- The row of a comment. -/
def store (comment : Comment) : CommentRow :=
  { comment with
    createdAt := comment.createdAt.text
    updatedAt := comment.updatedAt.text }

/-- The comment of a row. -/
def read (row : CommentRow) : Except BadCell Comment := do
  let createdAt ← Cell.time 5 row.createdAt
  let updatedAt ← Cell.time 6 row.updatedAt
  return { row with createdAt, updatedAt }

end CommentRow

end PlanHistory
