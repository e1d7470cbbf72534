/-
The tables of notes and of comments.
-/
import PlanHistory.Store.Tables

namespace PlanHistory

namespace Tables

/-- Whether there is a note of the given id. -/
def hasNote (tables : Tables) (id : String) : Bool :=
  tables.notes.any fun row => row.id == id

/-- Add a note. -/
def insertNote (note : Note) (tables : Tables) : Except TableFault Tables :=
  if tables.hasNote note.id then .error (.duplicateKey ["annotations.annotation_id"])
  else .ok { tables with notes := tables.notes ++ [NoteRow.store note] }

/-- The notes on a version, oldest first. -/
def notesOn (tables : Tables) (version : String) : Except TableFault (List Note) :=
  let rows := tables.notes.filter fun row => row.version == version
  readRows NoteRow.read (ascendingBy (fun row => row.createdAt) rows)

/-- The notes of a plan, newest first. -/
def notesOf (tables : Tables) (plan : PlanId) : Except TableFault (List Note) :=
  let rows := tables.notes.filter fun row => row.plan == plan
  readRows NoteRow.read (ascendingBy (fun row => row.createdAt) rows).reverse

/-- Add a comment. -/
def insertComment (comment : Comment) (tables : Tables) : Except TableFault Tables :=
  if tables.comments.any fun row => row.id == comment.id then
    .error (.duplicateKey ["comments.comment_id"])
  else .ok { tables with comments := tables.comments ++ [CommentRow.store comment] }

/-- The comments on one parent, oldest first. -/
def commentsOn (tables : Tables) (parent : String) (kind : ParentKind) :
    Except TableFault (List Comment) :=
  let rows := tables.comments.filter fun row => row.parent == parent && row.parentKind == kind
  readRows CommentRow.read (ascendingBy (fun row => row.createdAt) rows)

end Tables

end PlanHistory
