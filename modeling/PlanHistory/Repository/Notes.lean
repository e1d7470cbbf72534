/-
Notes on versions, the search among them, and comments.
-/
import PlanHistory.Repository.Policy
import PlanHistory.Repository.Store
import PlanHistory.Text.Lowercase

namespace PlanHistory

/-- What is asked of a new note. -/
structure NewNote where
  version : String
  plan : PlanId
  object? : Option String
  x? : Option Coordinate
  y? : Option Coordinate
  kind : String
  title : String
  content : String
  author : String

/-- What is asked of a new comment. -/
structure NewComment where
  parent : String
  parentKind : ParentKind
  content : String
  author : String

namespace Tables

/-- Add a note to a version of its plan. -/
def addNote (request : NewNote) (id : String) (now : Timestamp) (tables : Tables) :
    Except Failure Tables := do
  let version ← tables.version request.version
  requireOwner .noted request.version version.plan request.plan
  let note : Note :=
    { id
      version := request.version
      plan := request.plan
      object? := request.object?
      x? := request.x?
      y? := request.y?
      kind := request.kind
      title := request.title
      content := request.content
      author := request.author
      createdAt := now
      updatedAt := now }
  (tables.insertNote note).mapError Failure.ofTable

/-- Refuse a parent that is not there. -/
def requireParent (parent : String) (kind : ParentKind) (tables : Tables) :
    Except Failure Unit :=
  match kind with
  | .version => (tables.version parent).map fun _ => ()
  | .note =>
    if tables.hasNote parent then .ok () else .error (.notFound .note parent)

/-- Add a comment to what it is on. -/
def addComment (request : NewComment) (id : String) (now : Timestamp) (tables : Tables) :
    Except Failure Tables := do
  tables.requireParent request.parent request.parentKind
  let comment : Comment :=
    { id
      parent := request.parent
      parentKind := request.parentKind
      author := request.author
      content := request.content
      createdAt := now
      updatedAt := now }
  (tables.insertComment comment).mapError Failure.ofTable

end Tables

namespace Store

/-- Attach a note to a version. -/
def addNote (stamp : Stamp) (request : NewNote) (s : Store) : Except Failure String × Store :=
  s.transact fun tables => do
    require .noteKind request.kind
    let tables ← tables.addNote request stamp.id stamp.time
    return (stamp.id, tables)

/-- Attach a comment to a version or a note. -/
def addComment (stamp : Stamp) (request : NewComment) (s : Store) :
    Except Failure String × Store :=
  s.transact fun tables => do
    require .comment request.content
    let tables ← tables.addComment request stamp.id stamp.time
    return (stamp.id, tables)

/-- The notes of a plan whose title or content holds a text, letter case aside: the
newest first, and as many as the policy allows. -/
def search (policy : Policy) (plan : PlanId) (query : String) (s : Store) :
    Except Failure (List Note) := do
  let notes ← (s.tables.notesOf plan).mapError Failure.ofTable
  let hits := notes.filter fun note =>
    Text.matchesQuery query note.title || Text.matchesQuery query note.content
  return hits.take (max 1 policy.searchLimit)

end Store

end PlanHistory
