/-
Notes on versions, and comments on versions and notes.

A note may name an object of the plan and a point on it.
-/
import PlanHistory.Number.Coordinate
import PlanHistory.PlanId
import PlanHistory.Timestamp

namespace PlanHistory

/-- A note, with times as `τ`. -/
structure NoteEntry (τ : Type) where
  id : String
  version : String
  plan : PlanId
  object? : Option String
  x? : Option Coordinate
  y? : Option Coordinate
  kind : String
  title : String
  content : String
  author : String
  createdAt : τ
  updatedAt : τ

/-- A note as it is read. -/
abbrev Note := NoteEntry Timestamp

/-- A note as it is stored. -/
abbrev NoteRow := NoteEntry String

/-- What a comment can be on. -/
inductive ParentKind where
  | version
  | note
deriving DecidableEq, Repr

instance : Labelled ParentKind where
  noun := "comment parent type"
  label
    | .version => "version"
    | .note => "annotation"
  all := [.version, .note]

/-- A comment, with times as `τ`. -/
structure CommentEntry (τ : Type) where
  id : String
  parent : String
  parentKind : ParentKind
  author : String
  content : String
  createdAt : τ
  updatedAt : τ

/-- A comment as it is read. -/
abbrev Comment := CommentEntry Timestamp

/-- A comment as it is stored. -/
abbrev CommentRow := CommentEntry String

end PlanHistory
