/-
Versions: immutable snapshots of a floor plan.

A version is written down once, with texts where the store keeps texts, and read back
with instants and members in their place; `VersionEntry` is every such form.
-/
import PlanHistory.Json.Value
import PlanHistory.PlanId
import PlanHistory.Record.IntegerCell
import PlanHistory.Timestamp

namespace PlanHistory

/-- What a version is to the ones before it. -/
inductive VersionKind where
  | major
  | minor
  | patch
  | branch
deriving DecidableEq, Repr

instance : Labelled VersionKind where
  noun := "version type"
  label
    | .major => "major"
    | .minor => "minor"
    | .patch => "patch"
    | .branch => "branch"
  all := [.major, .minor, .patch, .branch]

/-- A version, with integers as `ι`, times as `τ` and its metadata as `μ`. -/
structure VersionEntry (ι τ μ : Type) where
  id : String
  plan : PlanId
  branch : String
  /-- The head of the branch that the version was committed on. -/
  parent? : Option String
  kind : VersionKind
  /-- A name for readers, made of branch, kind and time. -/
  number : String
  /-- The place among the versions of its branch, from 1. -/
  sequence : ι
  message : String
  author : String
  createdAt : τ
  contentHash : String
  contentSize : ι
  metadata : μ

/-- A version as it is read. -/
abbrev Version := VersionEntry Int Timestamp (Keyed Json)

/-- A version as it is stored. -/
abbrev VersionRow := VersionEntry IntegerCell String String

/-- The name of a version for readers. -/
def versionNumber (branch : String) (kind : VersionKind) (time : Timestamp) : String :=
  s!"{branch}-{label kind}-{time.compact}"

end PlanHistory
