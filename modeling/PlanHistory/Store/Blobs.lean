/-
The blob area: the bytes of version contents, one blob a version.

A blob is written once and never over.  Ids become file names, so only letters,
digits, dashes and underscores are allowed in them; no other id has a blob.
-/
import PlanHistory.Failure
import PlanHistory.Keyed

namespace PlanHistory

/-- Blobs under their ids. -/
abbrev Blobs := Keyed ByteArray

namespace Blobs

/-- Whether an id is fit for a file name. -/
def isSafeId (id : String) : Bool :=
  !id.isEmpty && id.toList.all fun c => c.isAlphanum || c == '-' || c == '_'

/-- Write a blob that is not there yet. -/
def write (id : String) (bytes : ByteArray) (blobs : Blobs) : Except BlobFault Blobs :=
  if !isSafeId id then .error .invalidId
  else if (Keyed.get? id blobs).isSome then .error .alreadyWritten
  else .ok (Keyed.insert id bytes blobs)

/-- The bytes of a blob. -/
def read? (id : String) (blobs : Blobs) : Option ByteArray :=
  if isSafeId id then Keyed.get? id blobs else none

/-- Remove a blob, if there is one. -/
def discard (id : String) (blobs : Blobs) : Blobs :=
  if isSafeId id then Keyed.erase id blobs else blobs

/-- The file name of a blob. -/
def fileName (id : String) : String :=
  s!"{id}.json"

end Blobs

end PlanHistory
