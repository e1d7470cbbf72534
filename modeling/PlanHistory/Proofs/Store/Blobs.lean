/-
Blobs that are written, read and dropped.

* **`Blobs.write_of_fresh`** — a blob of a safe id that is not there is written;
* **`Blobs.discard_of_write`** — dropping it leaves the blobs as they were;
* **`Blobs.content_insert_of_ne`** — no content of another version changes.
-/
import PlanHistory.Proofs.Json.RoundTrip
import PlanHistory.Repository.Versions

namespace PlanHistory

namespace Keyed

variable {α : Type} {key : String} {value : α} {entries : Keyed α}

theorem erase_of_fresh (fresh : get? key entries = none) : erase key entries = entries := by
  refine List.filter_eq_self.mpr fun entry hmem => ?_
  rw [bne_iff_ne]
  rintro rfl
  exact get?_eq_none_iff.mp fresh (List.mem_map_of_mem hmem)

/-- Taking out what was put under a new key leaves the entries as they were. -/
theorem erase_insert (fresh : get? key entries = none) :
    erase key (insert key value entries) = entries := by
  induction entries with
  | nil => simp [insert, erase]
  | cons entry entries ih =>
    rw [get?_cons] at fresh
    split at fresh
    next => simp at fresh
    next hne =>
      have hkept : erase key (entry :: entries) = entry :: entries :=
        erase_of_fresh (by rw [get?_cons, if_neg hne, fresh])
      rw [insert, if_neg hne]
      split
      · rw [erase, List.filter_cons_of_neg (by simp)]
        exact hkept
      · have hpos : (entry.1 != key) = true := bne_iff_ne.mpr (Ne.symm hne)
        rw [erase, List.filter_cons, if_pos hpos, ← erase, ih fresh]

end Keyed

namespace Blobs

variable {id other : String} {bytes : ByteArray} {blobs : Blobs}

theorem write_of_fresh (safe : isSafeId id) (fresh : Keyed.get? id blobs = none) :
    write id bytes blobs = .ok (Keyed.insert id bytes blobs) := by
  rw [write, safe, fresh]
  rfl

theorem discard_insert (safe : isSafeId id) (fresh : Keyed.get? id blobs = none) :
    discard id (Keyed.insert id bytes blobs) = blobs := by
  rw [discard, if_pos safe, Keyed.erase_insert fresh]

/-- Whatever was written can be dropped again. -/
theorem discard_of_write {after : Blobs} (h : write id bytes blobs = .ok after) :
    discard id after = blobs := by
  rw [write] at h
  split at h
  next => simp at h
  next hsafe =>
    split at h
    next => simp at h
    next hfresh =>
      rw [← Except.ok.inj h]
      exact discard_insert (by simpa using hsafe) (by simpa using hfresh)

theorem read?_insert_self (safe : isSafeId id) :
    read? id (Keyed.insert id bytes blobs) = some bytes := by
  rw [read?, if_pos safe, Keyed.get?_insert_self]

theorem read?_insert_of_ne (ne : other ≠ id) :
    read? other (Keyed.insert id bytes blobs) = read? other blobs := by
  rw [read?, read?, Keyed.get?_insert_of_ne ne]

/-- The document of a version, in any store that holds the blobs. -/
def content (id : String) (blobs : Blobs) : Except Failure Json :=
  Store.content id ⟨Tables.empty, blobs⟩

theorem content_insert_of_ne (ne : other ≠ id) :
    content other (Keyed.insert id bytes blobs) = content other blobs := by
  rw [content, content, Store.content, Store.content, read?_insert_of_ne ne]

/-- The canonical form of a document is read as the document, unless it nests too
deep. -/
theorem content_of_read? {document : Json} (ordered : document.Ordered)
    (h : read? id blobs = some (Document.contentBytes document)) :
    content id blobs
      = if document.nesting ≤ Json.nestingLimit then .ok document
        else .error (.storage .unreadableContent) := by
  rw [content, Store.content, h]
  dsimp only
  rw [Json.ofBytes?_contentBytes ordered]
  by_cases hle : document.nesting ≤ Json.nestingLimit
  · rw [if_pos hle, if_pos hle]
  · rw [if_neg hle, if_neg hle]

end Blobs

theorem Store.content_blobs (id : String) (s : Store) :
    s.content id = Blobs.content id s.blobs := rfl

end PlanHistory
