/-
Versions are never changed, and hold what was committed.

The versions of a reachable repository are those that operations have written.  The blob
area has one blob for each of them and no other, the canonical form of what was written, and
the rows record its digest and its size (`Repository.Faithful`).  A version is found intact
wherever its row is read.

* **`Repository.Reachable.origins`** — every version was written by some operation;
* **`Repository.Reachable.immutable`** — what every run preserves, and leaves as it is.
-/
import PlanHistory.Proofs.Repository.Growth

namespace PlanHistory

namespace Store

variable {s : Store} {r : Records}

/-- What is known of the row of a version and its blob. -/
theorem Sound.holds_row (sound : s.Sound r) {row : VersionRow}
    (hmem : row ∈ s.tables.versions.rows) {bytes : ByteArray}
    (hbytes : Blobs.read? row.id s.blobs = some bytes) :
    row.contentHash = Sha256.hex bytes ∧ row.contentSize = .whole bytes.size := by
  rw [sound.versionRows] at hmem
  obtain ⟨version, hversion, rfl⟩ := List.mem_map.mp hmem
  obtain ⟨document, hholds⟩ := sound.versions.contents version hversion
  obtain rfl := Option.some_inj.mp (hholds.blob.symm.trans hbytes)
  exact ⟨hholds.hash, congrArg IntegerCell.whole hholds.size⟩

/-- A version whose row is read is intact, as its blob is that of its row. -/
theorem Sound.verify_eq (sound : s.Sound r) {row : VersionRow}
    (hmem : row ∈ s.tables.versions.rows) :
    s.verify row.id = if s.tables.Reads row.id then .ok true else .error .illegible := by
  have hrow := hmem
  rw [sound.versionRows] at hrow
  obtain ⟨version, hversion, rfl⟩ := List.mem_map.mp hrow
  obtain ⟨document, hholds⟩ := sound.versions.contents version hversion
  have hblob : Blobs.read? (VersionRow.store version).id s.blobs
      = some (Document.contentBytes document) := hholds.blob
  have hfound : r.version? (VersionRow.store version).id = some version :=
    Records.version?_of_mem sound.versions.idsDiffer hversion
  have hread : s.tables.version (VersionRow.store version).id
      = r.readVersion (VersionRow.store version).id := by
    rw [sound.tables, Records.version_tables sound.storable]
  have hreads : s.tables.Reads (VersionRow.store version).id ↔ Legible version.metadata :=
    sound.reads_iff hversion
  obtain ⟨hhash, -⟩ := sound.holds_row hmem hblob
  rw [verify, hread]
  by_cases hlegible : Legible version.metadata
  · rw [if_pos (hreads.mpr hlegible), Records.readVersion_of_legible hfound hlegible]
    dsimp only [bind, Except.bind]
    rw [hblob]
    dsimp only
    rw [← hhash]
    exact congrArg Except.ok (beq_self_eq_true version.contentHash)
  · rw [if_neg (mt hreads.mp hlegible), Records.readVersion_of_illegible hfound hlegible]
    rfl

/-- There is one blob for each version. -/
theorem Sound.keys_blobs (sound : s.Sound r) :
    (Keyed.keys s.blobs).Perm (s.tables.versions.rows.map fun row => row.id)
      ∧ (s.tables.versions.rows.map fun row => row.id).Nodup := by
  have hids : (s.tables.versions.rows.map fun row => row.id)
      = r.versions.map fun version => version.id := by
    rw [sound.versionRows, List.map_map]
    rfl
  rw [hids]
  refine ⟨(List.perm_ext_iff_of_nodup sound.versions.ascending.nodup_keys
    sound.versions.idsDiffer).mpr fun id => ?_, sound.versions.idsDiffer⟩
  rw [← Keyed.get?_isSome_iff, List.mem_map]
  constructor
  · exact sound.versions.owned id
  · rintro ⟨version, hmem, rfl⟩
    obtain ⟨document, hholds⟩ := sound.versions.contents version hmem
    have hblob := hholds.blob
    rw [Blobs.read?] at hblob
    split at hblob
    next => exact Option.isSome_of_eq_some hblob
    next => simp at hblob

end Store

/-! ### Runs -/

namespace Repository

variable {repository later : Repository} {stamp : Stamp} {operation : Operation} {id : String}
  {document : Json}

/-- Whether an operation that led to a repository wrote a document down as the version of an
id. -/
def Written (repository : Repository) (id : String) (document : Json) : Prop :=
  ∃ earlier stamp operation, Reachable earlier ∧ Stamp.Fresh stamp earlier.store
    ∧ Operation.Ordered operation
    ∧ earlier.store.Writes operation (earlier.perform stamp operation).1 id document
    ∧ Leads (earlier.perform stamp operation).2 repository

/-- Whether the versions of a repository are those that were written, with their blobs. -/
structure Faithful (repository : Repository) : Prop where
  /-- There is one blob for each version, and no other. -/
  blobs : (Keyed.keys repository.store.blobs).Perm
    (repository.store.tables.versions.rows.map fun row => row.id)
  distinct : (repository.store.tables.versions.rows.map fun row => row.id).Nodup
  /-- Every version was written by some operation. -/
  origins : ∀ row ∈ repository.store.tables.versions.rows, ∃ document,
    repository.Written row.id document
  /-- What was written is there, with its digest and its size. -/
  written : ∀ id document, repository.Written id document →
    Document.validate document = .ok ()
      ∧ Blobs.read? id repository.store.blobs = some (Document.contentBytes document)
      ∧ ∃ row ∈ repository.store.tables.versions.rows, row.id = id
        ∧ row.contentHash = Sha256.hex (Document.contentBytes document)
        ∧ row.contentSize = .whole (Document.contentBytes document).size
  intact : ∀ row ∈ repository.store.tables.versions.rows, ∀ stamp,
    (repository.perform stamp (.verify row.id)).1
      = if repository.store.tables.Reads row.id then .ok (.intact true) else .error .illegible

theorem Written.leads (h : repository.Written id document) (hmore : Leads repository later) :
    later.Written id document := by
  obtain ⟨earlier, stamp, operation, hearlier, fresh, given, hwrites, hleads⟩ := h
  exact ⟨earlier, stamp, operation, hearlier, fresh, given, hwrites, hleads.trans hmore⟩

/-- What an operation writes is there after it. -/
theorem Reachable.of_writes (h : Reachable repository) (fresh : stamp.Fresh repository.store)
    (given : operation.Ordered)
    (hwrites : repository.store.Writes operation (repository.perform stamp operation).1 id
      document) :
    Document.validate document = .ok ()
      ∧ Blobs.read? id (repository.perform stamp operation).2.store.blobs
        = some (Document.contentBytes document)
      ∧ ∃ row ∈ (repository.perform stamp operation).2.store.tables.versions.rows, row.id = id := by
  obtain ⟨r, sound⟩ := h.sound
  obtain ⟨r', sound', step⟩ := sound.step fresh given
  rcases step.writes_cases sound fresh with
    ⟨version, other, hother, hid, accepted, hversions, hblobs⟩ | ⟨hnone, -⟩
  · obtain ⟨rfl, rfl⟩ := hwrites.unique hother
    refine ⟨accepted, ?_, VersionRow.store version, ?_, rfl⟩
    · rw [hblobs, hid]
      exact Blobs.read?_insert_self fresh.safe
    · rw [sound'.versionRows, hversions]
      exact List.mem_map_of_mem (List.mem_append_right _ (List.mem_singleton_self version))
  · exact absurd hwrites (hnone id document)

/-- Every version of a reachable repository was written by some operation. -/
theorem Reachable.origins (h : Reachable repository) :
    ∀ row ∈ repository.store.tables.versions.rows, ∃ document,
      repository.Written row.id document := by
  obtain ⟨policy, _, hrun⟩ := h
  induction hrun with
  | refl =>
    intro row hmem
    simp [Repository.empty, Store.empty, Tables.empty, Roll.empty, Roll.rows] at hmem
  | @perform deeds repository stamp operation hrun fresh given _ ih =>
    intro row hmem
    have h : Reachable repository := ⟨policy, deeds, hrun⟩
    obtain ⟨r, sound⟩ := h.sound
    obtain ⟨r', sound', step⟩ := sound.step fresh given
    rw [sound'.versionRows] at hmem
    have older : row ∈ repository.store.tables.versions.rows → ∃ document,
        Repository.Written (repository.perform stamp operation).2 row.id document := by
      intro hrow
      obtain ⟨document, hwritten⟩ := ih row hrow
      exact ⟨document, hwritten.leads ((Leads.refl _).perform stamp operation fresh given)⟩
    rcases step.writes_cases sound fresh with
      ⟨version, document, hwrites, -, -, hversions, -⟩ | ⟨-, hversions, -⟩
    · rw [hversions, List.map_append, List.map_singleton, List.mem_append, List.mem_singleton]
        at hmem
      rcases hmem with hmem | rfl
      · exact older (sound.versionRows ▸ hmem)
      · exact ⟨document, repository, stamp, operation, h, fresh, given, hwrites, .refl _⟩
    · exact older (sound.versionRows ▸ hversions ▸ hmem)

/-- **The versions of a reachable repository are those that were written, with one blob each,
and no later operation changes a row or a blob.**  The blob of a version is the canonical form
of the document that was committed, restored or merged, and the row has its digest and its
size.  A version is found intact exactly if its row is read. -/
theorem Reachable.immutable (h : Reachable repository) :
    repository.Faithful
      ∧ ∀ later, Leads repository later → repository.store.Keeps later.store := by
  obtain ⟨r, sound⟩ := h.sound
  obtain ⟨hkeys, hdistinct⟩ := sound.keys_blobs
  refine
    ⟨{ blobs := hkeys
       distinct := hdistinct
       origins := h.origins
       written := fun id document hwritten => ?_
       intact := fun row hmem stamp => (congrArg (Except.map Answer.intact)
         (sound.verify_eq hmem)).trans (apply_ite _ _ _ _) },
      fun later hleads => hleads.keeps h⟩
  obtain ⟨earlier, stamp, operation, hearlier, fresh, given, hwrites, hleads⟩ := hwritten
  obtain ⟨accepted, hblob, row, hrow, rfl⟩ := hearlier.of_writes fresh given hwrites
  -- The row and the blob are kept by all that came since.
  have hkeeps := hleads.keeps (hearlier.perform stamp operation fresh given)
  have hmem := hkeeps.rows.subset hrow
  have hread := hkeeps.read? hblob
  exact ⟨accepted, hread, row, hmem, rfl, sound.holds_row hmem hread⟩

theorem immutable_hall :
    Reachable ((empty .standard).play hallSteps)
      ∧ (((empty .standard).play hallSteps).store.tables.versions.rows.map fun row => row.id)
        = ["first"]
      ∧ ((empty .standard).play hallSteps).Faithful := by
  have hruns : (empty .standard).admits hallSteps = true
      ∧ (((empty .standard).play hallSteps).store.tables.versions.rows.map fun row => row.id)
        = ["first"] := by
    decide +kernel
  obtain ⟨hnew, hversions⟩ := hruns
  have hreachable : Reachable ((empty .standard).play hallSteps) :=
    (Reachable.empty .standard).play hnew ordered_hallSteps
  exact ⟨hreachable, hversions, hreachable.immutable.1⟩

/-- A version that is there is not found intact if its row is not read. -/
theorem Reachable.verify_of_unread (h : Reachable repository)
    (hthere : repository.store.tables.hasVersion id = true)
    (hunread : ¬ repository.store.tables.Reads id) (stamp : Stamp) :
    (repository.perform stamp (.verify id)).1 = .error .illegible := by
  obtain ⟨r, sound⟩ := h.sound
  obtain ⟨row, hrow, hid⟩ := List.any_eq_true.mp hthere
  obtain rfl := beq_iff_eq.mp hid
  have hverify := sound.verify_eq hrow
  rw [if_neg hunread] at hverify
  exact congrArg (Except.map Answer.intact) hverify

/-- The version that is the head of the draft is not found intact. -/
theorem verify_unreadDraft :
    Reachable unreadDraft
      ∧ unreadDraft.store.tables.hasVersion "other" = true
      ∧ ∀ stamp, (unreadDraft.perform stamp (.verify "other")).1 = .error .illegible := by
  obtain ⟨-, hthere, -⟩ := unreadDraft_facts
  exact ⟨reachable_unreadDraft, hthere,
    reachable_unreadDraft.verify_of_unread hthere unread_unreadDraft⟩

end Repository

end PlanHistory
