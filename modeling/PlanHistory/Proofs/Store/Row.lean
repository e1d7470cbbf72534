/-
Rows read back.

A record is *storable* if its times have years of four digits and the members of its values
are in order.  The row of a storable record reads back as the record:
**`BranchRow.read_store`**, **`MergeRow.read_store`**, **`ConflictRow.read_store`** and
**`CommentRow.read_store`**.  Two kinds of rows are apart:

* metadata are written at any depth and read to a limit, so that the row of a version reads
  back only if they are *legible* (**`VersionRow.read_store`**); it tells the version all the
  same (**`VersionRow.store_injective`**);
* a zero in the place of a note loses its sign, and it is the note without it that the row is
  read as (**`NoteRow.read_row`** and **`NoteRow.store_eq`**).
-/
import PlanHistory.Proofs.Json.RoundTrip
import PlanHistory.Proofs.Timestamp
import PlanHistory.Store.Tables

namespace PlanHistory

/-- Whether metadata nest no deeper than the reader goes. -/
def Legible (metadata : Keyed Json) : Prop :=
  (Json.object metadata).nesting ≤ Json.nestingLimit

instance (metadata : Keyed Json) : Decidable (Legible metadata) :=
  inferInstanceAs (Decidable (_ ≤ _))

namespace Cell

theorem time_text (column : Nat) {t : Timestamp} (h : t.Writable) :
    Cell.time column t.text = .ok t := by
  rw [Cell.time, Timestamp.ofText?_text h]

theorem json_canonical (column : Nat) {value : Json} (h : value.Within Json.nestingLimit) :
    Cell.json column value.canonical = .ok value := by
  rw [Cell.json, Json.parse?_canonical_of_nesting h.ordered h.nesting]

theorem members_canonical (column : Nat) {members : Keyed Json}
    (h : (Json.object members).Ordered) :
    Cell.members column (Json.object members).canonical
      = if Legible members then .ok members else .error ⟨column, .json⟩ := by
  rw [Cell.members, Json.parse?_canonical h]
  by_cases hlegible : Legible members
  · rw [if_pos hlegible, if_pos (show _ ≤ _ from hlegible)]
    rfl
  · rw [if_neg hlegible, if_neg (show ¬ _ ≤ _ from hlegible)]
    rfl

theorem labelled_branchStatus (column : Nat) (status : BranchStatus) :
    (Cell.labelled column (label status) : Except BadCell BranchStatus) = .ok status := by
  cases status <;> rfl

theorem labelled_mergeStatus (column : Nat) (status : MergeStatus) :
    (Cell.labelled column (label status) : Except BadCell MergeStatus) = .ok status := by
  cases status <;> rfl

theorem labelled_conflictKind (column : Nat) (kind : ConflictKind) :
    (Cell.labelled column (label kind) : Except BadCell ConflictKind) = .ok kind := by
  cases kind <;> rfl

/-- What is read back from a column is read back from a column that may be empty. -/
theorem optional_map {α : Type} {read : String → Except BadCell α} {write : α → String}
    {value? : Option α} (h : ∀ value ∈ value?, read (write value) = .ok value) :
    Cell.optional read (value?.map write) = .ok value? := by
  cases value? with
  | none => rfl
  | some value =>
    rw [Option.map_some, Cell.optional, h value rfl]
    rfl

end Cell

/-! ### Versions -/

/-- The failure of reading a version whose metadata are not legible. -/
def Failure.illegible : Failure := .ofTable (.badCell ⟨13, .json⟩)

/-- Whether a version can be written down. -/
structure Version.Storable (version : Version) : Prop where
  createdAt : version.createdAt.Writable
  metadata : (Json.object version.metadata).Ordered

theorem VersionRow.read_store {version : Version} (h : version.Storable) :
    VersionRow.read (VersionRow.store version)
      = if Legible version.metadata then .ok version else .error ⟨13, .json⟩ := by
  simp only [VersionRow.read, VersionRow.store, Cell.integer, Cell.time_text _ h.createdAt,
    Cell.members_canonical _ h.metadata]
  by_cases hlegible : Legible version.metadata
  · rw [if_pos hlegible, if_pos hlegible]
    rfl
  · rw [if_neg hlegible, if_neg hlegible]
    rfl

/-- A row tells its version, be it read or not. -/
theorem VersionRow.store_injective {a b : Version} (ha : a.Storable) (hb : b.Storable)
    (h : VersionRow.store a = VersionRow.store b) : a = b := by
  obtain ⟨_, _, _, _, _, _, _, _, _, aTime, _, _, aMetadata⟩ := a
  obtain ⟨_, _, _, _, _, _, _, _, _, bTime, _, _, bMetadata⟩ := b
  simp only [VersionRow.store, VersionEntry.mk.injEq, IntegerCell.whole.injEq] at h
  obtain ⟨rfl, rfl, rfl, rfl, rfl, rfl, rfl, rfl, rfl, htime, rfl, rfl, hmetadata⟩ := h
  have hsame : aTime = bTime := by
    have hread := Timestamp.ofText?_text ha.createdAt
    rw [htime] at hread
    exact (Option.some_inj.mp ((Timestamp.ofText?_text hb.createdAt).symm.trans hread)).symm
  have hmembers : aMetadata = bMetadata :=
    Json.object.inj (Json.canonical_injective ha.metadata hb.metadata hmetadata)
  rw [hsame, hmembers]

/-! ### Branches -/

/-- Whether a branch can be written down and read back. -/
structure Branch.Storable (branch : Branch) : Prop where
  createdAt : branch.createdAt.Writable
  updatedAt : branch.updatedAt.Writable

theorem BranchRow.read_store {branch : Branch} (h : branch.Storable) :
    BranchRow.read (BranchRow.store branch) = .ok branch := by
  simp only [BranchRow.read, BranchRow.store, Cell.labelled_branchStatus,
    Cell.time_text _ h.createdAt, Cell.time_text _ h.updatedAt]
  rfl

/-! ### Merge requests -/

/-- Whether a merge request can be written down and read back. -/
structure MergeRequest.Storable (request : MergeRequest) : Prop where
  createdAt : request.createdAt.Writable
  mergedAt? : ∀ time ∈ request.mergedAt?, time.Writable

theorem MergeRow.read_store {request : MergeRequest} (h : request.Storable) :
    MergeRow.read (MergeRow.store request) = .ok request := by
  simp only [MergeRow.read, MergeRow.store, Cell.labelled_mergeStatus,
    Cell.time_text _ h.createdAt,
    Cell.optional_map fun time hmem => Cell.time_text 14 (h.mergedAt? time hmem)]
  rfl

/-! ### Conflicts -/

/-- Whether a conflict can be written down and read back. -/
structure Conflict.Storable (conflict : Conflict) : Prop where
  source? : ∀ value ∈ conflict.source?, value.Within Json.nestingLimit
  target? : ∀ value ∈ conflict.target?, value.Within Json.nestingLimit
  createdAt : conflict.createdAt.Writable
  resolvedAt? : ∀ time ∈ conflict.resolvedAt?, time.Writable

theorem ConflictRow.read_store {conflict : Conflict} (h : conflict.Storable) :
    ConflictRow.read (ConflictRow.store conflict) = .ok conflict := by
  simp only [ConflictRow.read, ConflictRow.readId, ConflictRow.store, Cell.present,
    Cell.labelled_conflictKind,
    Cell.optional_map fun value hmem => Cell.json_canonical 5 (h.source? value hmem),
    Cell.optional_map fun value hmem => Cell.json_canonical 6 (h.target? value hmem),
    Cell.optional_map fun time hmem => Cell.time_text 9 (h.resolvedAt? time hmem),
    Cell.time_text _ h.createdAt]
  rfl

/-! ### Notes -/

/-- The row that is read as a note. -/
def Note.row (note : Note) : NoteRow :=
  { note with createdAt := note.createdAt.text, updatedAt := note.updatedAt.text }

/-- Whether a note can be written down and read back. -/
structure Note.Storable (note : Note) : Prop where
  createdAt : note.createdAt.Writable
  updatedAt : note.updatedAt.Writable

theorem NoteRow.read_row {note : Note} (h : note.Storable) : NoteRow.read note.row = .ok note := by
  simp only [NoteRow.read, Note.row, Cell.time_text _ h.createdAt, Cell.time_text _ h.updatedAt]
  rfl

/-- A note once it is stored. -/
def Note.stored (note : Note) : Note :=
  { note with x? := note.x?.map Coordinate.stored, y? := note.y?.map Coordinate.stored }

theorem NoteRow.store_eq (note : Note) : NoteRow.store note = note.stored.row := rfl

/-! ### Comments -/

/-- Whether a comment can be written down and read back. -/
structure Comment.Storable (comment : Comment) : Prop where
  createdAt : comment.createdAt.Writable
  updatedAt : comment.updatedAt.Writable

theorem CommentRow.read_store {comment : Comment} (h : comment.Storable) :
    CommentRow.read (CommentRow.store comment) = .ok comment := by
  simp only [CommentRow.read, CommentRow.store, Cell.time_text _ h.createdAt,
    Cell.time_text _ h.updatedAt]
  rfl

/-! ### Several rows -/

namespace Tables

variable {ρ α : Type} {read : ρ → Except BadCell α} {store : α → ρ}

theorem readRow_store {record : α} (h : read (store record) = .ok record) :
    readRow read (store record) = .ok record := by
  rw [readRow, h]

theorem readRow?_store {record? : Option α}
    (h : ∀ record ∈ record?, read (store record) = .ok record) :
    readRow? read (record?.map store) = .ok record? := by
  cases record? with
  | none => rfl
  | some record =>
    rw [Option.map_some, readRow?, readRow_store (h record rfl)]
    rfl

/-- Rows that all fail alike when they fail are read if none of them does. -/
theorem readRows_ite {legible : α → Prop} [DecidablePred legible] {fault : BadCell}
    {records : List α}
    (h : ∀ record ∈ records, read (store record)
      = if legible record then .ok record else .error fault) :
    readRows read (records.map store)
      = if ∀ record ∈ records, legible record then .ok records else .error (.badCell fault) := by
  induction records with
  | nil => rfl
  | cons record records ih =>
    have hrest := ih fun other hmem => h other (List.mem_cons_of_mem _ hmem)
    have hfirst := h record List.mem_cons_self
    rw [readRows] at hrest ⊢
    rw [List.map_cons, List.mapM_cons, hrest, readRow, hfirst]
    by_cases hlegible : legible record
    · rw [if_pos hlegible]
      by_cases hothers : ∀ other ∈ records, legible other
      · rw [if_pos hothers, if_pos (List.forall_mem_cons.mpr ⟨hlegible, hothers⟩)]
        rfl
      · rw [if_neg hothers, if_neg fun hall => hothers (List.forall_mem_cons.mp hall).2]
        rfl
    · rw [if_neg hlegible, if_neg fun hall => hlegible (List.forall_mem_cons.mp hall).1]
      rfl

theorem readRows_store {records : List α}
    (h : ∀ record ∈ records, read (store record) = .ok record) :
    readRows read (records.map store) = .ok records := by
  -- Whatever the fault, no row has it.
  have hread := @readRows_ite _ _ read store (fun _ => True) _ ⟨0, .json⟩ records
    fun record hmem => by rw [if_pos trivial, h record hmem]
  rwa [if_pos fun _ _ => trivial] at hread

end Tables

end PlanHistory
