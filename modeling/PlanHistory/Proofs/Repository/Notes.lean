/-
Notes, and the lists of them.

The rows of notes are those of notes that can be read, no two under one id.  A list of notes,
newest first, is theirs by the instants of their creation, and of notes of one instant the later
written is the newer (`NewestFirst`).

* **`Repository.Reachable.notes`** — the notes of a reachable repository;
* **`Tables.exists_notesOf`** — those of a plan are read newest first.
-/
import PlanHistory.Proofs.Repository.Growth
import PlanHistory.Proofs.Repository.Reachable
import PlanHistory.Proofs.Timestamp.Order

namespace PlanHistory

/-! ### Newest first -/

/-- Whether a list has notes that were written one after the other newest first: by the instants
of their creation, and those of one instant by the order in which they were written. -/
structure NewestFirst (written listed : List Note) : Prop where
  perm : listed.Perm written
  descending : listed.Pairwise fun newer older => older.createdAt ≤ newer.createdAt
  ties : ∀ time, listed.filter (fun note => note.createdAt = time)
    = (written.filter fun note => note.createdAt = time).reverse

theorem NewestFirst.filter {written listed : List Note} (h : NewestFirst written listed)
    (keeps : Note → Bool) : NewestFirst (written.filter keeps) (listed.filter keeps) where
  perm := h.perm.filter keeps
  descending := h.descending.filter keeps
  ties time := by
    rw [List.filter_comm, h.ties, List.filter_reverse]
    exact congrArg List.reverse (List.filter_comm _ _ _)

namespace Tables

section Ascending

variable {ρ : Type} (text : ρ → String) (rows : List ρ)

theorem ascending_trans (a b c : ρ) (hab : decide (text a ≤ text b) = true)
    (hbc : decide (text b ≤ text c) = true) : decide (text a ≤ text c) = true := by
  rw [decide_eq_true_eq] at hab hbc ⊢
  exact hab.trans hbc

theorem ascending_total (a b : ρ) :
    (decide (text a ≤ text b) || decide (text b ≤ text a)) = true := by
  rw [Bool.or_eq_true, decide_eq_true_eq, decide_eq_true_eq]
  exact le_total _ _

theorem pairwise_ascendingBy :
    (ascendingBy text rows).Pairwise fun a b => text a ≤ text b :=
  (List.pairwise_mergeSort (ascending_trans text) (ascending_total text) rows).imp
    of_decide_eq_true

/-- Rows of one text stay in the order in which they were written. -/
theorem filter_ascendingBy (one : String) :
    (ascendingBy text rows).filter (fun row => text row = one)
      = rows.filter fun row => text row = one := by
  have hperm : (ascendingBy text rows).Perm rows := List.mergeSort_perm _ _
  have hsame : (rows.filter fun row => text row = one).Pairwise
      fun a b => decide (text a ≤ text b) = true := by
    refine List.pairwise_of_forall_mem_list fun a ha b hb => ?_
    rw [List.mem_filter, decide_eq_true_eq] at ha hb
    rw [decide_eq_true_eq, ha.2, hb.2]
  have hsublist : (rows.filter fun row => text row = one).Sublist (ascendingBy text rows) :=
    List.sublist_mergeSort (ascending_trans text) (ascending_total text) hsame
      List.filter_sublist
  have hfilter := hsublist.filter fun row => text row = one
  rw [List.filter_filter] at hfilter
  simp only [Bool.and_self] at hfilter
  exact (hfilter.eq_of_length (hperm.filter _).length_eq.symm).symm

end Ascending

variable {tables : Tables} {notes : List Note}

/-- The notes of a plan are read newest first. -/
theorem exists_notesOf (hrows : tables.notes = notes.map Note.row)
    (storable : ∀ note ∈ notes, note.Storable) (plan : PlanId) :
    ∃ listed, tables.notesOf plan = .ok listed
      ∧ NewestFirst (notes.filter fun note => note.plan == plan) listed := by
  have hsort : (ascendingBy (fun note : Note => note.createdAt.text)
        (notes.filter fun note => note.plan == plan)).map Note.row
      = ascendingBy (fun row : NoteRow => row.createdAt)
        ((notes.filter fun note => note.plan == plan).map Note.row) :=
    List.map_mergeSort fun _ _ _ _ => rfl
  have hmem {note : Note} (h : note ∈ notes.filter fun note => note.plan == plan) :
      note.Storable := storable note (List.mem_filter.mp h).1
  generalize hwritten : notes.filter (fun note => note.plan == plan) = written at hsort hmem
  have hfilter : tables.notes.filter (fun row => row.plan == plan) = written.map Note.row := by
    rw [hrows, List.filter_map, ← hwritten]
    rfl
  have hperm : (ascendingBy (fun note : Note => note.createdAt.text) written).Perm written :=
    List.mergeSort_perm _ _
  refine ⟨(ascendingBy (fun note : Note => note.createdAt.text) written).reverse, ?_, ?_, ?_, ?_⟩
  · rw [notesOf, hfilter, ← hsort, ← List.map_reverse]
    refine readRows_store fun note h => NoteRow.read_row (hmem ?_)
    exact hperm.mem_iff.mp (List.mem_reverse.mp h)
  · exact (List.reverse_perm _).trans hperm
  · rw [List.pairwise_reverse]
    -- The order of the texts is that of the instants.
    refine (pairwise_ascendingBy _ written).imp_of_mem fun ha hb hle => ?_
    exact (Timestamp.text_le_text_iff (hmem (hperm.mem_iff.mp ha)).createdAt
      (hmem (hperm.mem_iff.mp hb)).createdAt).mp hle
  · intro time
    rw [List.filter_reverse]
    refine congrArg List.reverse ?_
    by_cases htime : time.Writable
    · have hsame (list : List Note) (hlist : ∀ note ∈ list, note ∈ written) :
          list.filter (fun note => note.createdAt = time)
            = list.filter fun note => note.createdAt.text = time.text :=
        List.filter_congr fun note h => decide_eq_decide.mpr
          (Timestamp.text_inj (hmem (hlist note h)).createdAt htime).symm
      rw [hsame _ fun note h => hperm.mem_iff.mp h, hsame _ fun note h => h]
      exact filter_ascendingBy _ written time.text
    · -- No note was created at an instant that cannot be written down.
      have hnone (list : List Note) (hlist : ∀ note ∈ list, note ∈ written) :
          list.filter (fun note => note.createdAt = time) = [] := by
        refine List.filter_eq_nil_iff.mpr fun note h hnote => htime ?_
        exact of_decide_eq_true hnote ▸ (hmem (hlist note h)).createdAt
      rw [hnone _ fun note h => hperm.mem_iff.mp h, hnone _ fun note h => h]

end Tables

/-! ### Notes of a repository -/

/-- Whether the rows of notes are those of notes that can be read, under different ids. -/
def NotesSound (rows : List NoteRow) : Prop :=
  ∃ notes : List Note, rows = notes.map Note.row ∧ (∀ note ∈ notes, note.Storable)
    ∧ (notes.map fun note => note.id).Nodup

theorem NotesSound.add {rows : List NoteRow} (h : NotesSound rows) {note : Note}
    (storable : note.Storable) (free : (rows.any fun row => row.id == note.id) = false) :
    NotesSound (rows ++ [note.row]) := by
  obtain ⟨notes, rfl, hstorable, hids⟩ := h
  refine ⟨notes ++ [note], ?_, forall_mem_concat hstorable storable,
    nodup_map_concat hids fun other hmem hsame => ?_⟩
  · rw [List.map_append, List.map_singleton]
  · rw [List.any_map, List.any_eq_false] at free
    exact free other hmem (beq_iff_eq.mpr hsame)

/-- A note is added only under an id that no note has. -/
theorem Store.free_of_addNote {s : Store} {stamp : Stamp} {request : NewNote} {id : String}
    (h : (s.addNote stamp request).1 = .ok id) : s.tables.hasNote stamp.id = false := by
  rw [addNote, transact] at h
  split at h
  next answer tables hchange =>
    obtain ⟨⟨⟩, -, hchange⟩ := bind_eq_ok_iff.mp hchange
    obtain ⟨noted, hnoted, -⟩ := bind_eq_ok_iff.mp hchange
    obtain ⟨version, -, hrest⟩ := bind_eq_ok_iff.mp hnoted
    obtain ⟨⟨⟩, -, hinsert⟩ := bind_eq_ok_iff.mp hrest
    have hinsert := mapError_eq_ok_iff.mp hinsert
    rw [Tables.insertNote] at hinsert
    split at hinsert
    next => cases hinsert
    next hfree => exact Bool.eq_false_iff.mpr hfree
  next => cases h

namespace Repository

variable {repository : Repository}

/-- The rows of notes of a reachable repository are read. -/
theorem Reachable.notes (h : Reachable repository) : NotesSound repository.store.tables.notes := by
  obtain ⟨policy, _, hrun⟩ := h
  induction hrun with
  | refl => exact ⟨[], rfl, by simp, List.nodup_nil⟩
  | @perform deeds repository stamp operation hrun fresh given _ ih =>
    obtain ⟨r, sound⟩ := Reachable.sound ⟨policy, deeds, hrun⟩
    obtain ⟨r', sound', step⟩ := sound.step fresh given
    have hrows : r.tables.notes = r.notes := rfl
    have hrows' : r'.tables.notes = r'.notes := rfl
    rw [sound.tables, hrows] at ih
    rw [sound'.tables, hrows']
    rcases step.notes_cases with hsame | ⟨request, rfl, hanswer, hadded⟩
    · rwa [hsame]
    · obtain ⟨id, hid⟩ : ∃ id, (repository.store.addNote stamp request).1 = .ok id := by
        cases hadd : (repository.store.addNote stamp request).1 with
        | ok id => exact ⟨id, rfl⟩
        | error failure =>
          rw [Repository.perform, Repository.write, hadd] at hanswer
          cases hanswer
      have hfree := Store.free_of_addNote hid
      rw [sound.tables] at hfree
      rw [hadded, NoteRow.store_eq]
      exact ih.add ⟨fresh.time, fresh.time⟩ hfree

end Repository

end PlanHistory
