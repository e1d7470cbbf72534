/-
Lists are in the order of creation.

Branches, notes and comments are stored in the order in which they were made, and listed by the
texts of their creation times.  The order of the texts is that of the times, and a stable one:
so if the clock never goes back, a list is in the order in which its records were made, or in
the reverse of it, those of one microsecond included.

* **`Repository.Chronicle.stored`** — the records of a run, in the order in which they were made;
* **`Repository.Chronicle.inOrder`** — the lists of a run under a clock that never goes back;
* **`Repository.text_order`** — the order of texts is that of instants, and the lists follow it.
-/
import PlanHistory.Proofs.Repository.Reachable
import PlanHistory.Proofs.Repository.History
import PlanHistory.Proofs.Repository.Search
import PlanHistory.Proofs.Timestamp.Instant

namespace PlanHistory

/-! ### What was made -/

/-- A branch as it began. -/
structure Beginning where
  branch : String
  plan : PlanId
  time : Timestamp
deriving DecidableEq

/-- How a branch began. -/
def BranchEntry.beginning {σ : Type} (branch : BranchEntry σ Timestamp) : Beginning :=
  ⟨branch.name, branch.plan, branch.createdAt⟩

namespace Deed

/-- The note that was attached, as it is stored. -/
def note? (deed : Deed) : Option Note :=
  match deed.operation, deed.answer with
  | .addNote request, .ok (.id id) => some (request.attached id deed.stamp.time).stored
  | _, _ => none

/-- The comment that was attached. -/
def comment? (deed : Deed) : Option Comment :=
  match deed.operation, deed.answer with
  | .addComment request, .ok (.id id) => some (request.attached id deed.stamp.time)
  | _, _ => none

/-- The branch that a version began, if it was not there. -/
def begunBy (deed : Deed) (entry : Entry) : Option Beginning :=
  if (deed.found.tables.branch entry.branch entry.plan).toOption.isSome then none
  else some ⟨entry.branch, entry.plan, deed.stamp.time⟩

/-- The branch that was begun: created on its own, or by its first version. -/
def begun? (deed : Deed) : Option Beginning :=
  match deed.operation, deed.answer with
  | .createBranch request, .ok _ => some ⟨request.name, request.plan, deed.stamp.time⟩
  | operation, answer => (deed.found.made? operation answer).bind deed.begunBy

variable {deed : Deed}

theorem createdAt_of_note? {note : Note} (h : note ∈ deed.note?) :
    note.createdAt = deed.stamp.time ∧ note.updatedAt = deed.stamp.time := by
  rw [note?] at h
  split at h
  next =>
    obtain rfl := Option.some.inj h
    exact ⟨rfl, rfl⟩
  next => cases h

theorem createdAt_of_comment? {comment : Comment} (h : comment ∈ deed.comment?) :
    comment.createdAt = deed.stamp.time ∧ comment.updatedAt = deed.stamp.time := by
  rw [comment?] at h
  split at h
  next =>
    obtain rfl := Option.some.inj h
    exact ⟨rfl, rfl⟩
  next => cases h

theorem time_of_begun? {beginning : Beginning} (h : beginning ∈ deed.begun?) :
    beginning.time = deed.stamp.time := by
  rw [begun?] at h
  split at h
  next => exact congrArg Beginning.time (Option.some.inj h).symm
  next =>
    obtain ⟨entry, -, h⟩ := Option.bind_eq_some_iff.mp h
    rw [begunBy] at h
    split at h
    next => cases h
    next => exact congrArg Beginning.time (Option.some.inj h).symm

end Deed

/-! ### One step -/

namespace Records

variable {r : Records}

theorem beginnings_changeBranch {change : Branch → Branch}
    (hsame : ∀ branch, (change branch).beginning = branch.beginning) (name : String)
    (plan : PlanId) :
    (r.changeBranch name plan change).branches.map BranchEntry.beginning
      = r.branches.map BranchEntry.beginning := by
  rw [changeBranch, List.map_map]
  refine List.map_congr_left fun branch _ => ?_
  rw [Function.comp_apply]
  split
  · exact hsame branch
  · rfl

theorem beginnings_setHead (name : String) (plan : PlanId) (head : String) (status : BranchStatus)
    (now : Timestamp) :
    (r.setHead name plan head status now).branches.map BranchEntry.beginning
      = r.branches.map BranchEntry.beginning := by
  rw [setHead, beginnings_changeBranch]
  exact fun _ => rfl

/-- A version begins its branch if it is not there. -/
theorem beginnings_record (version : Version) (now : Timestamp) :
    (r.record version now).branches.map BranchEntry.beginning
      = r.branches.map BranchEntry.beginning
        ++ if (r.branch? version.branch version.plan).isSome then []
          else [⟨version.branch, version.plan, version.createdAt⟩] := by
  rw [record]
  cases r.branch? version.branch version.plan with
  | some branch =>
    exact (beginnings_setHead ..).trans (List.append_nil _).symm
  | none =>
    rw [addBranch, List.map_append]
    rfl

end Records

namespace Store

variable {s : Store} {r r' : Records} {policy : Policy} {stamp : Stamp} {operation : Operation}
  {answer : Except Failure Answer} {blobs : Blobs}

/-- A step puts notes and comments at the end: those that it attaches. -/
theorem Step.remarks (step : s.Step r policy stamp operation answer r' blobs) :
    r'.notes = r.notes ++ (Deed.mk s stamp operation answer).note?.toList.map Note.row
      ∧ r'.comments = r.comments
        ++ (Deed.mk s stamp operation answer).comment?.toList.map CommentRow.store := by
  -- Most steps attach nothing.
  have nothing {operation : Operation} {answer : Except Failure Answer} {r' : Records}
      (hnotes : r'.notes = r.notes) (hcomments : r'.comments = r.comments)
      (hnote : (Deed.mk s stamp operation answer).note? = none)
      (hcomment : (Deed.mk s stamp operation answer).comment? = none) :
      r'.notes = r.notes ++ (Deed.mk s stamp operation answer).note?.toList.map Note.row
        ∧ r'.comments = r.comments
          ++ (Deed.mk s stamp operation answer).comment?.toList.map CommentRow.store := by
    rw [hnote, hcomment, hnotes, hcomments]
    exact ⟨(List.append_nil _).symm, (List.append_nil _).symm⟩
  induction step with
  | @failed operation failure =>
    refine nothing rfl rfl ?_ ?_
    · cases operation <;> rfl
    · cases operation <;> rfl
  | @asked operation answer hquestion =>
    refine nothing rfl rfl ?_ ?_
    · cases operation <;> first | rfl | exact absurd hquestion Bool.false_ne_true
    · cases operation <;> first | rfl | exact absurd hquestion Bool.false_ne_true
  | committed =>
    refine nothing ?_ ?_ rfl rfl
    all_goals
      rw [Records.record]
      split <;> rfl
  | restored _ _ _ ih => exact ih
  | @executed request target actor plan blobs =>
    obtain ⟨-, hnotes, hcomments⟩ :=
      @others_executed r request actor plan target.status stamp.time
    exact nothing hnotes hcomments rfl rfl
  | noted => exact ⟨rfl, (List.append_nil _).symm⟩
  | commented => exact ⟨(List.append_nil _).symm, rfl⟩
  | _ => exact nothing rfl rfl rfl rfl

theorem Sound.isSome_branch (sound : s.Sound r) (name : String) (plan : PlanId) :
    (s.tables.branch name plan).toOption.isSome = (r.branch? name plan).isSome := by
  rw [sound.tables, Records.branch_tables sound.storable]
  cases r.branch? name plan <;> rfl

theorem begun?_error (s : Store) (stamp : Stamp) (operation : Operation) (failure : Failure) :
    (Deed.mk s stamp operation (.error failure)).begun? = none := by
  cases operation <;> rfl

theorem begun?_of_isQuestion (h : operation.isQuestion = true) (s : Store) (stamp : Stamp)
    (answer : Except Failure Answer) : (Deed.mk s stamp operation answer).begun? = none := by
  cases operation <;> first | rfl | exact absurd h Bool.false_ne_true

/-- A step puts branches at the end: those that it begins. -/
theorem Step.beginnings (step : s.Step r policy stamp operation answer r' blobs)
    (sound : s.Sound r) :
    r'.branches.map BranchEntry.beginning
      = r.branches.map BranchEntry.beginning
        ++ (Deed.mk s stamp operation answer).begun?.toList := by
  induction step with
  | failed failure => rw [begun?_error, Option.toList_none, List.append_nil]
  | asked answer hquestion =>
    rw [begun?_of_isQuestion hquestion, Option.toList_none, List.append_nil]
  | @committed content request parent? version _ _ hversion =>
    have hbegun : (Deed.mk s stamp (.commit content request)
          (.ok (.receipt ⟨version.id, version.number, version.contentHash⟩))).begun?
        = if (r.branch? request.branch request.plan).isSome then none
          else some ⟨request.branch, request.plan, stamp.time⟩ := by
      rw [← sound.isSome_branch]
      rfl
    rw [Records.beginnings_record, hbegun, hversion]
    refine congrArg _ ?_
    show (if (r.branch? request.branch request.plan).isSome then [] else _) = _
    split <;> rfl
  | @restored id branch author message? source content answer r' blobs hsource _ _ ih =>
    have hbegun : (Deed.mk s stamp (.restore id branch author message?) answer).begun?
        = (s.made? (.restore id branch author message?) answer).bind
          (Deed.mk s stamp (.restore id branch author message?) answer).begunBy := rfl
    rw [ih, hbegun, made?_restore (sound.versionRow?_eq hsource)]
    rfl
  | branched => exact List.map_append
  | moved => exact (Records.beginnings_setHead ..).trans (List.append_nil _).symm
  | @executed request target actor plan blobs hmem _ _ htarget _ _ planned =>
    have hmerge := sound.merge_of_mem hmem
    have hthere : (s.tables.branch request.targetBranch request.plan).toOption.isSome = true := by
      rw [sound.isSome_branch, htarget]
      rfl
    -- A merge puts its version on a branch that is there.
    have hbegun (outcome : MergeOutcome) :
        (Deed.mk s stamp (.execute request.id actor) (.ok (.outcome outcome))).begun? = none := by
      show (s.made? _ _).bind _ = none
      rw [made?, hmerge]
      split
      · exact if_pos hthere
      · rfl
    rw [hbegun, Option.toList_none, List.append_nil, branches_executed htarget planned,
      Records.setBranchStatus, Records.beginnings_changeBranch, Records.beginnings_changeBranch]
    · exact fun branch => by cases plan <;> rfl
    · exact fun _ => rfl
  | _ => exact (List.append_nil _).symm

end Store

/-! ### Lists of rows in order -/

namespace Tables

/-- Rows that are in order are left there. -/
theorem ascendingBy_of_pairwise {ρ : Type} {text : ρ → String} {rows : List ρ}
    (h : rows.Pairwise fun a b => text a ≤ text b) : ascendingBy text rows = rows :=
  List.mergeSort_of_pairwise (h.imp fun hle => decide_eq_true hle)

section InOrder

variable {ρ α : Type} {read : ρ → Except BadCell α} (store : α → ρ) (text : ρ → String)
  (time : α → Timestamp) {records : List α}

/-- The rows of records that were created one after the other are in the order of their texts. -/
theorem ascendingBy_store (htext : ∀ record, text (store record) = (time record).text)
    (hwritable : ∀ record ∈ records, (time record).Writable)
    (hordered : records.Pairwise fun a b => time a ≤ time b) :
    ascendingBy text (records.map store) = records.map store := by
  refine ascendingBy_of_pairwise (List.pairwise_map.mpr (hordered.imp_of_mem fun ha hb hle => ?_))
  rw [htext, htext]
  exact (Timestamp.text_le_text_iff (hwritable _ ha) (hwritable _ hb)).mpr hle

/-- Of records that were created one after the other, some are read in this order, and the other
way round in the reverse. -/
theorem readRows_ascendingBy (htext : ∀ record, text (store record) = (time record).text)
    (hwritable : ∀ record ∈ records, (time record).Writable)
    (hordered : records.Pairwise fun a b => time a ≤ time b)
    (hread : ∀ record ∈ records, read (store record) = .ok record) (keeps : α → Bool) :
    let kept := records.filter keeps
    readRows read (ascendingBy text (kept.map store)) = .ok kept
      ∧ readRows read (ascendingBy text (kept.map store)).reverse = .ok kept.reverse := by
  intro kept
  have hmem {record : α} (h : record ∈ kept) : record ∈ records := (List.mem_filter.mp h).1
  have hsorted : ascendingBy text (kept.map store) = kept.map store :=
    ascendingBy_store store text time htext (fun record h => hwritable record (hmem h))
      (hordered.filter keeps)
  rw [hsorted, ← List.map_reverse]
  exact ⟨readRows_store fun record h => hread record (hmem h),
    readRows_store fun record h => hread record (hmem (List.mem_reverse.mp h))⟩

end InOrder

end Tables

/-! ### Runs -/

namespace Repository

variable {repository : Repository} {deeds : List Deed} {readings : List Instant}

/-- Whether the records are those that were made, in the order in which they were. -/
structure Stored (deeds : List Deed) (r : Records) : Prop where
  notes : r.notes = (deeds.filterMap Deed.note?).map Note.row
  comments : r.comments = (deeds.filterMap Deed.comment?).map CommentRow.store
  branches : r.branches.map BranchEntry.beginning = deeds.filterMap Deed.begun?
  writable : ∀ deed ∈ deeds, deed.stamp.time.Writable

theorem filterMap_concat {α : Type} (made? : Deed → Option α) (deeds : List Deed) (deed : Deed) :
    (deeds ++ [deed]).filterMap made? = deeds.filterMap made? ++ (made? deed).toList := by
  rw [List.filterMap_append, List.filterMap_cons, List.filterMap_nil]
  cases made? deed <;> rfl

/-- The records of a run are those that it made, in the order in which it made them. -/
theorem Chronicle.stored (h : Chronicle repository deeds) :
    ∃ r, repository.store.Sound r ∧ Stored deeds r := by
  refine h.invariant ⟨rfl, rfl, rfl, by simp⟩ fun {s r r' policy stamp operation answer blobs deeds}
    sound fresh step stored => ?_
  obtain ⟨hnotes, hcomments⟩ := step.remarks
  refine ⟨?_, ?_, ?_, forall_mem_concat stored.writable fresh.time⟩
  · rw [hnotes, stored.notes, filterMap_concat, List.map_append]
  · rw [hcomments, stored.comments, filterMap_concat, List.map_append]
  · rw [step.beginnings sound, stored.branches, filterMap_concat]

/-- Whether operations were carried out under a clock that never goes back, in years of four
digits: each at a reading, which was recorded as the time of its stamp. -/
structure Clocked (readings : List Instant) (deeds : List Deed) : Prop where
  nonDecreasing : readings.Pairwise fun earlier later => earlier ≤ later
  writable : ∀ reading ∈ readings, reading.Writable
  times : deeds.map (fun deed => deed.stamp.time) = readings.map Instant.recorded

/-- Under a clock that never goes back no operation has an earlier time than one before it. -/
theorem Clocked.pairwise (h : Clocked readings deeds) :
    deeds.Pairwise fun earlier later => earlier.stamp.time ≤ later.stamp.time := by
  have htimes : (deeds.map fun deed => deed.stamp.time).Pairwise
      fun earlier later => earlier ≤ later := by
    rw [h.times, List.pairwise_map]
    exact h.nonDecreasing.imp_of_mem fun ha hb =>
      Instant.recorded_mono (h.writable _ ha) (h.writable _ hb)
  exact List.pairwise_map.mp htimes

/-- What is made at the times of operations is made in their order. -/
theorem pairwise_filterMap {α : Type} {made? : Deed → Option α} {time : α → Timestamp}
    (htime : ∀ deed, ∀ made ∈ made? deed, time made = deed.stamp.time)
    (h : deeds.Pairwise fun earlier later => earlier.stamp.time ≤ later.stamp.time) :
    (deeds.filterMap made?).Pairwise fun earlier later => time earlier ≤ time later := by
  refine List.Pairwise.filterMap made? (fun deed later hle a ha b hb => ?_) h
  rw [htime deed a ha, htime later b hb]
  exact hle

theorem writable_of_mem_filterMap {α : Type} {made? : Deed → Option α} {time : α → Timestamp}
    (htime : ∀ deed, ∀ made ∈ made? deed, time made = deed.stamp.time)
    (h : ∀ deed ∈ deeds, deed.stamp.time.Writable) {made : α}
    (hmade : made ∈ deeds.filterMap made?) : (time made).Writable := by
  obtain ⟨deed, hdeed, hmem⟩ := List.mem_filterMap.mp hmade
  rw [htime deed made hmem]
  exact h deed hdeed

/-- Whether the lists of a repository are in the order of what was done: notes on a version and
comments as they were made, branches and the hits of a search the other way round. -/
structure InOrder (deeds : List Deed) (repository : Repository) : Prop where
  branches : ∀ stamp plan, ∃ branches,
    (repository.perform stamp (.branches plan)).1 = .ok (.branches branches)
      ∧ branches.map BranchEntry.beginning
        = ((deeds.filterMap Deed.begun?).filter fun beginning => beginning.plan == plan).reverse
      ∧ ∀ branch ∈ branches,
        repository.store.tables.branch branch.name branch.plan = .ok branch
  search : ∀ stamp plan query,
    (repository.perform stamp (.search plan query)).1
      = .ok (.notes ((((deeds.filterMap Deed.note?).filter fun note => note.plan == plan).filter
          fun note => note.Mentions query).reverse.take (max 1 repository.policy.searchLimit)))
  notes : ∀ stamp version,
    (repository.perform stamp (.notes version)).1
      = .ok (.notes ((deeds.filterMap Deed.note?).filter fun note => note.version == version))
  comments : ∀ stamp parent kind,
    (repository.perform stamp (.comments parent kind)).1
      = .ok (.comments ((deeds.filterMap Deed.comment?).filter fun comment =>
          comment.parent == parent && comment.parentKind == kind))

/-- Notes are kept at the times of the operations that attached them. -/
theorem Stored.note {r : Records} (stored : Stored deeds r) {note : Note}
    (h : note ∈ deeds.filterMap Deed.note?) : note.Storable := by
  constructor
  · exact writable_of_mem_filterMap (fun _ _ h => (Deed.createdAt_of_note? h).1) stored.writable h
  · exact writable_of_mem_filterMap (fun _ _ h => (Deed.createdAt_of_note? h).2) stored.writable h

theorem Stored.comment {r : Records} (stored : Stored deeds r) {comment : Comment}
    (h : comment ∈ deeds.filterMap Deed.comment?) : comment.Storable := by
  constructor
  · exact writable_of_mem_filterMap (fun _ _ h => (Deed.createdAt_of_comment? h).1)
      stored.writable h
  · exact writable_of_mem_filterMap (fun _ _ h => (Deed.createdAt_of_comment? h).2)
      stored.writable h

/-- Some of the notes of a run are read in the order in which they were made, and the other way
round in the reverse. -/
theorem Stored.readNotes {r : Records} (stored : Stored deeds r) (clocked : Clocked readings deeds)
    (keeps : Note → Bool) :
    let notes := (deeds.filterMap Deed.note?).filter keeps
    let rows := Tables.ascendingBy (fun row => row.createdAt) (notes.map Note.row)
    Tables.readRows NoteRow.read rows = .ok notes
      ∧ Tables.readRows NoteRow.read rows.reverse = .ok notes.reverse := by
  have hordered : (deeds.filterMap Deed.note?).Pairwise
      fun earlier later => earlier.createdAt ≤ later.createdAt :=
    pairwise_filterMap (fun _ _ h => (Deed.createdAt_of_note? h).1) clocked.pairwise
  exact Tables.readRows_ascendingBy Note.row (fun row => row.createdAt) (fun note => note.createdAt)
    (fun _ => rfl) (fun _ h => (stored.note h).createdAt) hordered
    (fun _ h => NoteRow.read_row (stored.note h)) keeps

/-- Some of the comments of a run are read in the order in which they were made. -/
theorem Stored.readComments {r : Records} (stored : Stored deeds r)
    (clocked : Clocked readings deeds) (keeps : Comment → Bool) :
    let comments := (deeds.filterMap Deed.comment?).filter keeps
    Tables.readRows CommentRow.read
        (Tables.ascendingBy (fun row => row.createdAt) (comments.map CommentRow.store))
      = .ok comments := by
  have hordered : (deeds.filterMap Deed.comment?).Pairwise
      fun earlier later => earlier.createdAt ≤ later.createdAt :=
    pairwise_filterMap (fun _ _ h => (Deed.createdAt_of_comment? h).1) clocked.pairwise
  exact (Tables.readRows_ascendingBy CommentRow.store (fun row => row.createdAt)
    (fun comment => comment.createdAt) (fun _ => rfl) (fun _ h => (stored.comment h).createdAt)
    hordered (fun _ h => CommentRow.read_store (stored.comment h)) keeps).1

/-- Some of the branches of a run are read in the reverse of the order in which they began. -/
theorem Stored.readBranches {r : Records} (stored : Stored deeds r)
    (clocked : Clocked readings deeds) (hstorable : ∀ branch ∈ r.branches, branch.Storable)
    (keeps : Branch → Bool) :
    let branches := r.branches.filter keeps
    Tables.readRows BranchRow.read
        (Tables.ascendingBy (fun row => row.createdAt) (branches.map BranchRow.store)).reverse
      = .ok branches.reverse := by
  have hbegun : (r.branches.map BranchEntry.beginning).Pairwise
      fun earlier later => earlier.time ≤ later.time := by
    rw [stored.branches]
    exact pairwise_filterMap (fun _ _ h => Deed.time_of_begun? h) clocked.pairwise
  have hordered : r.branches.Pairwise fun earlier later => earlier.createdAt ≤ later.createdAt := by
    rwa [List.pairwise_map] at hbegun
  exact (Tables.readRows_ascendingBy BranchRow.store (fun row => row.createdAt)
    (fun branch => branch.createdAt) (fun _ => rfl) (fun branch h => (hstorable branch h).createdAt)
    hordered (fun branch h => BranchRow.read_store (hstorable branch h)) keeps).2

/-- Under a clock that never goes back all lists are in the order of what was done. -/
theorem Chronicle.inOrder (h : Chronicle repository deeds) (clocked : Clocked readings deeds) :
    InOrder deeds repository := by
  obtain ⟨r, sound, stored⟩ := h.stored
  have hnotes : repository.store.tables.notes = (deeds.filterMap Deed.note?).map Note.row :=
    (congrArg Tables.notes sound.tables).trans stored.notes
  have hcomments : repository.store.tables.comments
      = (deeds.filterMap Deed.comment?).map CommentRow.store :=
    (congrArg Tables.comments sound.tables).trans stored.comments
  have hbranches : repository.store.tables.branches = r.branches.map BranchRow.store :=
    congrArg Tables.branches sound.tables
  constructor
  case branches =>
    intro stamp plan
    have hlisted : repository.store.tables.branchesOf plan
        = .ok (r.branches.filter fun branch => branch.plan == plan).reverse := by
      rw [Tables.branchesOf, hbranches, List.filter_map]
      exact stored.readBranches clocked sound.branches.storable fun branch => branch.plan == plan
    refine ⟨_, by rw [Repository.perform, Repository.read, hlisted]; rfl, ?_, fun branch hmem => ?_⟩
    · rw [← stored.branches, List.filter_map, List.map_reverse]
      rfl
    · have hmem := (List.mem_filter.mp (List.mem_reverse.mp hmem)).1
      exact sound.branch_eq_ok (sound.branches.branch?_of_mem hmem)
  case search =>
    intro stamp plan query
    have hlisted : repository.store.tables.notesOf plan
        = .ok ((deeds.filterMap Deed.note?).filter fun note => note.plan == plan).reverse := by
      rw [Tables.notesOf, hnotes, List.filter_map]
      exact (stored.readNotes clocked fun note => note.plan == plan).2
    rw [Repository.perform, Repository.read, Store.search_eq hlisted, List.filter_reverse]
    rfl
  case notes =>
    intro stamp version
    have hlisted : repository.store.tables.notesOn version
        = .ok ((deeds.filterMap Deed.note?).filter fun note => note.version == version) := by
      rw [Tables.notesOn, hnotes, List.filter_map]
      exact (stored.readNotes clocked fun note => note.version == version).1
    rw [Repository.perform, Repository.read, hlisted]
    rfl
  case comments =>
    intro stamp parent kind
    have hlisted : repository.store.tables.commentsOn parent kind
        = .ok ((deeds.filterMap Deed.comment?).filter fun comment =>
            comment.parent == parent && comment.parentKind == kind) := by
      rw [Tables.commentsOn, hcomments, List.filter_map]
      exact stored.readComments clocked _
    rw [Repository.perform, Repository.read, hlisted]
    rfl

/-- **The order of texts is the order of time.**  The texts of instants in years of four digits
are in the order of the instants to the microsecond, and name them so.  So the lists of every
run under a clock that never goes back are in the order in which their records were made, or in
the reverse of it, those of one microsecond included. -/
theorem text_order :
    (∀ t u : Instant, t.Writable → u.Writable →
        (t.text < u.text ↔ t.truncated < u.truncated)
          ∧ (t.text = u.text ↔ t.truncated = u.truncated)
          ∧ (u.text < t.text ↔ u.truncated < t.truncated))
      ∧ (∀ t : Instant, t.Writable → Timestamp.ofText? t.text = some t.truncated)
      ∧ ∀ repository deeds readings, Chronicle repository deeds → Clocked readings deeds →
        InOrder deeds repository :=
  ⟨fun _ _ ht hu => ⟨Instant.text_lt_text_iff ht hu, Instant.text_inj ht hu,
    Instant.text_lt_text_iff hu ht⟩, fun _ => Instant.ofText?_text,
    fun _ _ _ h clocked => h.inOrder clocked⟩

/-! ### Remarks within one microsecond -/

/-- Two notes and two comments on the first version of the hall. -/
def remarkSteps : List (String × Operation) :=
  hallSteps ++
    [("door", .addNote ⟨"first", hallPlan, some "hall", none, none, "todo", "Door", "", "clerk"⟩),
      ("floor", .addNote ⟨"first", hallPlan, none, none, none, "todo", "Floor", "", "clerk"⟩),
      ("seen", .addComment ⟨"first", .version, "Seen", "clerk"⟩),
      ("done", .addComment ⟨"first", .version, "Done", "clerk"⟩)]

theorem ordered_remarkSteps : ∀ step ∈ remarkSteps, step.2.Ordered :=
  List.forall_mem_append.mpr ⟨ordered_hallSteps, List.forall_mem_cons.mpr ⟨trivial,
    List.forall_mem_cons.mpr ⟨trivial, List.forall_mem_cons.mpr ⟨trivial,
      List.forall_mem_singleton.mpr trivial⟩⟩⟩⟩

/-- A clock that goes on by a nanosecond from one operation to the next. -/
def nanoReadings (count : Nat) : List Instant :=
  (List.range count).map fun i : Nat => Instant.ofNanos i

/-- What is made within one microsecond is listed in the order in which it was made. -/
theorem text_order_remarks :
    Clocked (nanoReadings 6) ((empty .standard).deeds remarkSteps)
      ∧ (∃ branches, (((empty .standard).play remarkSteps).perform (.named "ask")
            (.branches hallPlan)).1 = .ok (.branches branches)
          ∧ branches.map (fun branch => branch.name) = ["draft", "main"])
      ∧ (∃ notes, (((empty .standard).play remarkSteps).perform (.named "ask")
            (.notes "first")).1 = .ok (.notes notes)
          ∧ notes.map (fun note => note.id) = ["door", "floor"])
      ∧ (∃ hits, (((empty .standard).play remarkSteps).perform (.named "ask")
            (.search hallPlan "oo")).1 = .ok (.notes hits)
          ∧ hits.map (fun note => note.id) = ["floor", "door"])
      ∧ ∃ comments, (((empty .standard).play remarkSteps).perform (.named "ask")
            (.comments "first" .version)).1 = .ok (.comments comments)
          ∧ comments.map (fun comment => comment.id) = ["seen", "done"] := by
  have hnew : (empty .standard).admits remarkSteps = true := by decide +kernel
  have hclocked : Clocked (nanoReadings 6) ((empty .standard).deeds remarkSteps) :=
    ⟨by decide +kernel, by decide +kernel, by decide +kernel⟩
  have hinOrder := text_order.2.2 _ _ _ (chronicle_play .standard hnew ordered_remarkSteps)
    hclocked
  obtain ⟨branches, hbranches, hbegun, -⟩ := hinOrder.branches (.named "ask") hallPlan
  refine ⟨hclocked, ⟨branches, hbranches, ?_⟩, ⟨_, hinOrder.notes _ _, by decide +kernel⟩,
    ⟨_, hinOrder.search _ _ _, by decide +kernel⟩, ⟨_, hinOrder.comments _ _ _, by decide +kernel⟩⟩
  have hnames := congrArg (List.map Beginning.branch) hbegun
  rw [List.map_map] at hnames
  exact hnames.trans (by decide +kernel)

end Repository

end PlanHistory
