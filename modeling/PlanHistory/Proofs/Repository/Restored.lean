/-
Bringing back a version brings back its content.

A version whose row and content are read can be brought back on any branch, of its own or new:
its document was accepted when it was written, by whatever operation, and is accepted again, and
its canonical bytes are read as a document with the same canonical bytes (`Store.Restores`).

* **`Store.Sound.restore_eq`** — the version and the branch that are recorded;
* **`Repository.Reachable.restore_answer`** — restoring succeeds exactly if the row is read, and
  every content that is read is accepted.
-/
import PlanHistory.Proofs.Repository.Commits
import PlanHistory.Proofs.Repository.Outcome

namespace PlanHistory

/-- A version that is brought back goes on top of the head of its branch. -/
theorem Records.parentFor_restoring (r : Records) (source : Version) (branch author : String)
    (message? : Option String) :
    r.parentFor (Store.restoring source branch author message?)
      = .ok ((r.branch? branch source.plan).map fun found => found.head) := by
  refine parentFor_eq_ok_iff.mpr ⟨by rintro asked ⟨⟩, ?_, fun _ =>
    (Store.within_metadata_restoring source branch author message?).nesting⟩
  show Tables.newParent? branch (r.branch? branch source.plan) none = _
  cases r.branch? branch source.plan <;> rfl

namespace Store

/-- What bringing back a version on a branch leaves: a version of the same plan with the same
content on top of the head that the branch had, if it was there, and all that was there. -/
structure Restores (before after : Store) (source : Version) (branch : String)
    (receipt : Receipt) : Prop where
  new : before.tables.hasVersion receipt.version = false
  version : ∃ version, after.tables.version receipt.version = .ok version
    ∧ version.plan = source.plan ∧ version.branch = branch ∧ version.kind = .patch
    ∧ version.metadata = [("restored_from", .string source.id)]
    ∧ version.contentHash = source.contentHash ∧ version.contentSize = source.contentSize
    ∧ (∃ branch?, before.tables.branch? branch source.plan = .ok branch?
      ∧ version.parent? = branch?.map fun found => found.head)
    -- It is the only version that is added.
    ∧ after.tables.versions.rows = before.tables.versions.rows ++ [VersionRow.store version]
  bytes : ∃ bytes, Blobs.read? source.id before.blobs = some bytes
    ∧ Blobs.read? receipt.version after.blobs = some bytes
  head : ∃ found, after.tables.branch branch source.plan = .ok found
    ∧ found.head = receipt.version
  keeps : before.Keeps after

variable {s : Store} {r : Records} {stamp : Stamp} {id branch author : String}
  {message? : Option String} {source : Version} {document : Json}

/-- A content that is read was accepted when it was written. -/
theorem Sound.validate_of_content (sound : s.Sound r)
    (hcontent : Blobs.content id s.blobs = .ok document) :
    Document.validate document = .ok () := by
  obtain ⟨version, hmem, rfl⟩ := sound.exists_of_content hcontent
  exact (sound.versions.holds_of_content hmem hcontent).1.valid.accepted

/-- Nothing but the name of the branch can speak against bringing back a version. -/
theorem Sound.check_restoring (sound : s.Sound r) (hsource : r.version? id = some source)
    (hcontent : Blobs.content id s.blobs = .ok document) (named : Text.isBlank branch = false) :
    (restoring source branch author message?).check document = .ok () := by
  obtain ⟨hmem, -⟩ := Records.mem_of_version? hsource
  obtain ⟨home, hhome, -, hplan⟩ := sound.branches.homes source hmem
  obtain ⟨-, hplanned⟩ := sound.branches.named home hhome
  rw [hplan] at hplanned
  exact (check_eq_ok_iff (sound.validate_of_content hcontent)).mpr
    ⟨hplanned, require_eq_ok_iff.mpr named⟩

/-- The version that brings back another. -/
def restored (r : Records) (stamp : Stamp) (source : Version) (document : Json)
    (branch author : String) (message? : Option String) : Version :=
  r.newVersion (restoring source branch author message?) (stamp.prepared document)
    ((r.branch? branch source.plan).map fun found => found.head)

theorem Sound.restore_eq (sound : s.Sound r) (fresh : stamp.Fresh s)
    (hsource : s.tables.version id = .ok source)
    (hcontent : Blobs.content id s.blobs = .ok document) (named : Text.isBlank branch = false)
    (author : String) (message? : Option String) :
    s.restore stamp id branch author message?
      = let version := restored r stamp source document branch author message?
        (.ok ⟨version.id, version.number, version.contentHash⟩,
          ⟨(r.record version stamp.time).tables,
            Keyed.insert stamp.id (Document.contentBytes document) s.blobs⟩) := by
  have hmetadata := within_metadata_restoring source branch author message?
  rw [restore, content_blobs, hcontent, hsource]
  dsimp only
  rw [commit_eq sound fresh document hmetadata.ordered,
    sound.check_restoring (sound.version?_eq hsource) hcontent named, r.parentFor_restoring]
  rfl

/-- A version with a content is not brought back if its row is not read. -/
theorem Sound.restore_of_unread (sound : s.Sound r) (hunread : ¬ s.tables.Reads id)
    (hcontent : Blobs.content id s.blobs = .ok document) (stamp : Stamp) (branch author : String)
    (message? : Option String) :
    s.restore stamp id branch author message? = (.error .illegible, s) := by
  obtain ⟨version, hmem, rfl⟩ := sound.exists_of_content hcontent
  have hversion := Records.version?_of_mem sound.versions.idsDiffer hmem
  have hillegible := mt (sound.reads_iff hmem).mpr hunread
  rw [restore, sound.tables, Records.version_tables sound.storable,
    Records.readVersion_of_illegible hversion hillegible]

theorem Sound.restores (sound : s.Sound r) (fresh : stamp.Fresh s)
    (hsource : s.tables.version id = .ok source)
    (hcontent : Blobs.content id s.blobs = .ok document) (named : Text.isBlank branch = false)
    (author : String) (message? : Option String) :
    ∃ receipt, (s.restore stamp id branch author message?).1 = .ok receipt
      ∧ s.Restores (s.restore stamp id branch author message?).2 source branch receipt := by
  have hrestore := sound.restore_eq fresh hsource hcontent named author message?
  have hcheck : (restoring source branch author message?).check document = .ok () :=
    sound.check_restoring (sound.version?_eq hsource) hcontent named
  have hparent := r.parentFor_restoring source branch author message?
  have hmetadata := within_metadata_restoring source branch author message?
  obtain ⟨hmem, hid⟩ := Records.mem_of_version? (sound.version?_eq hsource)
  subst hid
  obtain ⟨hholds, -⟩ := sound.versions.holds_of_content hmem hcontent
  have sound' := sound.committed fresh hholds.valid.ordered hmetadata.ordered hcheck hparent
  have step : s.Step r .standard stamp (.restore source.id branch author message?) _ _ _ :=
    .restored (sound.version?_eq hsource) hcontent (.committed hcheck hparent rfl)
  have hnew := r.version?_record (restored r stamp source document branch author message?)
    (sound.version?_eq_none fresh) sound.versions.idsDiffer stamp.time
  obtain ⟨found, hfound, -, hhead⟩ := r.exists_branch?_record
    (restored r stamp source document branch author message?) stamp.time
  rw [hrestore]
  refine ⟨_, rfl,
    { new := fresh.version
      version := ⟨restored r stamp source document branch author message?,
        sound'.version_eq_ok_iff.mpr ⟨hnew, hmetadata.nesting⟩, rfl, rfl, rfl, rfl,
        hholds.hash.symm, hholds.size.symm, ⟨r.branch? branch source.plan, ?_, rfl⟩, ?_⟩
      bytes := ⟨_, hholds.blob, Blobs.read?_insert_self fresh.safe⟩
      head := ⟨found, sound'.branch_eq_ok hfound, hhead⟩
      keeps := step.keeps sound sound' fresh }⟩
  · rw [sound.tables, Records.branch?_tables sound.storable]
  · exact sound'.versionRows.trans (by
      rw [Records.versions_record, List.map_append, List.map_singleton, sound.versionRows]
      rfl)

end Store

namespace Repository

variable {repository : Repository} {stamp : Stamp} {id branch : String} {source : Version}
  {document : Json}

theorem Reachable.restore_of_unread (h : Reachable repository)
    (hunread : ¬ repository.store.tables.Reads id)
    (hcontent : repository.store.content id = .ok document) (stamp : Stamp)
    (branch author : String) (message? : Option String) :
    repository.perform stamp (.restore id branch author message?)
      = (.error .illegible, repository) := by
  obtain ⟨r, sound⟩ := h.sound
  rw [Store.content_blobs] at hcontent
  rw [Repository.perform, write, sound.restore_of_unread hunread hcontent]
  rfl

/-- **Bringing back a version brings back its content.**  A version whose content is read is
brought back on every branch whose name is not blank if its row is read, and nothing that was
there is changed; it is refused if its row is not read.  A content that is read is always
accepted, whatever operation wrote it. -/
theorem Reachable.restore_answer (h : Reachable repository)
    (fresh : stamp.Fresh repository.store) (hcontent : repository.store.content id = .ok document)
    (named : Text.isBlank branch = false) (author : String) (message? : Option String) :
    (∀ source, repository.store.tables.version id = .ok source →
        ∃ receipt, (repository.perform stamp (.restore id branch author message?)).1
            = .ok (.receipt receipt)
          ∧ repository.store.Restores
            (repository.perform stamp (.restore id branch author message?)).2.store source branch
            receipt)
      ∧ (¬ repository.store.tables.Reads id →
        repository.perform stamp (.restore id branch author message?)
          = (.error .illegible, repository))
      ∧ ∀ other held, repository.store.content other = .ok held →
        Document.validate held = .ok () := by
  obtain ⟨r, sound⟩ := h.sound
  refine ⟨fun source hsource => ?_,
    fun hunread => h.restore_of_unread hunread hcontent stamp branch author message?,
    fun other held hheld => ?_⟩
  · rw [Store.content_blobs] at hcontent
    obtain ⟨receipt, hreceipt, hrestores⟩ :=
      sound.restores fresh hsource hcontent named author message?
    exact ⟨receipt, congrArg (Except.map Answer.receipt) hreceipt, hrestores⟩
  · rw [Store.content_blobs] at hheld
    exact sound.validate_of_content hheld

/-- The hall comes to the size that a label gave it, in a version of a merge. -/
def mergedSteps : List (String × Operation) :=
  resizedSteps ++ [("run", .execute "open" "clerk")]

theorem ordered_mergedSteps : ∀ step ∈ mergedSteps, step.2.Ordered := by
  rw [mergedSteps, resizedSteps, List.append_assoc]
  exact List.forall_mem_append.mpr ⟨ordered_resizeSteps,
    List.forall_mem_cons.mpr ⟨trivial, List.forall_mem_singleton.mpr trivial⟩⟩

/-- The version of the merge is brought back on a branch that is not there yet. -/
theorem restore_answer_merged :
    ∃ source document receipt,
      Reachable ((empty .standard).play mergedSteps)
        ∧ ((empty .standard).play mergedSteps).store.tables.version "run" = .ok source
        ∧ source.branch = "main"
        ∧ ((empty .standard).play mergedSteps).store.content "run" = .ok document
        ∧ (((empty .standard).play mergedSteps).perform (.named "again")
          (.restore "run" "copy" "clerk" none)).1 = .ok (.receipt receipt)
        ∧ ((empty .standard).play mergedSteps).store.Restores
          (((empty .standard).play mergedSteps).perform (.named "again")
            (.restore "run" "copy" "clerk" none)).2.store source "copy" receipt := by
  have hruns : (empty .standard).admits mergedSteps = true
      ∧ Stamp.isNew "again" ((empty .standard).play mergedSteps).store = true
      ∧ (((empty .standard).play mergedSteps).store.tables.version "run").toOption.map
          (fun source => source.branch) = some "main"
      ∧ (((empty .standard).play mergedSteps).store.content "run").toOption.isSome = true := by
    decide +kernel
  obtain ⟨hnew, hagain, hversion, hread⟩ := hruns
  obtain ⟨source, hsource, hbranch⟩ := Option.map_eq_some_iff.mp hversion
  obtain ⟨document, hdocument⟩ := exists_content hread
  have hreachable : Reachable ((empty .standard).play mergedSteps) :=
    (Reachable.empty _).play hnew ordered_mergedSteps
  have hsource := eq_ok_of_toOption hsource
  have named : Text.isBlank "copy" = false := by decide
  obtain ⟨hrestored, -⟩ := hreachable.restore_answer
    (Stamp.fresh_named hagain) hdocument named "clerk" none
  obtain ⟨receipt, hreceipt, hrestores⟩ := hrestored source hsource
  exact ⟨source, document, receipt, hreachable, hsource, hbranch, hdocument, hreceipt, hrestores⟩

/-- The head of the draft is not brought back, though its content is read. -/
theorem restore_unreadDraft :
    Reachable unreadDraft
      ∧ (Stamp.named "run").Fresh unreadDraft.store
      ∧ (∃ document, unreadDraft.store.content "other" = .ok document)
      ∧ Text.isBlank "main" = false
      ∧ (unreadDraft.perform (.named "run") (.restore "other" "main" "clerk" none)).1
        = .error .illegible := by
  obtain ⟨-, -, -, hread, -⟩ := unreadDraft_facts
  obtain ⟨document, hdocument⟩ := exists_content hread
  have hrestore := reachable_unreadDraft.restore_of_unread unread_unreadDraft hdocument
    (.named "run") "main" "clerk" none
  exact ⟨reachable_unreadDraft, fresh_unreadDraft, ⟨document, hdocument⟩, by decide,
    congrArg Prod.fst hrestore⟩

end Repository

end PlanHistory
