/-
What is committed of a text reads back as what the text spells.

Whether a version is made of a request does not depend on its document, as long as that is
accepted (`Store.Admits`).  The version that is made gives the document back at once and
after all that follows, and its bytes are those of every text that spells the same document.

* **`Store.Sound.exists_commit_iff`** — what a request needs for a version to be made;
* **`Repository.Reachable.content_committed`** — the version gives what was committed;
* **`Repository.Reachable.read_back`** — the same told of texts, with what tells their
  canonical bytes apart.
-/
import PlanHistory.Proofs.Json.Grammar
import PlanHistory.Proofs.Repository.Immutable

namespace PlanHistory

/-! ### Which requests make a version -/

/-- A parent is refused only if there is a head and it is another version. -/
theorem Tables.exists_newParent?_iff {name : String} {branch? : Option Branch}
    {asked? : Option String} :
    (∃ parent?, newParent? name branch? asked? = .ok parent?)
      ↔ ∀ asked ∈ asked?, ∀ branch ∈ branch?, branch.head = asked := by
  cases asked? with
  | none => cases branch? <;> simp [newParent?]
  | some asked =>
    cases branch? with
    | none => simp [newParent?]
    | some branch => by_cases hhead : branch.head = asked <;> simp [newParent?, hhead]

namespace Store

/-- What a request needs, apart from an accepted document, for a version to be made of it. -/
structure Admits (s : Store) (request : NewVersion) : Prop where
  plan : requirePlan request.plan = .ok ()
  branch : require .branchName request.branch = .ok ()
  /-- The parent that it asks for, if it does, is a version of the plan. -/
  parent : ∀ asked ∈ request.parent?, ∃ version, s.tables.version asked = .ok version
    ∧ version.plan = request.plan
  /-- That parent is the head of the branch, if the branch is there. -/
  head : ∀ asked ∈ request.parent?, ∀ branch,
    s.tables.branch request.branch request.plan = .ok branch → branch.head = asked
  /-- A branch that is there goes only to a version that can be read. -/
  place : ∀ branch, s.tables.branch request.branch request.plan = .ok branch →
    Legible request.metadata

variable {s : Store} {r : Records} {stamp : Stamp} {request : NewVersion} {content : Json}

theorem check_eq_ok_iff (accepted : Document.validate content = .ok ()) :
    request.check content = .ok ()
      ↔ requirePlan request.plan = .ok () ∧ require .branchName request.branch = .ok () := by
  constructor
  · intro h
    obtain ⟨⟨hbranch, hplan⟩, -⟩ := check_eq_ok h
    exact ⟨hplan, hbranch⟩
  · rintro ⟨hplan, hbranch⟩
    rw [NewVersion.check, hplan, hbranch, accepted]
    rfl

/-- A version of an accepted document is made exactly if the request is admitted. -/
theorem Sound.exists_commit_iff (sound : s.Sound r) (fresh : stamp.Fresh s)
    (accepted : Document.validate content = .ok ())
    (metadata : (Json.object request.metadata).Ordered) :
    (∃ receipt, (s.commit stamp content request).1 = .ok receipt) ↔ s.Admits request := by
  have hversion (asked : String) : s.tables.version asked = r.readVersion asked := by
    rw [sound.tables, Records.version_tables sound.storable]
  have hbranch (branch : Branch) : s.tables.branch request.branch request.plan = .ok branch
      ↔ branch ∈ r.branch? request.branch request.plan :=
    ⟨sound.branch?_eq, sound.branch_eq_ok⟩
  have hparent : (∃ parent?, r.parentFor request = .ok parent?)
      ↔ (∀ asked ∈ request.parent?, ∃ version, s.tables.version asked = .ok version
          ∧ version.plan = request.plan)
        ∧ (∀ asked ∈ request.parent?, ∀ branch,
          s.tables.branch request.branch request.plan = .ok branch → branch.head = asked)
        ∧ ∀ branch, s.tables.branch request.branch request.plan = .ok branch →
          Legible request.metadata := by
    simp only [Records.parentFor_eq_ok_iff, exists_and_left, exists_and_right,
      Tables.exists_newParent?_iff, hversion, hbranch, Option.isSome_iff_exists, Option.mem_def,
      forall_exists_index]
  rw [commit_eq sound fresh content metadata]
  constructor
  · rintro ⟨receipt, h⟩
    split at h
    next => simp at h
    next => simp at h
    next parent? hcheck hparent? =>
      obtain ⟨hplan, hname⟩ := (check_eq_ok_iff accepted).mp hcheck
      obtain ⟨hasked, hhead, hplace⟩ := hparent.mp ⟨parent?, hparent?⟩
      exact ⟨hplan, hname, hasked, hhead, hplace⟩
  · intro admits
    obtain ⟨parent?, hparent?⟩ := hparent.mpr ⟨admits.parent, admits.head, admits.place⟩
    rw [(check_eq_ok_iff accepted).mpr ⟨admits.plan, admits.branch⟩, hparent?]
    exact ⟨_, rfl⟩

end Store

namespace Repository

variable {repository later : Repository} {stamp next : Stamp} {request : NewVersion}
  {document : Json} {receipt : Receipt}

/-- The version that a commit makes gives the document that was committed, if that was read from
a text, whatever follows. -/
theorem Reachable.content_committed (h : Reachable repository)
    (fresh : stamp.Fresh repository.store) (hread : document.Within Json.nestingLimit)
    (metadata : (Json.object request.metadata).Ordered)
    (hreceipt : (repository.perform stamp (.commit document request)).1 = .ok (.receipt receipt))
    (hleads : Leads (repository.perform stamp (.commit document request)).2 later) :
    (later.perform next (.content receipt.version)).1 = .ok (.content document) := by
  have hwrites : repository.store.Writes (.commit document request)
      (repository.perform stamp (.commit document request)).1 receipt.version document :=
    hreceipt ▸ .commit
  have given : (Operation.commit document request).Ordered := ⟨hread.ordered, metadata⟩
  obtain ⟨-, hblob, -⟩ := h.of_writes fresh given hwrites
  have hcontent := Blobs.content_of_read? hread.ordered hblob
  rw [if_pos hread.nesting] at hcontent
  have hkept := (hleads.keeps (h.perform stamp _ fresh given)).content hcontent
  exact congrArg (Except.map Answer.content) hkept

/-- Whether versions that are made of one document give another: at once and after all that
follows. -/
structure GivesBack (repository : Repository) (committed document : Json) : Prop where
  /-- A version is made exactly of the requests that are admitted. -/
  made : ∀ {stamp : Stamp} {request : NewVersion}, stamp.Fresh repository.store →
    (Json.object request.metadata).Ordered →
      ((∃ receipt, (repository.perform stamp (.commit committed request)).1
          = .ok (.receipt receipt))
        ↔ repository.store.Admits request)
  gives : ∀ {stamp next : Stamp} {request : NewVersion} {receipt : Receipt}
    {later : Repository}, stamp.Fresh repository.store →
      (Json.object request.metadata).Ordered →
        (repository.perform stamp (.commit committed request)).1 = .ok (.receipt receipt) →
          Leads (repository.perform stamp (.commit committed request)).2 later →
            (later.perform next (.content receipt.version)).1 = .ok (.content document)

theorem Reachable.givesBack (h : Reachable repository) (hread : document.Within Json.nestingLimit)
    (accepted : Document.validate document = .ok ()) :
    GivesBack repository document document where
  made {stamp request} fresh metadata := by
    obtain ⟨r, sound⟩ := h.sound
    rw [← sound.exists_commit_iff fresh accepted metadata, Repository.perform, Repository.write]
    cases (repository.store.commit stamp document request).1 <;> simp [Except.map]
  gives fresh metadata := h.content_committed fresh hread metadata

/-- **What is committed of a text reads back as what the text spells, and the canonical bytes
tell apart what texts spell and nothing else.**  Texts are read exactly if they spell a value
within the limit of nesting, and the canonical form is read as the same value again.  The two
zeros among the doubles are told apart, and an integer from a double. -/
theorem Reachable.read_back (h : Reachable repository) :
    (∀ {text : String} {value : Json}, Json.parse? text = some value
        ↔ Json.DenotesWithin Json.nestingLimit text value)
      ∧ (∀ {text : String} {committed document : Json}, Json.parse? text = some committed →
        Json.Denotes text document → Document.validate document = .ok () →
          GivesBack repository committed document)
      ∧ (∀ {text : String} {value : Json}, Json.parse? text = some value →
        Json.Denotes value.canonical value
          ∧ (Json.ofBytes? (Document.contentBytes value)).map Document.contentBytes
            = some (Document.contentBytes value))
      ∧ (∀ {text other : String} {value value' : Json}, Json.parse? text = some value →
        Json.parse? other = some value' →
          (Document.contentBytes value = Document.contentBytes value'
            ↔ Json.SameSpelled text other))
      ∧ ¬ Json.SameSpelled "0.0" "-0.0" ∧ ¬ Json.SameSpelled "1" "1.0" := by
  refine ⟨Json.parse?_eq_some_iff, fun hread hspelled accepted => ?_, fun hread => ?_,
    Json.contentBytes_eq_iff,
    Json.not_sameSpelled "0.0" "-0.0" (by decide +kernel) (by decide +kernel) (by decide),
    Json.not_sameSpelled "1" "1.0" (by decide +kernel) (by decide +kernel) (by decide)⟩
  · obtain rfl := (Json.denotes_of_parse? hread).unique hspelled
    obtain ⟨ordered, hnesting⟩ := Json.ordered_of_parse? hread
    exact h.givesBack ⟨ordered, hnesting⟩ accepted
  · obtain ⟨hcanonical, hbytes⟩ := Json.normal_of_parse? hread
    rw [hbytes]
    exact ⟨hcanonical, rfl⟩

/-- A floor as someone may write it down: with blanks, an escape, a member that another
overwrites, and the members of objects in any order. -/
def writtenHall : String :=
  " \x7b \"objects\":[ \x7b\"name\":\"caf\\u00e9\\n\",\"size\":1.0,\"id\":7,\"id\":\"b\"\x7d ] ,\n"
    ++ "\"level\":-0\x7d\t"

/-- A version on the main branch. -/
def onMain : NewVersion := ⟨hallPlan, "main", "hall", "clerk", none, .minor, []⟩

theorem read_back_written :
    ∃ document receipt, Json.parse? writtenHall = some document
      ∧ document.canonical = "\x7b\"level\":-0.0,\"objects\":["
        ++ "\x7b\"id\":\"b\",\"name\":\"café\\n\",\"size\":1.0\x7d]\x7d"
      ∧ ((empty .standard).perform (.named "first") (.commit document onMain)).1
        = .ok (.receipt receipt)
      ∧ ∀ later next,
        Leads ((empty .standard).perform (.named "first") (.commit document onMain)).2 later →
          (later.perform next (.content receipt.version)).1 = .ok (.content document) := by
  have hruns : (Json.parse? writtenHall).map (fun document =>
        (document.canonical, Document.defect? document))
      = some ("\x7b\"level\":-0.0,\"objects\":["
        ++ "\x7b\"id\":\"b\",\"name\":\"café\\n\",\"size\":1.0\x7d]\x7d", none) := by
    decide +kernel
  obtain ⟨document, hread, hdocument⟩ := Option.map_eq_some_iff.mp hruns
  obtain ⟨hcanonical, hdefect⟩ := Prod.mk.inj hdocument
  have accepted : Document.validate document = .ok () := by rw [Document.validate, hdefect]
  obtain ⟨-, hgives, -⟩ := (Reachable.empty .standard).read_back
  have hback := hgives hread (Json.denotes_of_parse? hread) accepted
  have fresh : (Stamp.named "first").Fresh (empty .standard).store :=
    Stamp.fresh_named (by decide +kernel)
  have metadata : (Json.object onMain.metadata).Ordered := ordered_noMetadata
  have admits : (empty .standard).store.Admits onMain :=
    ⟨rfl, rfl, by simp [onMain], by simp [onMain], by rintro branch ⟨⟩⟩
  obtain ⟨receipt, hreceipt⟩ := (hback.made fresh metadata).mpr admits
  exact ⟨document, receipt, hread, hcanonical, hreceipt, fun later next hleads =>
    hback.gives fresh metadata hreceipt hleads⟩

end Repository

end PlanHistory
