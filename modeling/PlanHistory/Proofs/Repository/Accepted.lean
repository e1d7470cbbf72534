/-
A merged document may be committed.

Whatever the labels of a merge are, and whether all divergences are settled or some, what
comes into the place of an object has the key of the object (`Merge.InPlace`).  The id of an
object may be an integer on one side and a text on the other, but of three ids that name one
key two agree, so that the property `id` never diverges; and a label that spells an object is
given the id of the one in whose place it stands.

* **`Merge.inPlace_document`** — the merged document of two accepted ones is accepted, and
  its objects are in the place of theirs;
* **`Repository.merge_accepted`** — hence planning a merge never refuses the document.
-/
import PlanHistory.Proofs.Repository.Reachable

namespace PlanHistory

open Document (objectKey? objectMap orderedObjects)

/-! ### Documents -/

namespace Merge

/-- Whether a merged document is accepted, and its objects are in the place of those of its
two sides. -/
structure InPlace (base? : Option Json) (source target : Json) (rulings : List Ruling) :
    Prop where
  accepted : Document.validate (document base? source target rulings) = .ok ()
  /-- There is an object under a key if the rules and the labels give one there. -/
  placed : ∀ key, Keyed.get? key (objectMap (document base? source target rulings))
    = (verdict base? source target rulings key).value?
  /-- What they give has the key of an object of one of the two sides. -/
  keyed : ∀ key item, (verdict base? source target rulings key).value? = some item →
    objectKey? item = some key ∧ ∃ original, objectKey? original = some key
      ∧ (Keyed.get? key (objectMap source) = some original
        ∨ Keyed.get? key (objectMap target) = some original)
  keysDiffer : (Keyed.keys (orderedObjects (document base? source target rulings))).Nodup
  known : ∀ key ∈ Keyed.keys (orderedObjects (document base? source target rulings)),
    key ∈ Keyed.keys (orderedObjects source) ∨ key ∈ Keyed.keys (orderedObjects target)

variable {base? : Option Json} {source target item : Json} {rulings : List Ruling} {key : String}

/-- What is put under a key replaces an object that one of the two sides has there. -/
theorem exists_original (recorded : Recorded source target rulings)
    (h : (verdict base? source target rulings key).value? = some item) :
    ∃ original, objectKey? original = some key
      ∧ (Keyed.get? key (objectMap source) = some original
        ∨ Keyed.get? key (objectMap target) = some original) := by
  cases hsource : Keyed.get? key (objectMap source) with
  | some original => exact ⟨original, Document.objectKey?_of_get? hsource, Or.inl rfl⟩
  | none =>
    cases htarget : Keyed.get? key (objectMap target) with
    | some original => exact ⟨original, Document.objectKey?_of_get? htarget, Or.inr rfl⟩
    | none =>
      rw [verdict_of_absent recorded hsource htarget] at h
      exact absurd h (by simp [Verdict.value?])

theorem inPlace_document (hsource : Document.Valid source) (htarget : Document.Valid target)
    (recorded : Recorded source target rulings) : InPlace base? source target rulings where
  accepted :=
    validate_document recorded htarget.ordered hsource.accepted htarget.accepted
  placed := get?_document recorded htarget.ordered
  keyed _ _ h := ⟨objectKey?_of_object recorded htarget.ordered h, exists_original recorded h⟩
  keysDiffer := Document.nodup_keys_orderedObjects
    (validate_document recorded htarget.ordered hsource.accepted htarget.accepted)
  known key hmem := by
    rw [keys_document recorded htarget.ordered] at hmem
    have hside := mem_order.mp (List.mem_filter.mp hmem).1
    rwa [Keyed.get?_isSome_iff, Keyed.get?_isSome_iff, Document.mem_keys_objectMap,
      Document.mem_keys_objectMap] at hside

end Merge

/-! ### Plans -/

namespace Store

variable {s : Store} {r : Records} {stamp : Stamp} {request : MergeRequest} {actor : String}
  {failure : Failure}

theorem prepare_error {content : Json} {blobs : Blobs}
    (h : prepare stamp content blobs = .error failure) : failure.isStorage = true := by
  rw [prepare.eq_def] at h
  dsimp only at h
  split at h
  · simp at h
  · rw [← Except.error.inj h]
    rfl

/-- Where the branch and the contents of a request are found and the merged document is
accepted, planning fails only if the blob cannot be written. -/
theorem isStorage_of_planMerge {details : MergeDetails} {merged source target : Json}
    {branch : Branch}
    (hbranch : s.tables.branch details.request.sourceBranch details.request.plan = .ok branch)
    (hmerged : s.mergedContent details = .ok (merged, source, target))
    (accepted : Document.validate merged = .ok ())
    (h : s.planMerge stamp details actor = .error failure) : failure.isStorage = true := by
  rw [planMerge, hbranch, hmerged] at h
  dsimp only [bind, Except.bind] at h
  rw [accepted] at h
  split at h
  · simp [pure, Except.pure] at h
  split at h
  · simp [pure, Except.pure] at h
  split at h
  · simp [pure, Except.pure] at h
  cases hprepare : prepare stamp merged s.blobs with
  | ok prepared => simp [hprepare, pure, Except.pure, Except.mapError] at h
  | error fault =>
    rw [hprepare] at h
    rw [← Except.error.inj h]
    exact prepare_error hprepare

end Store

/-! ### Repositories -/

namespace Repository

/-- **A merged document may be committed.**  Whatever labels settle some of the divergences of
two accepted documents, or all of them, the merged document is accepted, and its objects are in
the place of theirs.  So planning a merge request of a repository that operations lead to never
refuses the merged document. -/
theorem merge_accepted :
    (∀ base? source target rulings, Document.Valid source → Document.Valid target →
        (∀ ruling ∈ rulings, ruling.toDivergence ∈ Divergence.since base? source target) →
        Merge.InPlace base? source target rulings)
      ∧ ∀ repository, Reachable repository → ∀ id details,
        repository.store.tables.mergeDetails id = .ok details →
        (∃ merged source target,
          repository.store.mergedContent details = .ok (merged, source, target)
            ∧ Document.validate merged = .ok ())
          ∧ ∀ stamp actor why,
            repository.store.planMerge stamp details actor ≠ .error (.invalid why) := by
  constructor
  · intro base? source target rulings hsource htarget hrulings
    exact Merge.inPlace_document hsource htarget fun ruling hmem =>
      Divergence.records_of_mem_since (hrulings ruling hmem)
  · intro repository hreachable id details hdetails
    obtain ⟨r, sound⟩ := hreachable.sound
    obtain ⟨request, hrequest, rfl⟩ := sound.of_mergeDetails hdetails
    obtain rfl := Records.id_of_merge? hrequest
    have hmem : request ∈ r.merges := List.mem_of_find?_eq_some hrequest
    obtain ⟨source, target, base?, -, -, -, -, hmerged⟩ := sound.mergedContent hmem
    obtain ⟨hvalid, -⟩ := sound.valid_merged hmem hmerged
    refine ⟨⟨_, _, _, hmerged, hvalid.accepted⟩, fun stamp actor why hplan => ?_⟩
    obtain ⟨branch, hbranch⟩ := Records.exists_branch? (sound.merges.sides request hmem).1
    have hfound := sound.branch_eq_ok hbranch
    have hstorage : (Failure.invalid why).isStorage = true :=
      Store.isStorage_of_planMerge hfound hmerged hvalid.accepted hplan
    exact absurd hstorage Bool.false_ne_true

/-- A floor with one room of a given id and size. -/
def roomFloor (id : Json) (size : WideInt) : Json :=
  .object [("objects", .array [.object [("id", id), ("size", .number (.whole size))]])]

/-- The id of the room as an integer. -/
def roomNumber : Json := .number (.whole ⟨7, by decide⟩)

/-- The id of the room as a text. -/
def roomName : Json := .string "7"

/-- A label that spells another room. -/
def roomRuling : Ruling :=
  ⟨⟨.objectModified, "7", none,
    some (.object [("id", roomNumber), ("size", .number (.whole Merge.largeSize))]),
    some (.object [("id", roomName), ("size", .number (.whole Merge.smallSize))])⟩,
    some (Json.object [("id", .string "cellar")]).canonical⟩

theorem since_roomFloor :
    Divergence.since none (roomFloor roomNumber Merge.largeSize)
      (roomFloor roomName Merge.smallSize) = [roomRuling.toDivergence] := rfl

theorem ordered_roomFloor (id : Json) (ordered : id.Ordered) (size : WideInt) :
    (roomFloor id size).Ordered := by
  simp [roomFloor, ordered, Keyed.Ascending, Json.Ordered, Json.OrderedItems,
    Json.OrderedMembers, -String.lt_iff_ltb]

/-- A room that is numbered on one side and named on the other keeps its key, and so does the
hall whose conflict nobody has settled. -/
theorem merge_accepted_room :
    (Document.Valid (roomFloor roomNumber Merge.largeSize)
        ∧ Document.Valid (roomFloor roomName Merge.smallSize)
        ∧ (∀ ruling ∈ [roomRuling], ruling.toDivergence ∈ Divergence.since none
          (roomFloor roomNumber Merge.largeSize) (roomFloor roomName Merge.smallSize))
        ∧ Merge.InPlace none (roomFloor roomNumber Merge.largeSize)
          (roomFloor roomName Merge.smallSize) [roomRuling])
      ∧ Reachable ((empty .standard).play resizeSteps)
      ∧ ∃ details,
        ((empty .standard).play resizeSteps).store.tables.mergeDetails "open" = .ok details
          ∧ (∃ merged source target,
            ((empty .standard).play resizeSteps).store.mergedContent details
                = .ok (merged, source, target)
              ∧ Document.validate merged = .ok ())
          ∧ ∀ stamp actor why, ((empty .standard).play resizeSteps).store.planMerge stamp details
            actor ≠ .error (.invalid why) := by
  have hsource : Document.Valid (roomFloor roomNumber Merge.largeSize) :=
    ⟨ordered_roomFloor roomNumber trivial _, rfl⟩
  have htarget : Document.Valid (roomFloor roomName Merge.smallSize) :=
    ⟨ordered_roomFloor roomName trivial _, rfl⟩
  have hrulings : ∀ ruling ∈ [roomRuling], ruling.toDivergence ∈ Divergence.since none
      (roomFloor roomNumber Merge.largeSize) (roomFloor roomName Merge.smallSize) := by
    rw [since_roomFloor]
    exact List.forall_mem_singleton.mpr List.mem_cons_self
  have hruns : (empty .standard).admits resizeSteps = true
      ∧ (((empty .standard).play resizeSteps).store.tables.mergeDetails "open").toOption.isSome
        = true := by
    decide +kernel
  obtain ⟨hnew, hopen⟩ := hruns
  obtain ⟨details, hdetails⟩ := Option.isSome_iff_exists.mp hopen
  have hdetails := eq_ok_of_toOption hdetails
  have hreachable : Reachable ((empty .standard).play resizeSteps) :=
    (Reachable.empty _).play hnew ordered_resizeSteps
  obtain ⟨hdocuments, hplans⟩ := merge_accepted
  exact ⟨⟨hsource, htarget, hrulings, hdocuments _ _ _ _ hsource htarget hrulings⟩, hreachable,
    details, hdetails, hplans _ hreachable _ _ hdetails⟩

end Repository

end PlanHistory
