/-
What can be read of the versions of a repository.

The writer takes a document of any depth, and the reader none that nests deeper than
`Json.nestingLimit`.  So a version reads back exactly if its document nests no deeper.  Clients
read their documents from texts, which nest no deeper either, so that only labels of conflicts
can break this: **`Repository.Reachable.content_eq`**.

* **`Store.Sound.within_of_writes`** — what one operation writes can be read back;
* **`Repository.WrittenFromTexts.readable`** — what every run preserves.
-/
import PlanHistory.Proofs.Repository.Growth

namespace PlanHistory

open Document (idKey objectsKey)

/-- Whether the document that a request brings, if any, was read from a text. -/
def Operation.IsFromText : Operation → Prop
  | .commit document _ => ∃ text, Json.parse? text = some document
  | _ => True

/-- What is read from texts is what the reader's limit allows. -/
theorem Json.exists_parse?_iff {value : Json} :
    (∃ text, parse? text = some value) ↔ value.Within nestingLimit := by
  constructor
  · rintro ⟨text, htext⟩
    obtain ⟨ordered, hnesting⟩ := ordered_of_parse? htext
    exact ⟨ordered, hnesting⟩
  · exact fun within => ⟨_, parse?_canonical_of_nesting within.ordered within.nesting⟩

/-! ### One step -/

namespace Store

variable {s : Store} {r r' : Records} {policy : Policy} {stamp : Stamp} {operation : Operation}
  {answer : Except Failure Answer} {blobs : Blobs}

/-- Labels stay, so that they fit before a step if they do after it. -/
theorem Step.shallowLabels (step : s.Step r policy stamp operation answer r' blobs)
    (sound : s.Sound r) (fresh : stamp.Fresh s) {levels : Nat}
    (h : ShallowLabels levels r'.conflicts) : ShallowLabels levels r.conflicts := by
  intro conflict hconflict label hlabel
  refine h conflict ?_ label hlabel
  rcases step.merges_cases sound fresh with ⟨-, hconflicts⟩
    | ⟨_, found, -, -, -, -, -, -, hconflicts⟩
    | ⟨id, resolution, actor, -, hmap⟩
    | ⟨_, -, _, -, -, -, -, hconflicts⟩
  · exact hconflicts ▸ hconflict
  · exact hconflicts ▸ List.mem_append_left _ hconflict
  · -- A conflict that has a label is not settled again.
    have hresolved : conflict.isResolved = true := Option.isSome_of_eq_some hlabel
    have hmem : conflict ∈ r'.conflictsOf conflict.merge := by
      rw [hmap, ← Records.settledConflict_of_isResolved hresolved id resolution actor stamp.time]
      exact List.mem_map_of_mem (Records.mem_conflictsOf.mpr ⟨hconflict,
        (congrArg ConflictEntry.merge
          (Records.settledConflict_of_isResolved hresolved id resolution actor stamp.time)).symm⟩)
    exact (Records.mem_conflictsOf.mp hmem).1
  · exact hconflicts ▸ hconflict

/-- What an operation writes nests no deeper than the reader goes, if a document that it brings
was read from a text and the labels fit. -/
theorem Sound.within_of_writes (sound : s.Sound r) (given : operation.IsFromText)
    (shallow : ShallowLabels propertyLimit r.conflicts) {id : String} {document : Json}
    (hwrites : s.Writes operation answer id document) :
    document.Within Json.nestingLimit := by
  cases hwrites with
  | commit => exact Json.exists_parse?_iff.mp given
  | restore hcontent =>
    rw [content_blobs] at hcontent
    obtain ⟨version, hmem, rfl⟩ := sound.exists_of_content hcontent
    obtain ⟨hholds, hnesting⟩ := sound.versions.holds_of_content hmem hcontent
    exact ⟨hholds.valid.ordered, hnesting⟩
  | execute hdetails hmerged =>
    obtain ⟨request, hrequest, rfl⟩ := sound.of_mergeDetails hdetails
    obtain rfl := Records.id_of_merge? hrequest
    obtain ⟨hvalid, hnesting⟩ := sound.valid_merged (List.mem_of_find?_eq_some hrequest) hmerged
    exact ⟨hvalid.ordered, hnesting shallow⟩

/-- Whether all versions are read as documents. -/
def Readable (r : Records) (blobs : Blobs) : Prop :=
  ∀ version ∈ r.versions, ∃ document, Blobs.content version.id blobs = .ok document

/-- A step with documents read from texts keeps all versions readable while the labels fit. -/
theorem Step.readable {s' : Store} (step : s.Step r policy stamp operation answer r' s'.blobs)
    (sound : s.Sound r) (sound' : s'.Sound r') (fresh : stamp.Fresh s)
    (given : operation.IsFromText)
    (h : ShallowLabels propertyLimit r.conflicts → Readable r s.blobs)
    (shallow : ShallowLabels propertyLimit r'.conflicts) : Readable r' s'.blobs := by
  have hbefore := step.shallowLabels sound fresh shallow
  have hkept {version : Version} (hmem : version ∈ r.versions) :
      ∃ document, Blobs.content version.id s'.blobs = .ok document := by
    obtain ⟨document, hcontent⟩ := h hbefore version hmem
    exact ⟨document, (step.keeps sound sound' fresh).content hcontent⟩
  rcases step.writes_cases sound fresh with
    ⟨version, document, hwrites, hid, -, hversions, hblobs⟩ | ⟨-, hversions, -⟩
  · rw [Readable, hversions]
    refine forall_mem_concat (fun other => hkept) ⟨document, ?_⟩
    have hwithin := sound.within_of_writes given hbefore hwrites
    have hblob : Blobs.read? version.id s'.blobs = some (Document.contentBytes document) := by
      rw [hblobs, hid]
      exact Blobs.read?_insert_self fresh.safe
    rw [Blobs.content_of_read? hwithin.ordered hblob, if_pos hwithin.nesting]
  · rw [Readable, hversions]
    exact fun version => hkept

end Store

/-! ### Runs -/

namespace Repository

variable {repository : Repository}

/-- No label that settles a conflict of the repository spells JSON that nests deeper than
fits in the place of a property. -/
def LabelsFit (repository : Repository) : Prop :=
  ∀ row ∈ repository.store.tables.conflicts, ∀ label ∈ row.resolution?,
    (Resolution.ofLabel label).Spells propertyLimit

/-- Whether a run with documents read from texts led to a repository from an empty store. -/
def WrittenFromTexts (repository : Repository) : Prop :=
  ∃ policy deeds, Run (fun _ _ operation => operation.IsFromText) (empty policy) deeds repository

theorem WrittenFromTexts.reachable (h : WrittenFromTexts repository) : Reachable repository := by
  obtain ⟨policy, deeds, hrun⟩ := h
  exact ⟨policy, deeds, hrun.anything⟩

/-- All versions that come from texts are readable while the labels fit. -/
theorem WrittenFromTexts.readable (h : WrittenFromTexts repository) :
    ∃ r, repository.store.Sound r
      ∧ (ShallowLabels propertyLimit r.conflicts → Store.Readable r repository.store.blobs) := by
  obtain ⟨policy, deeds, hrun⟩ := h
  induction hrun with
  | refl => exact ⟨Records.empty, Store.sound_empty, fun _ _ hmem => by cases hmem⟩
  | perform stamp operation _ fresh given hfromText ih =>
    obtain ⟨r, sound, hreadable⟩ := ih
    obtain ⟨r', sound', step⟩ := sound.step fresh given
    exact ⟨r', sound', step.readable sound sound' fresh hfromText hreadable⟩

/-- **Every version of a reachable repository holds an accepted document, and reads back as
it exactly if it nests no deeper than the reader goes.**  All versions do if the documents that
clients brought were read from texts and all labels fit. -/
theorem Reachable.content_eq (h : Reachable repository) :
    (∀ id, repository.store.tables.hasVersion id = true → ∃ document,
      Document.validate document = .ok ()
        ∧ Blobs.read? id repository.store.blobs = some (Document.contentBytes document)
        ∧ ∀ stamp, (repository.perform stamp (.content id)).1
          = if document.nesting ≤ Json.nestingLimit then .ok (.content document)
            else .error (.storage .unreadableContent))
      ∧ (WrittenFromTexts repository → repository.LabelsFit →
        ∀ id, repository.store.tables.hasVersion id = true →
        ∃ document, Document.validate document = .ok ()
          ∧ ∀ stamp, (repository.perform stamp (.content id)).1 = .ok (.content document)) := by
  have hanswer : ∀ stamp id, (repository.perform stamp (.content id)).1
      = (Blobs.content id repository.store.blobs).map Answer.content := fun _ _ => rfl
  have hversion {r : Records} (sound : repository.store.Sound r) : ∀ id,
      repository.store.tables.hasVersion id = true → ∃ version ∈ r.versions, version.id = id := by
    intro id hid
    rw [sound.tables, Records.hasVersion_tables, Option.isSome_iff_exists] at hid
    obtain ⟨version, hfound⟩ := hid
    exact ⟨version, Records.mem_of_version? hfound⟩
  constructor
  · intro id hid
    obtain ⟨r, sound⟩ := h.sound
    obtain ⟨version, hmem, rfl⟩ := hversion sound id hid
    obtain ⟨document, hholds⟩ := sound.versions.contents version hmem
    refine ⟨document, hholds.valid.accepted, hholds.blob, fun stamp => ?_⟩
    rw [hanswer, hholds.content]
    split <;> rfl
  · intro hfromTexts hfit id hid
    obtain ⟨r, sound, hreadable⟩ := hfromTexts.readable
    obtain ⟨version, hmem, rfl⟩ := hversion sound id hid
    have hshallow : ShallowLabels propertyLimit r.conflicts := by
      intro conflict hconflict label hlabel
      have hrow : ConflictRow.store conflict ∈ repository.store.tables.conflicts := by
        rw [sound.tables]
        exact List.mem_map_of_mem hconflict
      exact hfit _ hrow label hlabel
    obtain ⟨document, hcontent⟩ := hreadable hshallow version hmem
    obtain ⟨hholds, -⟩ := sound.versions.holds_of_content hmem hcontent
    refine ⟨document, hholds.valid.accepted, fun stamp => ?_⟩
    rw [hanswer, hcontent]
    rfl

theorem content_eq_hall :
    Reachable ((empty .standard).play hallSteps)
      ∧ ((empty .standard).play hallSteps).store.tables.hasVersion "first" = true
      ∧ ∃ document, Document.validate document = .ok ()
        ∧ Blobs.read? "first" ((empty .standard).play hallSteps).store.blobs
          = some (Document.contentBytes document)
        ∧ ∀ stamp, (((empty .standard).play hallSteps).perform stamp (.content "first")).1
          = if document.nesting ≤ Json.nestingLimit then .ok (.content document)
            else .error (.storage .unreadableContent) := by
  have hreachable : Reachable ((empty .standard).play hallSteps) :=
    (Reachable.empty .standard).play (by decide +kernel) ordered_hallSteps
  have hfirst : ((empty .standard).play hallSteps).store.tables.hasVersion "first" = true := by
    decide +kernel
  exact ⟨hreachable, hfirst, hreachable.content_eq.1 "first" hfirst⟩

/-! ### A label that nests too deep -/

/-- The hall is of size one on the target's side and of size two on the source's. -/
def hallDivergence : Divergence :=
  ⟨.objectModified, "hall", none,
    some (.object [("id", .string "hall"), ("size", .number (.whole Merge.largeSize))]),
    some (.object [("id", .string "hall"), ("size", .number (.whole Merge.smallSize))])⟩

theorem since_hallFloor :
    Divergence.since none (Merge.hallFloor Merge.largeSize) (Merge.hallFloor Merge.smallSize)
      = [hallDivergence] := rfl

/-- A label that spells an object puts it in the place of the hall. -/
theorem document_hallFloor {members : Keyed Json}
    (within : (Json.object members).Within Json.nestingLimit) :
    Merge.document none (Merge.hallFloor Merge.largeSize) (Merge.hallFloor Merge.smallSize)
        [⟨hallDivergence, some (Json.object members).canonical⟩]
      = .object [(objectsKey, .array [.object (Keyed.insert idKey (.string "hall") members)])] := by
  have horder : Merge.order (Merge.hallFloor Merge.largeSize) (Merge.hallFloor Merge.smallSize)
      = ["hall"] := by decide
  have hspelled := Resolution.object?_canonical within hallDivergence.source?
    hallDivergence.target?
  generalize (Json.object members).canonical = label at hspelled ⊢
  have hfind : Ruling.find? [⟨hallDivergence, some label⟩] "hall" none
      = some (⟨hallDivergence, some label⟩, Resolution.ofLabel label) := rfl
  have hobject : Merge.object [⟨hallDivergence, some label⟩] none
      (Document.objectMap (Merge.hallFloor Merge.largeSize))
      (Document.objectMap (Merge.hallFloor Merge.smallSize)) "hall"
        = .settled (some (.object (Keyed.insert idKey (.string "hall") members))) := by
    rw [Merge.object, hfind]
    exact congrArg Verdict.settled hspelled
  rw [Merge.document, Merge.objects, horder, Option.map_none, List.filterMap_cons, hobject]
  rfl

/-- A mark that nests one level deeper than it may in a document. -/
def deepMark : Keyed Json := [("mark", nested 124)]

theorem within_deepMark : (Json.object deepMark).Within Json.nestingLimit := by
  have hmark : (Json.object deepMark).Within (125 + 1) := by
    refine Json.within_object (List.pairwise_singleton _ _) fun key value h => ?_
    obtain ⟨-, rfl⟩ := Prod.mk.inj (List.mem_singleton.mp (Keyed.mem_of_get? h))
    exact within_nested 124
  exact hmark.mono (by decide)

/-- The floor of the hall with the mark. -/
def deepFloor : Json :=
  .object [(objectsKey, .array [.object (Keyed.insert idKey (.string "hall") deepMark)])]

theorem nesting_deepFloor : deepFloor.nesting = 128 := by
  show (Json.object [(objectsKey, .array [.object [("id", .string "hall"),
    ("mark", nested 124)]])]).nesting = 128
  simp [Json.nesting, Json.nestingOfMembers, Json.nestingOfItems, nesting_nested]

/-- The mark, as a label. -/
def deepLabel : String := (Json.object deepMark).canonical

theorem document_deepLabel :
    Merge.document none (Merge.hallFloor Merge.largeSize) (Merge.hallFloor Merge.smallSize)
      [⟨hallDivergence, some deepLabel⟩] = deepFloor :=
  document_hallFloor within_deepMark

theorem hash_deepFloor :
    Document.contentHash deepFloor ≠ Document.contentHash (Merge.hallFloor Merge.largeSize)
      ∧ Document.contentHash deepFloor
        ≠ Document.contentHash (Merge.hallFloor Merge.smallSize) := by
  simp only [Document.contentHash_eq]
  decide +kernel

/-- Whether the hall has another size on the draft, and a request to merge it is open. -/
structure IsResized (repository : Repository) : Prop where
  fromTexts : WrittenFromTexts repository
  request : (repository.store.tables.mergeDetails "open").toOption.map (fun details =>
      ([details.request.strategy, details.request.source, details.request.target,
          details.request.targetBranch], details.request.base?, details.request.plan,
        details.request.status.isTerminal))
    = some (["materialize", "other", "first", "main"], none, hallPlan, false)
  conflict : (repository.store.tables.mergeDetails "open").toOption.map (fun details =>
      details.conflicts.map fun conflict => (conflict.id, conflict.merge, conflict.resolution?))
    = some [("open", "open", none)]
  source : Blobs.read? "other" repository.store.blobs
    = some (Document.contentBytes (Merge.hallFloor Merge.largeSize))
  target : Blobs.read? "first" repository.store.blobs
    = some (Document.contentBytes (Merge.hallFloor Merge.smallSize))
  read : repository.store.tables.Reads "first"
  head : repository.headOf "main" = some "first"
  settle : Stamp.isNew "settle" repository.store = true
  run : Stamp.isNew "run" repository.store = true

theorem isFromText_drawHall (branch : String) (size : WideInt) :
    (drawHall branch size).IsFromText :=
  Json.exists_parse?_iff.mpr ⟨Merge.ordered_hallFloor size, by
    rw [Merge.nesting_hallFloor]
    decide⟩

theorem isFromText_resizeSteps : ∀ step ∈ resizeSteps, step.2.IsFromText :=
  List.forall_mem_append.mpr
    ⟨List.forall_mem_cons.mpr ⟨isFromText_drawHall _ _, List.forall_mem_singleton.mpr trivial⟩,
      List.forall_mem_cons.mpr
        ⟨isFromText_drawHall _ _, List.forall_mem_singleton.mpr trivial⟩⟩

theorem isResized_resizeSteps : IsResized ((empty .standard).play resizeSteps) := by
  have hfromTexts : WrittenFromTexts ((empty .standard).play resizeSteps) :=
    ⟨_, _, Run.play (by decide +kernel) ordered_resizeSteps fun step hmem _ =>
      isFromText_resizeSteps step hmem⟩
  -- The facts are evaluated together, so that the steps are taken once.
  have build : _ ∧ _ ∧ _ ∧ _ ∧ _ ∧ _ ∧ _ ∧ _ → IsResized ((empty .standard).play resizeSteps) :=
    fun ⟨request, conflict, source, target, read, head, settle, run⟩ =>
      ⟨hfromTexts, request, conflict, source, target, read, head, settle, run⟩
  exact build (by decide +kernel)

theorem answer_content (repository : Repository) (stamp : Stamp) (id : String) :
    (repository.perform stamp (.content id)).1
      = (repository.store.content id).map Answer.content := rfl

theorem store_resolve (repository : Repository) (stamp : Stamp) (id resolution actor : String) :
    (repository.perform stamp (.resolve id resolution actor)).2.store
      = (repository.store.resolve stamp id resolution actor).2 := rfl

theorem store_execute (repository : Repository) (stamp : Stamp) (id actor : String) :
    (repository.perform stamp (.execute id actor)).2.store
      = (repository.store.execute stamp id actor).2 := rfl

/-- What the repository is once the mark settled the conflict. -/
def settled (repository : Repository) : Repository :=
  (repository.perform (.named "settle") (.resolve "open" deepLabel "clerk")).2

/-- What it is once the request was executed, too. -/
def marked (repository : Repository) : Repository :=
  (repository.settled.perform (.named "run") (.execute "open" "clerk")).2

/-- The records of the two sizes of the hall, and of the conflict between them. -/
theorem IsResized.records (h : IsResized repository) :
    ∃ r request conflict, repository.store.Sound r ∧ r.merge? "open" = some request
      ∧ r.conflictsOf "open" = [conflict] ∧ conflict.id = "open" ∧ conflict.merge = "open"
      ∧ conflict.ruling = ⟨hallDivergence, none⟩
      ∧ [request.strategy, request.source, request.target, request.targetBranch]
        = ["materialize", "other", "first", "main"]
      ∧ request.base? = none ∧ request.plan = hallPlan ∧ request.status.isTerminal = false := by
  obtain ⟨r, sound⟩ := h.fromTexts.reachable.sound
  obtain ⟨details, hdetails, hconflicts⟩ := Option.map_eq_some_iff.mp h.conflict
  have hrequestFacts := h.request
  rw [hdetails, Option.map_some, Option.some_inj] at hrequestFacts
  obtain ⟨request, hrequest, rfl⟩ := sound.of_mergeDetails (eq_ok_of_toOption hdetails)
  obtain ⟨hwords, hbase, hplan, hopen⟩ : [request.strategy, request.source, request.target,
        request.targetBranch] = ["materialize", "other", "first", "main"]
      ∧ request.base? = none ∧ request.plan = hallPlan ∧ request.status.isTerminal = false := by
    simpa [MergeDetails.request, Records.summary] using hrequestFacts
  obtain ⟨conflict, hconflict, hids⟩ := List.map_eq_singleton_iff.mp hconflicts
  dsimp only at hconflict
  simp only [Prod.mk.injEq] at hids
  obtain ⟨hid, hmerge, hlabel⟩ := hids
  refine ⟨r, request, conflict, sound, hrequest, hconflict, hid, hmerge, ?_, hwords, hbase, hplan,
    hopen⟩
  -- The conflict is what comparing the two contents gives.
  obtain ⟨source, target, base?, hsource, htarget, hnone, hfound⟩ :=
    divergencesIn_eq_ok_iff.mp
      (sound.merges.compared request (List.mem_of_find?_eq_some hrequest))
  simp only [List.cons.injEq] at hwords
  rw [hwords.2.1, Blobs.content_of_read? (Merge.ordered_hallFloor _) h.source] at hsource
  rw [hwords.2.2.1, Blobs.content_of_read? (Merge.ordered_hallFloor _) h.target] at htarget
  rw [hbase] at hnone
  obtain rfl := Except.ok.inj hsource
  obtain rfl := Except.ok.inj htarget
  obtain rfl := Except.ok.inj hnone
  have hfilter : (r.conflicts.filter fun other => other.merge == request.id) = [conflict] := by
    rw [Records.id_of_merge? hrequest]
    rw [Records.conflictsOf] at hconflict
    exact List.perm_singleton.mp (hconflict ▸ (List.mergeSort_perm _ _).symm)
  rw [since_hallFloor, hfilter, List.map_singleton, List.singleton_inj] at hfound
  rw [Conflict.ruling, ← hfound, hlabel]

/-- The records once the mark settled the conflict. -/
theorem IsResized.settled_records (h : IsResized repository) :
    ∃ r request, repository.settled.store.Sound r
      ∧ (Stamp.named "run").Fresh repository.settled.store
      ∧ r.merge? "open" = some request
      ∧ (r.conflictsOf "open").map Conflict.ruling = [⟨hallDivergence, some deepLabel⟩]
      ∧ [request.strategy, request.source, request.target, request.targetBranch]
        = ["materialize", "other", "first", "main"]
      ∧ request.base? = none ∧ request.plan = hallPlan ∧ request.status.isTerminal = false
      ∧ repository.settled.store.tables.branches = repository.store.tables.branches
      ∧ repository.settled.store.tables.versions = repository.store.tables.versions
      ∧ repository.settled.store.blobs = repository.store.blobs := by
  obtain ⟨r, request, conflict, sound, hrequest, hconflicts, hid, hmerge, hruling, hwords, hbase,
    hplan, hopen⟩ := h.records
  have hunsettled : conflict.resolution? = none := congrArg Ruling.label? hruling
  have hmem : conflict ∈ r.conflictsOf "open" := hconflicts ▸ List.mem_singleton_self _
  have hconflict : r.conflict? "open" = some conflict := hid ▸
    Records.conflict?_of_mem sound.merges.conflictIdsDiffer (Records.mem_conflictsOf.mp hmem).1
  have hblank : Text.isBlank deepLabel = false := Resolution.isBlank_canonical deepMark
  have hresolve : repository.store.resolve (.named "settle") "open" deepLabel "clerk" = _ :=
    Store.resolve_eq sound "open" deepLabel "clerk"
  rw [hblank, if_neg Bool.false_ne_true, hconflict] at hresolve
  dsimp only at hresolve
  rw [hmerge, hrequest] at hresolve
  dsimp only at hresolve
  rw [hopen, if_neg Bool.false_ne_true, hunsettled] at hresolve
  have hsettled : repository.settled.store
      = ⟨(r.settle "open" deepLabel "clerk" (Stamp.named "settle").time).tables,
        repository.store.blobs⟩ := by
    rw [settled, store_resolve, hresolve]
  rw [hsettled]
  refine ⟨_, request, sound.settle "open" deepLabel "clerk" (Stamp.writable_named "settle"),
    (Stamp.fresh_named h.run).settle sound _ _ _ _, hrequest, ?_, hwords, hbase, hplan,
    hopen, by rw [sound.tables]; rfl, by rw [sound.tables]; rfl, rfl⟩
  have hsame : (conflict.id == "open" && conflict.resolution?.isNone) = true := by
    rw [hid, hunsettled]
    rfl
  rw [Records.conflictsOf_settle, hconflicts, List.map_singleton, Records.settledConflict,
    if_pos hsame, List.map_singleton]
  exact congrArg (fun ruling : Ruling => [(⟨ruling.toDivergence, some deepLabel⟩ : Ruling)]) hruling

theorem IsResized.unreadable (h : IsResized repository) (stamp : Stamp) :
    WrittenFromTexts repository.marked ∧ repository.marked.headOf "main" = some "run"
      ∧ (repository.marked.perform stamp (.content "run")).1
        = .error (.storage .unreadableContent) := by
  obtain ⟨r, request, sound, fresh, hrequest, hruled, hwords, hbase, hplan, hopen, hbranches,
    hversions, hblobs⟩ := h.settled_records
  simp only [List.cons.injEq, and_true] at hwords
  obtain ⟨hstrategy, hsourceId, htargetId, hbranchName⟩ := hwords
  have hfromTexts : WrittenFromTexts repository.marked := by
    obtain ⟨policy, deeds, hrun⟩ := h.fromTexts
    exact ⟨policy, _, (hrun.perform _ (.resolve "open" deepLabel "clerk")
      (Stamp.fresh_named h.settle) trivial trivial).perform _ (.execute "open" "clerk") fresh
        trivial trivial⟩
  -- The merged document has the mark.
  obtain ⟨source, target, base?, hsource, htarget, hnone, -, hmerged⟩ :=
    sound.mergedContent (List.mem_of_find?_eq_some hrequest)
  rw [hsourceId, hblobs, Blobs.content_of_read? (Merge.ordered_hallFloor _) h.source] at hsource
  rw [htargetId, hblobs, Blobs.content_of_read? (Merge.ordered_hallFloor _) h.target] at htarget
  rw [hbase] at hnone
  obtain rfl := Except.ok.inj hsource
  obtain rfl := Except.ok.inj htarget
  obtain rfl := Except.ok.inj hnone
  obtain ⟨⟨hordered, -⟩, -⟩ := sound.valid_merged (List.mem_of_find?_eq_some hrequest) hmerged
  rw [Records.id_of_merge? hrequest, hruled, document_deepLabel] at hmerged hordered
  -- It is neither of the two documents, so that it becomes a version.
  obtain ⟨main, hmainBranch, hhead⟩ := exists_branch h.head
  have hbranch : r.branch? request.targetBranch request.plan = some main := by
    refine sound.branch?_eq ?_
    rw [hbranchName, hplan, Tables.branch, Tables.branch?, hbranches]
    exact hmainBranch
  have hcount : r.tables.countUnresolved "open" = 0 := by
    have hlabels := congrArg (List.countP fun ruling : Ruling => ruling.label?.isNone) hruled
    rw [List.countP_map] at hlabels
    exact (Records.countUnresolved_tables _).trans hlabels
  have hreads : ∀ read ∈ Store.contentLooksAt? request (Merge.hallFloor Merge.largeSize)
      (Merge.hallFloor Merge.smallSize) deepFloor, repository.settled.store.tables.Reads read := by
    rw [Store.contentLooksAt?, if_neg hash_deepFloor.1, if_neg hash_deepFloor.2, htargetId]
    rintro _ ⟨⟩
    exact (Tables.reads_congr hversions "first").mpr h.read
  obtain ⟨after, hexecute, hafter⟩ := Store.execute_of_materialize sound fresh hrequest
    (by rw [hstrategy]; decide) hopen hcount hbranch (hhead.trans htargetId.symm) hmerged hreads
    "clerk"
  rw [Store.contentOutcome, if_neg hash_deepFloor.1, if_neg hash_deepFloor.2] at hexecute hafter
  have hstore : repository.marked.store = after := by
    rw [marked, store_execute, hexecute]
  obtain ⟨branch, hfound, hrun⟩ := hafter.head
  refine ⟨hfromTexts, ?_, ?_⟩
  · rw [hbranchName, hplan] at hfound
    rw [headOf, hstore, hfound]
    exact congrArg some hrun
  · have hread : Blobs.read? "run" after.blobs = some (Document.contentBytes deepFloor) :=
      (hafter.created rfl).2
    have hcontent : after.content "run" = _ := Blobs.content_of_read? hordered hread
    rw [nesting_deepFloor, if_neg (by decide)] at hcontent
    rw [answer_content, hstore, hcontent]
    rfl

theorem unreadable_marked :
    WrittenFromTexts ((empty .standard).play resizeSteps).marked
      ∧ ((empty .standard).play resizeSteps).marked.headOf "main" = some "run"
      ∧ (((empty .standard).play resizeSteps).marked.perform (.named "read") (.content "run")).1
        = .error (.storage .unreadableContent) :=
  isResized_resizeSteps.unreadable (.named "read")

end Repository

end PlanHistory
