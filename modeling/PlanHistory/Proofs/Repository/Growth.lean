/-
What operations add, and what they leave.

A step puts versions and notes at the end of theirs, and neither removes nor changes one.
So the ancestors of a version stay (**`Tables.Lineage.mono`**), and so does the merge base of
two versions (**`Records.mergeBase_of_longer`**).

Three operations write versions, each its own document: a commit the one that it is given,
a restored version the one that is read, and an executed request the merged one
(`Store.Writes`).

* **`Store.Step.writes_cases`** — a step writes one version or leaves rows and blobs;
* **`Store.Step.keeps`**, **`Repository.Leads.keeps`** — no row of a version and no blob is
  changed (`Store.Keeps`).
-/
import PlanHistory.Proofs.Repository.Outcome

namespace PlanHistory

/-! ### Versions and notes -/

namespace Records

variable {r r' : Records}

theorem parent?_of_longer (h : r.versions <+: r'.versions) {id : String}
    {parent? : Option String} (hparent : r.tables.parent? id = some parent?) :
    r'.tables.parent? id = some parent? := by
  rw [parent?_tables] at hparent ⊢
  obtain ⟨version, hversion, rfl⟩ := Option.map_eq_some_iff.mp hparent
  rw [version?_of_longer h hversion, Option.map_some]

end Records

theorem Owns.of_longer {versions more : List Version} {plan : PlanId} {id : String}
    (howns : Owns versions plan id) (h : versions <+: more) : Owns more plan id := by
  obtain ⟨added, rfl⟩ := h
  exact howns.append

namespace Store

variable {s : Store} {r r' : Records} {policy : Policy} {stamp : Stamp} {operation : Operation}
  {answer : Except Failure Answer} {blobs : Blobs}

/-- A step leaves the notes, or puts at the end the one that is asked for. -/
theorem Step.notes_cases (step : s.Step r policy stamp operation answer r' blobs) :
    r'.notes = r.notes
      ∨ ∃ request, operation = .addNote request ∧ answer = .ok (.id stamp.id)
        ∧ r'.notes = r.notes ++ [NoteRow.store (request.attached stamp.id stamp.time)] := by
  have hrecord (version : Version) (now : Timestamp) :
      (r.record version now).notes = r.notes := by
    rw [Records.record]
    split <;> rfl
  induction step with
  | committed => exact Or.inl (hrecord _ _)
  | restored _ _ _ ih =>
    refine ih.imp_right ?_
    rintro ⟨request, ⟨⟩, -⟩
  | @executed request target actor plan blobs =>
    exact Or.inl (others_executed target.status stamp.time).2.1
  | noted => exact Or.inr ⟨_, rfl, rfl, rfl⟩
  | _ => exact Or.inl rfl

/-- A step puts notes at the end. -/
theorem Step.notes_longer (step : s.Step r policy stamp operation answer r' blobs) :
    r.notes <+: r'.notes := by
  rcases step.notes_cases with hsame | ⟨_, -, -, hadded⟩
  · exact hsame ▸ List.prefix_refl _
  · exact hadded ▸ List.prefix_append _ _

end Store

/-! ### Ancestors -/

namespace Tables

variable {tables tables' : Tables} {id : String} {chain : List String}

/-- Where all parents stay, lineages do. -/
theorem Lineage.mono (h : tables.Lineage id chain)
    (parents : ∀ id parent?, tables.parent? id = some parent? → tables'.parent? id = some parent?) :
    tables'.Lineage id chain := by
  induction h with
  | root hroot => exact .root (parents _ _ hroot)
  | child hparent _ ih => exact .child (parents _ _ hparent) ih

theorem mergeBase_of_lineage {source target : String} {ancestors : List String}
    (hsource : tables.Lineage source ancestors) (hancestors : ancestors.Nodup)
    (htarget : tables.Lineage target chain) (hchain : chain.Nodup) :
    tables.mergeBase source target = .ok (chain.find? fun id => ancestors.contains id) := by
  rw [mergeBase, ancestry_of_lineage hsource hancestors, ancestry_of_lineage htarget hchain]
  rfl

/-- A version on top of another has its merge bases, with versions that do not descend from the
new one. -/
theorem mergeBase_of_child {source target : String} {ancestors : List String}
    (hsource : tables.Lineage source ancestors) (hancestors : ancestors.Nodup)
    (htarget : tables.Lineage target chain) (hparent : tables.IsParent id target)
    (hchain : (id :: chain).Nodup) (hnew : id ∉ ancestors) :
    tables.mergeBase source id = tables.mergeBase source target := by
  have hfind : (id :: chain).find? (fun version => ancestors.contains version)
      = chain.find? fun version => ancestors.contains version := by
    rw [List.find?_cons_of_neg]
    simpa using hnew
  rw [mergeBase_of_lineage hsource hancestors (.child hparent htarget) hchain,
    mergeBase_of_lineage hsource hancestors htarget (List.nodup_cons.mp hchain).2, hfind]

end Tables

namespace Records

variable {r r' : Records} {blobs : Blobs} {plan : PlanId}

theorem lineage_of_longer (h : r.versions <+: r'.versions) {id : String} {chain : List String}
    (hlineage : r.tables.Lineage id chain) : r'.tables.Lineage id chain :=
  hlineage.mono fun _ _ => parent?_of_longer h

/-- The merge base of two versions stays. -/
theorem mergeBase_of_longer (sound : VersionsSound r.versions blobs)
    (h : r.versions <+: r'.versions) {source target : String}
    (hsource : Owns r.versions plan source) (htarget : Owns r.versions plan target) :
    r'.tables.mergeBase source target = r.tables.mergeBase source target := by
  obtain ⟨ancestors, hlineage, hnodup⟩ := lineage_of_owns sound hsource
  obtain ⟨chain, hchain, hnodup'⟩ := lineage_of_owns sound htarget
  rw [Tables.mergeBase_of_lineage hlineage hnodup hchain hnodup',
    Tables.mergeBase_of_lineage (lineage_of_longer h hlineage) hnodup
      (lineage_of_longer h hchain) hnodup']

end Records

/-! ### Rows and blobs -/

theorem Roll.entries_longer {ρ : Type} {rows more : List ρ} (h : rows <+: more) :
    (Roll.ofRows rows).entries <+: (Roll.ofRows more).entries := by
  obtain ⟨added, rfl⟩ := h
  rw [Roll.ofRows, Roll.ofRows, List.mapIdx_append]
  exact List.prefix_append _ _

namespace Store

theorem Sound.versionRows {s : Store} {r : Records} (sound : s.Sound r) :
    s.tables.versions.rows = r.versions.map VersionRow.store := by
  rw [sound.tables, Records.tables, Roll.rows_ofRows]

/-- Whether an operation with its answer writes a document down as the version of an id. -/
inductive Writes (s : Store) : Operation → Except Failure Answer → String → Json → Prop where
  | commit {content : Json} {request : NewVersion} {receipt : Receipt} :
      Writes s (.commit content request) (.ok (.receipt receipt)) receipt.version content
  /-- The content of a version is written again. -/
  | restore {id branch author : String} {message? : Option String} {receipt : Receipt}
      {content : Json} : s.content id = .ok content →
      Writes s (.restore id branch author message?) (.ok (.receipt receipt)) receipt.version content
  /-- A merged document is written unless a head has it. -/
  | execute {id actor : String} {details : MergeDetails} {outcome : MergeOutcome}
      {merged source target : Json} : s.tables.mergeDetails id = .ok details →
      s.mergedContent details = .ok (merged, source, target) → outcome.createdVersion = true →
      Writes s (.execute id actor) (.ok (.outcome outcome)) outcome.head merged

/-- Whether all rows of versions and all blobs that are there stay as they are. -/
structure Keeps (before after : Store) : Prop where
  versions : before.tables.versions.entries <+: after.tables.versions.entries
  blobs : ∀ id bytes, Keyed.get? id before.blobs = some bytes →
    Keyed.get? id after.blobs = some bytes

theorem Keeps.refl (s : Store) : s.Keeps s :=
  ⟨List.prefix_refl _, fun _ _ h => h⟩

theorem Keeps.trans {first second third : Store} (h : first.Keeps second)
    (h' : second.Keeps third) : first.Keeps third where
  versions := h.versions.trans h'.versions
  blobs id bytes hbytes := h'.blobs id bytes (h.blobs id bytes hbytes)

theorem Keeps.rows {before after : Store} (h : before.Keeps after) :
    before.tables.versions.rows <+: after.tables.versions.rows :=
  h.versions.map _

theorem Keeps.read? {before after : Store} (h : before.Keeps after) {id : String}
    {bytes : ByteArray} (hbytes : Blobs.read? id before.blobs = some bytes) :
    Blobs.read? id after.blobs = some bytes := by
  rw [Blobs.read?] at hbytes ⊢
  split at hbytes
  next hsafe =>
    rw [if_pos hsafe]
    exact h.blobs id bytes hbytes
  next => simp at hbytes

/-- A row that is read is read on. -/
theorem Keeps.reads {before after : Store} (h : before.Keeps after) {id : String}
    (hreads : before.tables.Reads id) : after.tables.Reads id := by
  obtain ⟨version, hversion⟩ := hreads
  obtain ⟨added, hadded⟩ := h.rows
  refine ⟨version, ?_⟩
  rw [Tables.version, Tables.version?, Tables.versionRow?] at hversion ⊢
  rw [← hadded, List.find?_append]
  cases hrow : before.tables.versions.rows.find? fun row => row.id == id with
  | none =>
    rw [hrow] at hversion
    cases hversion
  | some row =>
    rw [hrow] at hversion
    exact hversion

theorem baseContent_some_iff {base : String} {blobs : Blobs} {document? : Option Json} :
    baseContent (some base) blobs = .ok document?
      ↔ ∃ document, Blobs.content base blobs = .ok document ∧ document? = some document := by
  rw [baseContent]
  cases Blobs.content base blobs with
  | error failure => simp [Except.map]
  | ok document => simp [Except.map, eq_comm]

/-- What can be read of a version stays. -/
theorem Keeps.content {before after : Store} (h : before.Keeps after) {id : String}
    {document : Json} (hdocument : Blobs.content id before.blobs = .ok document) :
    Blobs.content id after.blobs = .ok document := by
  rw [Blobs.content, Store.content] at hdocument ⊢
  dsimp only at hdocument ⊢
  cases hbytes : Blobs.read? id before.blobs with
  | none => simp [hbytes] at hdocument
  | some bytes =>
    rw [hbytes] at hdocument
    rw [h.read? hbytes]
    exact hdocument

theorem Keeps.baseContent {before after : Store} (h : before.Keeps after) {base? : Option String}
    {document? : Option Json} (hdocument : baseContent base? before.blobs = .ok document?) :
    baseContent base? after.blobs = .ok document? := by
  cases base? with
  | none => exact hdocument
  | some base =>
    obtain ⟨document, hcontent, rfl⟩ := baseContent_some_iff.mp hdocument
    exact baseContent_some_iff.mpr ⟨document, h.content hcontent, rfl⟩

variable {s : Store} {r r' : Records} {policy : Policy} {stamp : Stamp} {operation : Operation}
  {answer : Except Failure Answer} {blobs : Blobs}

theorem Writes.unique {id other : String} {document another : Json}
    (h : s.Writes operation answer id document) (h' : s.Writes operation answer other another) :
    id = other ∧ document = another := by
  cases h with
  | commit =>
    cases h' with
    | commit => exact ⟨rfl, rfl⟩
  | restore hcontent =>
    cases h' with
    | restore hother => exact ⟨rfl, Except.ok.inj (hcontent.symm.trans hother)⟩
  | execute hdetails hmerged =>
    cases h' with
    | execute hother hanother =>
      obtain rfl := Except.ok.inj (hdetails.symm.trans hother)
      exact ⟨rfl, congrArg Prod.fst (Except.ok.inj (hmerged.symm.trans hanother))⟩

/-- What a commit writes is the document that it is given. -/
theorem Writes.of_commit {content document : Json} {request : NewVersion} {id : String}
    (h : s.Writes (.commit content request) answer id document) :
    document = content ∧ ∃ receipt, answer = .ok (.receipt receipt) ∧ receipt.version = id := by
  cases h with
  | commit => exact ⟨rfl, _, rfl, rfl⟩

/-- A fast-forward commits nothing. -/
theorem planMerge_commit (sound : s.Sound r) {request : MergeRequest} (hmem : request ∈ r.merges)
    {actor : String} {new : NewVersion} {prepared : Prepared}
    (hplan : s.planMerge stamp (r.details request) actor = .ok (.commit new prepared, blobs)) :
    (r.details request).request.strategy ≠ label Strategy.fastForward := by
  intro hforward
  obtain ⟨source, hsource⟩ := Records.exists_branch? (sound.merges.sides request hmem).1
  rw [planMerge_of_fastForward hforward (sound.branch_eq_ok hsource)] at hplan
  simp at hplan

/-- A content that is read is that of a version. -/
theorem Sound.exists_of_content (sound : s.Sound r) {id : String} {document : Json}
    (hcontent : Blobs.content id s.blobs = .ok document) :
    ∃ version ∈ r.versions, version.id = id := by
  refine sound.versions.owned id ?_
  cases hblob : Keyed.get? id s.blobs with
  | some bytes => rfl
  | none =>
    have hread : Blobs.read? id s.blobs = none := by rw [Blobs.read?, hblob, ite_self]
    rw [Blobs.content, content, hread] at hcontent
    cases hcontent

/-- A step writes one version under its own id, or leaves all versions and blobs. -/
theorem Step.writes_cases (step : s.Step r policy stamp operation answer r' blobs)
    (sound : s.Sound r) (fresh : stamp.Fresh s) :
    (∃ (version : Version) (document : Json), s.Writes operation answer version.id document
        ∧ version.id = stamp.id ∧ Document.validate document = .ok ()
        ∧ r'.versions = r.versions ++ [version]
        ∧ blobs = Keyed.insert stamp.id (Document.contentBytes document) s.blobs)
      ∨ ((∀ id document, ¬ s.Writes operation answer id document)
        ∧ r'.versions = r.versions ∧ blobs = s.blobs) := by
  induction step with
  | failed failure => exact Or.inr ⟨fun _ _ h => (by cases h), rfl, rfl⟩
  | asked answer hquestion =>
    refine Or.inr ⟨fun id document h => ?_, rfl, rfl⟩
    cases h <;> simp [Operation.isQuestion] at hquestion
  | @committed content request parent? version hcheck hparent hversion =>
    obtain ⟨-, accepted⟩ := check_eq_ok hcheck
    subst hversion
    exact Or.inl ⟨_, content, .commit, rfl, accepted, Records.versions_record _ _, rfl⟩
  | @restored id branch author message? source content answer r' blobs hsource hcontent _ ih =>
    -- What is committed is the content that was read.
    rcases ih with ⟨version, document, hwrites, hadded⟩ | ⟨hnone, hsame⟩
    · obtain ⟨rfl, receipt, rfl, hid⟩ := hwrites.of_commit
      exact Or.inl ⟨version, _, hid ▸ .restore hcontent, hadded⟩
    · refine Or.inr ⟨fun id document h => ?_, hsame⟩
      cases h with
      | restore => exact hnone _ _ .commit
  | @executed request target actor plan blobs hmem _ _ _ _ hplan planned =>
    have hversions : (r.executed request target.status actor stamp.time plan).versions = _ :=
      versions_carriedOut target.status stamp.time plan
    cases planned with
    | moveHead =>
      refine Or.inr ⟨fun id document h => ?_, hversions, rfl⟩
      cases h with
      | execute _ _ hcreated => exact absurd hcreated Bool.false_ne_true
    | keepHead =>
      refine Or.inr ⟨fun id document h => ?_, hversions, rfl⟩
      cases h with
      | execute _ _ hcreated => exact absurd hcreated Bool.false_ne_true
    | @commit document hvalid =>
      obtain ⟨source, target, base?, -, -, -, -, hmerged⟩ := sound.mergedContent hmem
      obtain ⟨hmergedValid, -⟩ := sound.valid_merged hmem hmerged
      rcases plan_of_materialize sound fresh (planMerge_commit sound hmem hplan) hmerged
        hmergedValid.accepted hplan with
        ⟨-, hmoved, -⟩ | ⟨-, -, hkept, -⟩ | ⟨-, -, -, hblobs⟩
      · cases hmoved
      · cases hkept
      · exact Or.inl ⟨r.newVersion (merging request actor) (stamp.prepared document)
          (some request.target), _, .execute (sound.mergeDetails_of_mem hmem) hmerged rfl, rfl,
          hmergedValid.accepted, hversions, hblobs⟩
  | _ => exact Or.inr ⟨fun _ _ h => (by cases h), rfl, rfl⟩

/-- A step leaves rows of versions and blobs as they are. -/
theorem Step.keeps {s' : Store} (step : s.Step r policy stamp operation answer r' s'.blobs)
    (sound : s.Sound r) (sound' : s'.Sound r') (fresh : stamp.Fresh s) : s.Keeps s' := by
  constructor
  · rw [sound.tables, sound'.tables]
    exact Roll.entries_longer (step.versions_longer.map _)
  · intro id bytes hbytes
    rcases step.writes_cases sound fresh with
      ⟨version, document, -, -, -, -, hblobs⟩ | ⟨-, -, hblobs⟩
    · rw [hblobs, Keyed.get?_insert_of_ne]
      · exact hbytes
      · rintro rfl
        rw [sound.blob_eq_none fresh] at hbytes
        simp at hbytes
    · rw [hblobs]
      exact hbytes

end Store

namespace Repository

variable {repository later : Repository}

/-- All that follows leaves rows of versions and blobs as they are. -/
theorem Leads.keeps (h : Reachable repository) (hleads : Leads repository later) :
    repository.store.Keeps later.store := by
  obtain ⟨_, hrun⟩ := hleads
  induction hrun with
  | refl => exact .refl _
  | @perform deeds middle stamp operation hrun fresh given _ ih =>
    obtain ⟨r, sound⟩ := (h.leads ⟨deeds, hrun⟩).sound
    obtain ⟨r', sound', step⟩ := sound.step fresh given
    exact ih.trans (step.keeps sound sound' fresh)

end Repository

end PlanHistory
