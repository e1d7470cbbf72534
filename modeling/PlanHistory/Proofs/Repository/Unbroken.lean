/-
No commit is lost.

A run loses nothing of a branch if nobody sets its head by hand, and merges into it add a
version or leave its head (`Repository.Extends`).  Then the ancestors of its head are all
versions that were ever written on it, newest first, on top of those of its base
(`Tables.Unbroken`).  Whoever names a parent for a commit finds it no longer the head as soon
as another commit was put on top of it.

* **`Store.BranchStep.unbroken`** — what one step preserves, on the records
  (`Records.Unbroken`);
* **`Repository.Extends.unbroken`** — what every such run preserves;
* **`Repository.Extends.noneLost`** — what follows for the tables, and for commits that name a
  parent.
-/
import PlanHistory.Proofs.Repository.BranchStep

namespace PlanHistory

/-! ### Lineages -/

namespace Tables

variable {tables : Tables} {id other parent : String} {chain : List String}

/-- A lineage is that of its first version only. -/
theorem Lineage.id_eq (h : tables.Lineage id chain) (hother : tables.Lineage other chain) :
    id = other := by
  have first {version : String} (hversion : tables.Lineage version chain) :
      chain.head? = some version := by
    cases hversion <;> rfl
  exact Option.some_inj.mp ((first h).symm.trans (first hother))

/-- No version is among the ancestors of its parent. -/
theorem Lineage.not_mem_of_parent (h : tables.Lineage parent chain)
    (hparent : tables.IsParent id parent) : id ∉ chain := by
  intro hmem
  obtain ⟨before, rest, hchain, hid⟩ := h.of_mem hmem
  have hsame := hid.unique (.child hparent h)
  have hlength := congrArg List.length hchain
  rw [List.cons_inj_right] at hsame
  rw [hsame, List.length_append, List.length_cons] at hlength
  omega

/-- Whether the ancestors of the head of a branch are the versions on it, newest first, and
then those of its base.  If the first of them has no parent then it is the base, and there is
nothing more. -/
def Unbroken (tables : Tables) (branch : Branch) : Prop :=
  ∃ rows rest, tables.rowsOf branch.plan (some branch.name) = rows
    ∧ tables.ancestry branch.head = .ok (rows.map (fun row => row.id) ++ rest)
    ∧ ((∃ first, rows.getLast? = some first ∧ first.parent? = none ∧ first.id = branch.base
        ∧ rest = [])
      ∨ ((∀ first ∈ rows.getLast?, first.parent? = some branch.base)
        ∧ (∀ row ∈ rows, row.id ≠ branch.base)
        ∧ tables.ancestry branch.base = .ok rest))

end Tables

namespace Records

variable {r r' : Records} {blobs : Blobs} {name : String} {plan : PlanId}

theorem parent?_of_mem (ids : (r.versions.map fun version => version.id).Nodup)
    {version : Version} (hmem : version ∈ r.versions) :
    r.tables.parent? version.id = some version.parent? := by
  rw [parent?_tables, version?_of_mem ids hmem, Option.map_some]

theorem ancestry_of_owns (sound : VersionsSound r.versions blobs) {id : String}
    (howns : Owns r.versions plan id) {chain : List String} (h : r.tables.Lineage id chain) :
    r.tables.ancestry id = .ok chain := by
  obtain ⟨lineage, hlineage, hnodup⟩ := lineage_of_owns sound howns
  rw [h.unique hlineage]
  exact Tables.ancestry_of_lineage hlineage hnodup

theorem versionsOf_branch (plan : PlanId) (name : String) :
    r.versionsOf plan (some name) = (versionsOn r.versions plan name).reverse := by
  refine congrArg List.reverse (List.filter_congr fun version _ => ?_)
  rw [Option.isNone_some, Bool.false_or, Bool.eq_iff_iff, Bool.and_eq_true, Bool.and_eq_true,
    beq_iff_eq (b := some version.branch), Option.some_inj, beq_iff_eq (b := name),
    eq_comm (a := name)]

/-- What is below the versions of a branch: nothing if the first of them is its base, and the
lineage of the base otherwise. -/
inductive Below (r : Records) (base : String) (versions : List Version) : List String → Prop where
  | nothing {first : Version} {others : List Version} : versions = first :: others →
      first.id = base → first.parent? = none → Below r base versions []
  | lineage {rest : List String} : (∀ first ∈ versions.head?, first.parent? = some base) →
      (∀ version ∈ versions, version.id ≠ base) → r.tables.Lineage base rest →
      Below r base versions rest

/-- Whether the lineage of the head of a branch, if it is there, is its versions on top of what
is below them. -/
def Unbroken (r : Records) (name : String) (plan : PlanId) : Prop :=
  ∀ base head, r.ends? name plan = some (base, head) → ∃ rest,
    r.tables.Lineage head
        (((versionsOn r.versions plan name).map fun version => version.id).reverse ++ rest)
      ∧ r.Below base (versionsOn r.versions plan name) rest

theorem unbroken_of_ends {base head : String} (hends : r.ends? name plan = some (base, head))
    (h : ∃ rest, r.tables.Lineage head
        (((versionsOn r.versions plan name).map fun version => version.id).reverse ++ rest)
      ∧ r.Below base (versionsOn r.versions plan name) rest) : r.Unbroken name plan := by
  intro base' head' hends'
  obtain ⟨rfl, rfl⟩ := Prod.mk.inj (Option.some_inj.mp (hends.symm.trans hends'))
  exact h

theorem unbroken_empty (name : String) (plan : PlanId) : Records.empty.Unbroken name plan := by
  intro base head hends
  simp [ends?, branch?, Records.empty] at hends

theorem Below.of_longer {base : String} {versions : List Version} {rest : List String}
    (h : r.Below base versions rest) (hlonger : r.versions <+: r'.versions) :
    r'.Below base versions rest := by
  cases h with
  | nothing hversions hid hparent => exact .nothing hversions hid hparent
  | lineage hfirst hbase hrest => exact .lineage hfirst hbase (lineage_of_longer hlonger hrest)

/-- A version on top of others, or of the base if there are none, leaves what is below. -/
theorem Below.concat {base head : String} {versions : List Version} {rest : List String}
    (h : r.Below base versions rest) {version : Version} (hne : version.id ≠ base)
    (hparent : version.parent? = some head)
    (hlineage : r.tables.Lineage head
      ((versions.map fun version => version.id).reverse ++ rest)) :
    r.Below base (versions ++ [version]) rest := by
  cases h with
  | nothing hversions hid hnone =>
    rw [hversions, List.cons_append]
    exact .nothing rfl hid hnone
  | lineage hfirst hbase hrest =>
    refine .lineage ?_ (forall_mem_concat hbase hne) hrest
    cases versions with
    | nil =>
      -- The head is the base as long as there is no version.
      obtain rfl : head = base := hlineage.id_eq hrest
      rintro first ⟨⟩
      exact hparent
    | cons first others => exact hfirst

/-- No version is on a branch that is not there. -/
theorem versionsOn_of_absent (branches : BranchesSound r.versions r.branches)
    (h : r.branch? name plan = none) : versionsOn r.versions plan name = [] := by
  rw [versionsOn, List.filter_eq_nil_iff]
  intro version hmem hon
  rw [Bool.and_eq_true, beq_iff_eq, beq_iff_eq] at hon
  obtain ⟨branch, hbranch, hname, hplan⟩ := branches.homes version hmem
  exact branch?_eq_none_iff.mp h branch hbranch ⟨hname.trans hon.2, hplan.trans hon.1⟩

/-- The head of an unbroken branch is the parent of no version on it. -/
theorem Unbroken.parent_ne (h : r.Unbroken name plan)
    (ids : (r.versions.map fun version => version.id).Nodup) {version : Version}
    (hmem : version ∈ r.versions) (hname : version.branch = name) (hplan : version.plan = plan)
    {branch : Branch} (hbranch : r.branch? name plan = some branch) :
    version.parent? ≠ some branch.head := by
  intro hparent
  obtain ⟨rest, hlineage, -⟩ :=
    h branch.base branch.head (ends?_eq_some_iff.mpr ⟨branch, hbranch, rfl, rfl⟩)
  refine hlineage.not_mem_of_parent ((parent?_of_mem ids hmem).trans (congrArg some hparent)) ?_
  have hon : version ∈ versionsOn r.versions plan name :=
    List.mem_filter.mpr ⟨hmem, by rw [hname, hplan, beq_self_eq_true, beq_self_eq_true]; rfl⟩
  exact List.mem_append_left _ (List.mem_reverse.mpr (List.mem_map_of_mem hon))

/-! ### What a step does to the line -/

/-- The id of an added version is that of no version before. -/
theorem id_ne_of_added {version : Version} (ids : (r'.versions.map fun version => version.id).Nodup)
    (hversions : r'.versions = r.versions ++ [version]) {id : String}
    (howns : Owns r.versions plan id) : version.id ≠ id := by
  obtain ⟨other, hmem, rfl, -⟩ := howns
  rw [hversions, List.map_append] at ids
  exact Ne.symm ((List.nodup_append.mp ids).2.2 _ (List.mem_map_of_mem hmem) _
    (List.mem_singleton_self _))

theorem parent?_of_added {version : Version}
    (ids : (r'.versions.map fun version => version.id).Nodup)
    (hversions : r'.versions = r.versions ++ [version]) :
    r'.tables.parent? version.id = some version.parent? :=
  parent?_of_mem ids (hversions ▸ List.mem_append_right _ (List.mem_singleton_self version))

/-- Where the versions and the ends of a branch stay, so does the line. -/
theorem Unbroken.of_same (h : r.Unbroken name plan) (hlonger : r.versions <+: r'.versions)
    (hversions : versionsOn r'.versions plan name = versionsOn r.versions plan name)
    (hends : r'.ends? name plan = r.ends? name plan) : r'.Unbroken name plan := by
  intro base head hbase
  rw [hends] at hbase
  obtain ⟨rest, hlineage, hbelow⟩ := h base head hbase
  rw [hversions]
  exact ⟨rest, lineage_of_longer hlonger hlineage, hbelow.of_longer hlonger⟩

/-- A version on top of the head goes on with the line. -/
theorem Unbroken.extended {version : Version} (h : r.Unbroken version.branch version.plan)
    (branches : BranchesSound r.versions r.branches)
    (ids : (r'.versions.map fun version => version.id).Nodup) {branch : Branch}
    (hbranch : r.branch? version.branch version.plan = some branch)
    (hversions : r'.versions = r.versions ++ [version])
    (hparent : version.parent? = some branch.head)
    (hends : r'.ends? version.branch version.plan = some (branch.base, version.id)) :
    r'.Unbroken version.branch version.plan := by
  have hlonger : r.versions <+: r'.versions := ⟨[version], hversions.symm⟩
  refine unbroken_of_ends hends ?_
  obtain ⟨rest, hlineage, hbelow⟩ :=
    h branch.base branch.head (ends?_eq_some_iff.mpr ⟨branch, hbranch, rfl, rfl⟩)
  obtain ⟨hmem, -, hplan⟩ := mem_of_branch? hbranch
  -- The base was there before, so the new version is not below itself.
  have hne : version.id ≠ branch.base :=
    id_ne_of_added ids hversions (hplan ▸ branches.bases branch hmem)
  refine ⟨rest, ?_, ?_⟩
  · rw [hversions, versionsOn_append_self, List.map_append, List.reverse_append]
    exact .child ((parent?_of_added ids hversions).trans (congrArg some hparent))
      (lineage_of_longer hlonger hlineage)
  · rw [hversions, versionsOn_append_self]
    exact (hbelow.concat hne hparent hlineage).of_longer hlonger

/-- The line of a branch that begins with a version is the version, on top of the lineage of
its parent if it has one. -/
theorem unbroken_of_begun {version : Version} (versions : VersionsSound r.versions blobs)
    (branches : BranchesSound r.versions r.branches)
    (ids : (r'.versions.map fun version => version.id).Nodup)
    (hnone : r.branch? version.branch version.plan = none)
    (hversions : r'.versions = r.versions ++ [version])
    (howns : ∀ parent ∈ version.parent?, Owns r.versions version.plan parent)
    (hends : r'.ends? version.branch version.plan
      = some (version.parent?.getD version.id, version.id)) :
    r'.Unbroken version.branch version.plan := by
  refine unbroken_of_ends hends ?_
  rw [hversions, versionsOn_append_self, versionsOn_of_absent branches hnone]
  have hparent := parent?_of_added ids hversions
  cases hparent? : version.parent? with
  | none =>
    rw [hparent?] at hparent
    exact ⟨[], .root hparent, .nothing rfl rfl hparent?⟩
  | some id =>
    rw [hparent?] at hparent
    obtain ⟨rest, hrest, -⟩ := lineage_of_owns versions (howns id hparent?)
    have hrest' := lineage_of_longer ⟨[version], hversions.symm⟩ hrest
    refine ⟨rest, .child hparent hrest', .lineage ?_ ?_ hrest'⟩
    · rintro first ⟨⟩
      exact hparent?
    · intro other hmem
      rw [List.mem_singleton.mp hmem]
      exact id_ne_of_added ids hversions (howns id hparent?)

/-- The line of a branch that begins at a version is the lineage of the version. -/
theorem unbroken_of_branched {base : String} (versions : VersionsSound r.versions blobs)
    (branches : BranchesSound r.versions r.branches) (hnone : r.branch? name plan = none)
    (hversions : r'.versions = r.versions) (howns : Owns r.versions plan base)
    (hends : r'.ends? name plan = some (base, base)) : r'.Unbroken name plan := by
  refine unbroken_of_ends hends ?_
  rw [hversions, versionsOn_of_absent branches hnone]
  obtain ⟨rest, hrest, -⟩ := lineage_of_owns versions howns
  have hlonger : r.versions <+: r'.versions := ⟨[], by rw [hversions, List.append_nil]⟩
  have hrest' := lineage_of_longer hlonger hrest
  exact ⟨rest, hrest', .lineage (by simp) (by simp) hrest'⟩

end Records

/-! ### One step -/

/-- Whether a request neither sets the head of a branch nor executes a merge. -/
def Operation.leavesHeads : Operation → Bool
  | .updateHead .. | .execute .. => false
  | _ => true

/-- Whether a request is to put a version on a branch, on top of the parent that it names. -/
def Operation.Names (name : String) (plan : PlanId) (parent : String) : Operation → Prop
  | .commit _ request =>
    request.branch = name ∧ request.plan = plan ∧ request.parent? = some parent
  | _ => False

namespace Store

variable {s : Store} {r r' : Records} {operation : Operation} {answer : Except Failure Answer}
  {name : String} {plan : PlanId} {blobs : Blobs}

/-- A step that does not set the head of a branch keeps its versions in one line. -/
theorem BranchStep.unbroken (step : BranchStep r r' operation answer name plan) (sound : s.Sound r)
    (versions' : VersionsSound r'.versions blobs) (hlonger : r.versions <+: r'.versions)
    (byHand : ∀ expected head, operation ≠ .updateHead name plan expected head)
    (byMerge : ∀ request ∈ r.merges, ∀ actor head branch, operation = .execute request.id actor →
      request.targetBranch = name → request.plan = plan →
      answer = .ok (.outcome ⟨request.id, head, false⟩) → r.branch? name plan = some branch →
      r'.ends? name plan = some (branch.base, head) → head = branch.head)
    (h : r.Unbroken name plan) : r'.Unbroken name plan := by
  cases step with
  | kept hversions hends => exact h.of_same hlonger hversions hends
  | extended hbranch hversions hplan hname hparent hends =>
    subst hplan hname
    exact h.extended sound.branches versions'.idsDiffer hbranch hversions hparent hends
  | begun hnone hversions hplan hname howns hends =>
    subst hplan hname
    exact Records.unbroken_of_begun sound.versions sound.branches versions'.idsDiffer hnone
      hversions howns hends
  | branched hnone hversions howns hends =>
    exact Records.unbroken_of_branched sound.versions sound.branches hnone hversions howns hends
  | moved hoperation => exact absurd hoperation (byHand _ _)
  | @merged request actor head branch hmem hoperation hname hplan hanswer hversions hbranch hends =>
    have hhead :=
      byMerge request hmem actor head branch hoperation hname hplan hanswer hbranch hends
    refine h.of_same hlonger (congrArg (versionsOn · plan name) hversions) ?_
    rw [hends, hhead, Records.ends?_eq_some_iff.mpr ⟨branch, hbranch, rfl, rfl⟩]

/-- A version that a step puts on a branch is on top of its head, and becomes it. -/
theorem BranchStep.of_concat (step : BranchStep r r' operation answer name plan)
    {version : Version} (hversions : r'.versions = r.versions ++ [version])
    (hname : version.branch = name) (hplan : version.plan = plan) {branch : Branch}
    (hbranch : r.branch? name plan = some branch)
    (byHand : ∀ expected head, operation ≠ .updateHead name plan expected head) :
    version.parent? = some branch.head
      ∧ r'.ends? name plan = some (branch.base, version.id) := by
  have added (hsame : r'.versions = r.versions) : False := by
    have hlength := congrArg List.length (hversions.symm.trans hsame)
    simp at hlength
  cases step with
  | kept hsame =>
    subst hname hplan
    rw [hversions, versionsOn_append_self] at hsame
    have hlength := congrArg List.length hsame
    simp at hlength
  | @extended found other hfound hothers _ _ hparent hends =>
    obtain rfl := Option.some_inj.mp (hfound.symm.trans hbranch)
    obtain rfl := List.singleton_injective (List.append_cancel_left (hversions.symm.trans hothers))
    exact ⟨hparent, hends⟩
  | begun hnone => simp [hbranch] at hnone
  | branched hnone => simp [hbranch] at hnone
  | moved hoperation => exact absurd hoperation (byHand _ _)
  | merged _ _ _ _ _ hsame => exact (added hsame).elim

/-- A commit that names its parent puts a version on top of it. -/
theorem Step.of_names {policy : Policy} {stamp : Stamp} {given : Answer} {parent : String}
    (step : s.Step r policy stamp operation (.ok given) r' blobs)
    (h : operation.Names name plan parent) :
    ∃ version, r'.versions = r.versions ++ [version] ∧ version.branch = name
      ∧ version.plan = plan ∧ version.parent? = some parent := by
  cases step with
  | committed hcheck hparent hversion =>
    obtain ⟨rfl, rfl, hasked⟩ := h
    subst hversion
    exact ⟨_, Records.versions_record _ _, rfl, rfl, Records.parentFor_of_asked hparent hasked⟩
  | asked answer hquestion =>
    cases operation with
    | commit => simp [Operation.isQuestion] at hquestion
    | _ => exact h.elim
  | _ => exact h.elim

/-- What a step writes is a version at the end. -/
theorem Step.of_writes {s' : Store} {policy : Policy} {stamp : Stamp} {id : String}
    {document : Json} (step : s.Step r policy stamp operation answer r' s'.blobs)
    (sound : s.Sound r) (sound' : s'.Sound r') (fresh : stamp.Fresh s)
    (hwrites : s.Writes operation answer id document) :
    ∃ version, version.id = id ∧ r'.versions = r.versions ++ [version]
      ∧ s'.tables.versionRow? id = some (VersionRow.store version) := by
  rcases step.writes_cases sound fresh with
    ⟨version, other, hother, -, -, hversions, -⟩ | ⟨hnone, -⟩
  · obtain ⟨rfl, -⟩ := hwrites.unique hother
    have hmem : version ∈ r'.versions :=
      hversions ▸ List.mem_append_right _ (List.mem_singleton_self version)
    refine ⟨version, rfl, hversions, ?_⟩
    rw [sound'.tables, Records.versionRow?_tables,
      Records.version?_of_mem sound'.versions.idsDiffer hmem, Option.map_some]
  · exact absurd hwrites (hnone id document)

/-- Who names a parent that a version of an unbroken branch is on top of is refused. -/
theorem Step.refused_of_names {policy : Policy} {stamp : Stamp} {parent : String}
    (step : s.Step r policy stamp operation answer r' blobs) (sound : s.Sound r)
    (hunbroken : r.Unbroken name plan) {version : Version} (hmem : version ∈ r.versions)
    (hname : version.branch = name) (hplan : version.plan = plan)
    (hparent : version.parent? = some parent) (hnames : operation.Names name plan parent) :
    ∃ failure, answer = .error failure := by
  cases answer with
  | error failure => exact ⟨failure, rfl⟩
  | ok given =>
    obtain ⟨branch, hbranch⟩ :=
      Records.exists_branch? (hname ▸ hplan ▸ sound.branches.homes version hmem)
    -- It would be put on the head, which then were the parent of the first.
    obtain ⟨other, hversions, hname', hplan', hparent'⟩ := step.of_names hnames
    obtain ⟨hhead, -⟩ := (step.branchStep sound name plan).of_concat hversions hname' hplan'
      hbranch (by rintro _ _ rfl; exact hnames)
    exact absurd (hparent.trans (hparent'.symm.trans hhead))
      (hunbroken.parent_ne sound.versions.idsDiffer hmem hname hplan hbranch)

/-- An unbroken branch is read as one. -/
theorem Sound.unbroken (sound : s.Sound r) (h : r.Unbroken name plan) {branch : Branch}
    (hbranch : s.tables.branch name plan = .ok branch) : s.tables.Unbroken branch := by
  have hfound := sound.branch?_eq hbranch
  obtain ⟨hmem, rfl, rfl⟩ := Records.mem_of_branch? hfound
  obtain ⟨rest, hlineage, hbelow⟩ :=
    h branch.base branch.head (Records.ends?_eq_some_iff.mpr ⟨branch, hfound, rfl, rfl⟩)
  have hrows : r.tables.rowsOf branch.plan (some branch.name)
      = ((versionsOn r.versions branch.plan branch.name).map VersionRow.store).reverse := by
    rw [Records.rowsOf_tables, Records.versionsOf_branch, List.map_reverse]
  rw [sound.tables]
  refine ⟨_, rest, hrows, ?_, ?_⟩
  · rw [List.map_reverse, List.map_map]
    exact Records.ancestry_of_owns sound.versions (sound.branches.heads branch hmem) hlineage
  · rw [List.getLast?_reverse, List.head?_map]
    cases hbelow with
    | nothing hversions hid hparent =>
      rw [hversions]
      exact Or.inl ⟨_, rfl, hparent, hid, rfl⟩
    | lineage hfirst hbase hrest =>
      refine Or.inr ⟨fun row hrow => ?_, fun row hrow => ?_,
        Records.ancestry_of_owns sound.versions (sound.branches.bases branch hmem) hrest⟩
      · obtain ⟨first, hversion, rfl⟩ := Option.map_eq_some_iff.mp hrow
        exact hfirst first hversion
      · obtain ⟨version, hversion, rfl⟩ := List.mem_map.mp (List.mem_reverse.mp hrow)
        exact hbase version hversion

/-- The rows of a plan, or of one branch of it, are listed as versions if all of them are read. -/
theorem Sound.versionsOf_of_reads (sound : s.Sound r) {branch? : Option String}
    (h : ∀ row ∈ s.tables.rowsOf plan branch?, s.tables.Reads row.id) :
    ∃ versions, s.tables.versionsOf plan branch? = .ok versions
      ∧ versions.map VersionRow.store = s.tables.rowsOf plan branch? := by
  have hrows : s.tables.rowsOf plan branch? = (r.versionsOf plan branch?).map VersionRow.store := by
    rw [sound.tables, Records.rowsOf_tables]
  rw [hrows] at h ⊢
  refine ⟨_, ?_, rfl⟩
  rw [sound.tables, Records.versionsOf_tables sound.storable, if_pos]
  intro version hmem
  exact (sound.reads_iff (Records.mem_of_versionsOf hmem)).mp (h _ (List.mem_map_of_mem hmem))

end Store

/-! ### Runs -/

namespace Repository

variable {repository later : Repository} {name : String} {plan : PlanId}

/-- Whether an operation loses nothing of a branch: its head is not set by hand, and a merge into
it adds a version or leaves the head. -/
def LosesNothing (name : String) (plan : PlanId) (repository : Repository) (stamp : Stamp)
    (operation : Operation) : Prop :=
  (∀ expected head, operation ≠ .updateHead name plan expected head)
    ∧ ∀ id actor details outcome, operation = .execute id actor →
      repository.store.tables.mergeDetails id = .ok details →
      details.request.targetBranch = name → details.request.plan = plan →
      (repository.perform stamp operation).1 = .ok (.outcome outcome) →
      outcome.createdVersion = true
        ∨ ∃ before after, repository.store.tables.branch name plan = .ok before
          ∧ (repository.perform stamp operation).2.store.tables.branch name plan = .ok after
          ∧ after.head = before.head

/-- Whether operations that lose nothing of a branch lead from one repository to another. -/
def Extends (name : String) (plan : PlanId) (repository later : Repository) : Prop :=
  ∃ deeds, Run (LosesNothing name plan) repository deeds later

/-- A run that loses nothing of a branch keeps its versions in one line, and all others. -/
theorem Extends.unbroken {r : Records} (h : Extends name plan repository later)
    (sound : repository.store.Sound r) (hunbroken : r.Unbroken name plan) :
    ∃ r', later.store.Sound r' ∧ r'.Unbroken name plan ∧ r.versions <+: r'.versions := by
  obtain ⟨deeds, hrun⟩ := h
  refine hrun.keeps sound ⟨hunbroken, List.prefix_refl _⟩ ?_
  rintro middle stamp operation r r' sound fresh ⟨byHand, byMerge⟩ step sound'
    ⟨hunbroken, hlonger⟩
  refine ⟨(step.branchStep sound name plan).unbroken sound sound'.versions step.versions_longer
    byHand ?_ hunbroken, hlonger.trans step.versions_longer⟩
  intro request hmem actor head branch hoperation hname hplan hanswer hbranch hends
  rcases byMerge request.id actor (r.details request) _ hoperation
    (sound.mergeDetails_of_mem hmem) hname hplan hanswer with
    hcreated | ⟨before, after, hbefore, hafter, hhead⟩
  · exact absurd hcreated Bool.false_ne_true
  · obtain ⟨moved, hmoved, -, rfl⟩ := Records.ends?_eq_some_iff.mp hends
    obtain rfl := Option.some_inj.mp ((sound.branch?_eq hbefore).symm.trans hbranch)
    obtain rfl := Option.some_inj.mp ((sound'.branch?_eq hafter).symm.trans hmoved)
    exact hhead

/-- **Where no head is set by hand or by a merge that adds nothing, no commit is lost.**  The
ancestors of the head of the branch are all its versions, on top of those of its base, and these
are what its history lists once all are read; every version that is written on it extends its
head; and of all commits that name one parent at most one succeeds. -/
theorem Extends.noneLost {policy : Policy} (h : Extends name plan (empty policy) repository) :
    (∀ branch, repository.store.tables.branch name plan = .ok branch →
        repository.store.tables.Unbroken branch)
      ∧ ((∀ row ∈ repository.store.tables.rowsOf plan (some name),
          repository.store.tables.Reads row.id) → ∃ versions,
            repository.store.tables.versionsOf plan (some name) = .ok versions
              ∧ versions.map VersionRow.store = repository.store.tables.rowsOf plan (some name))
      ∧ (∀ stamp operation id document branch, stamp.Fresh repository.store → operation.Ordered →
        repository.store.Writes operation (repository.perform stamp operation).1 id document →
        repository.store.tables.branch name plan = .ok branch → ∃ row,
          (repository.perform stamp operation).2.store.tables.versionRow? id = some row
            ∧ (row.branch = name → row.plan = plan →
              row.parent? = some branch.head ∧ ∃ moved,
                (repository.perform stamp operation).2.store.tables.branch name plan = .ok moved
                  ∧ moved.head = id))
      ∧ ∀ stamp operation parent answer, stamp.Fresh repository.store → operation.Ordered →
        operation.Names name plan parent →
        (repository.perform stamp operation).1 = .ok answer → ∀ later,
          Extends name plan (repository.perform stamp operation).2 later →
          ∀ stamp' again, stamp'.Fresh later.store → again.Ordered → again.Names name plan parent →
            ∃ failure, (later.perform stamp' again).1 = .error failure := by
  obtain ⟨r, sound, hunbroken, -⟩ :=
    h.unbroken Store.sound_empty (Records.unbroken_empty name plan)
  refine ⟨fun branch hbranch => sound.unbroken hunbroken hbranch, sound.versionsOf_of_reads, ?_, ?_⟩
  · intro stamp operation id document branch fresh given hwrites hbranch
    obtain ⟨r', sound', step⟩ := sound.step fresh given
    obtain ⟨version, rfl, hversions, hrow⟩ := step.of_writes sound sound' fresh hwrites
    refine ⟨VersionRow.store version, hrow, fun hname hplan => ?_⟩
    have byHand : ∀ expected head, operation ≠ .updateHead name plan expected head := by
      rintro expected head rfl
      cases hwrites
    obtain ⟨hparent, hends⟩ := (step.branchStep sound name plan).of_concat hversions hname hplan
      (sound.branch?_eq hbranch) byHand
    obtain ⟨moved, hmoved, -, hhead⟩ := Records.ends?_eq_some_iff.mp hends
    exact ⟨hparent, moved, sound'.branch_eq_ok hmoved, hhead⟩
  · intro stamp operation parent answer fresh given hnames hanswer later hlater stamp' again fresh'
      given' hnames'
    obtain ⟨r', sound', step⟩ := sound.step fresh given
    rw [hanswer] at step
    obtain ⟨version, hversions, hname, hplan, hparent⟩ := step.of_names hnames
    have hunbroken' : r'.Unbroken name plan :=
      (step.branchStep sound name plan).unbroken sound sound'.versions step.versions_longer
        (by rintro _ _ rfl; exact hnames) (by rintro _ _ _ _ _ rfl; exact hnames.elim) hunbroken
    obtain ⟨r'', sound'', hlast, hlonger⟩ := hlater.unbroken sound' hunbroken'
    have hmem : version ∈ r''.versions :=
      hlonger.subset (hversions ▸ List.mem_append_right _ (List.mem_singleton_self version))
    obtain ⟨_, _, step'⟩ := sound''.step fresh' given'
    exact step'.refused_of_names sound'' hlast hmem hname hplan hparent hnames'

/-- An operation that neither sets heads nor executes requests loses nothing of any branch. -/
theorem losesNothing_of_leavesHeads {stamp : Stamp} {operation : Operation}
    (h : operation.leavesHeads = true) : LosesNothing name plan repository stamp operation := by
  constructor
  · rintro expected head rfl
    exact absurd h Bool.false_ne_true
  · rintro id actor details outcome rfl
    exact absurd h Bool.false_ne_true

/-- The hall is given a size on top of the version that it was drawn as. -/
def redrawHall (size : WideInt) : Operation :=
  .commit (Merge.hallFloor size) ⟨hallPlan, "main", "hall", "clerk", some "first", .minor, []⟩

/-- Of two clerks who redraw the hall one is refused. -/
theorem noneLost_redrawn :
    Extends "main" hallPlan (empty .standard) ((empty .standard).play hallSteps)
      ∧ (∃ branch,
        ((empty .standard).play hallSteps).store.tables.branch "main" hallPlan = .ok branch
          ∧ ((empty .standard).play hallSteps).store.tables.Unbroken branch)
      ∧ ∃ failure,
        ((((empty .standard).play hallSteps).perform (.named "next")
          (redrawHall Merge.largeSize)).2.perform (.named "late")
            (redrawHall Merge.smallSize)).1 = .error failure := by
  have hruns : (empty .standard).admits
        (hallSteps ++ [("next", redrawHall Merge.largeSize), ("late", redrawHall Merge.smallSize)])
        = true
      ∧ ((empty .standard).play hallSteps).headOf "main" = some "first"
      ∧ (((empty .standard).play hallSteps).perform (.named "next")
        (redrawHall Merge.largeSize)).1.toOption.isSome = true := by
    decide +kernel
  obtain ⟨hnew, hhead, hanswer⟩ := hruns
  rw [admits_append, Bool.and_eq_true] at hnew
  obtain ⟨hbefore, hafter⟩ := hnew
  obtain ⟨hnext, hlast⟩ := Bool.and_eq_true_iff.mp hafter
  obtain ⟨hlate, -⟩ := Bool.and_eq_true_iff.mp hlast
  obtain ⟨answer, hanswered⟩ := Option.isSome_iff_exists.mp hanswer
  obtain ⟨branch, hbranch, -⟩ := exists_branch hhead
  have hleaves : ∀ step ∈ hallSteps, step.2.leavesHeads = true :=
    List.forall_mem_cons.mpr ⟨rfl, List.forall_mem_singleton.mpr rfl⟩
  have hrun : Extends "main" hallPlan (empty .standard) ((empty .standard).play hallSteps) :=
    ⟨_, Run.play hbefore ordered_hallSteps fun step hmem _ =>
      losesNothing_of_leavesHeads (hleaves step hmem)⟩
  obtain ⟨hunbroken, -, -, hrefused⟩ := Extends.noneLost hrun
  exact ⟨hrun, ⟨branch, hbranch, hunbroken branch hbranch⟩,
    hrefused (.named "next") (redrawHall Merge.largeSize) "first" answer (Stamp.fresh_named hnext)
      (ordered_drawHall "main" _) ⟨rfl, rfl, rfl⟩ (eq_ok_of_toOption hanswered) _ ⟨[], .refl⟩
      (.named "late") (redrawHall Merge.smallSize) (Stamp.fresh_named hlate)
      (ordered_drawHall "main" _) ⟨rfl, rfl, rfl⟩⟩

end Repository

end PlanHistory
