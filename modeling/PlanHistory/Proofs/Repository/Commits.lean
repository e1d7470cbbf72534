/-
A version is made exactly if nothing speaks against it.

What speaks against a version is looked at in a fixed order (`CommitRule.all`), and a commit
that is refused tells of the first rule that its request breaks (`CommitRule.FirstBroken`).
Two of the rules are of storage: the row of the parent is read, and on a branch that is there
the row of the new version.  Nothing else can go wrong on a store that operations lead to: the
id of the version is new, its place on the branch is free, and what it refers to is there.

* **`Store.firstBroken_of_check`**, **`Store.Sound.firstBroken_of_refuses`** — what a refusal
  tells;
* **`Store.Sound.made`** — the version that is made, and its branch;
* **`Repository.Reachable.commit_answer`** — a commit is answered exactly so.
-/
import PlanHistory.Proofs.Repository.BranchStep
import PlanHistory.Proofs.Repository.ReadBack

namespace PlanHistory

/-- What a request for a new version must satisfy. -/
inductive CommitRule where
  | building
  | floor
  | branchName
  | document
  | parentKnown
  | parentRead
  | parentPlan
  | head
  | metadata

namespace CommitRule

/-- The rules in the order in which they are looked at. -/
def all : List CommitRule :=
  [.building, .floor, .branchName, .document, .parentKnown, .parentRead, .parentPlan, .head,
    .metadata]

/-- Whether a rule is about what storage gives back. -/
def isOfStorage : CommitRule → Bool
  | .parentRead | .metadata => true
  | _ => false

variable (s : Store) (content : Json) (request : NewVersion)

/-- Whether a request to commit a document satisfies a rule. -/
def Holds : CommitRule → Prop
  | .building => Text.isBlank request.plan.building = false
  | .floor => Text.isBlank request.plan.floor = false
  | .branchName => Text.isBlank request.branch = false
  | .document => Document.validate content = .ok ()
  | .parentKnown => ∀ asked ∈ request.parent?, s.tables.hasVersion asked = true
  | .parentRead => ∀ asked ∈ request.parent?, s.tables.Reads asked
  | .parentPlan => ∀ asked ∈ request.parent?, ∀ version,
      s.tables.version asked = .ok version → version.plan = request.plan
  | .head => ∀ asked ∈ request.parent?, ∀ branch,
      s.tables.branch request.branch request.plan = .ok branch → branch.head = asked
  | .metadata => ∀ branch, s.tables.branch request.branch request.plan = .ok branch →
      Legible request.metadata

/-- What is told of a rule that is broken. -/
inductive Reports : CommitRule → Failure → Prop
  | building : Reports .building (.invalid (.blank .building))
  | floor : Reports .floor (.invalid (.blank .floor))
  | branchName : Reports .branchName (.invalid (.blank .branchName))
  | document {defect : Document.Defect} : Document.validate content = .error defect →
      Reports .document (.invalid (.document defect))
  | parentKnown {asked : String} : request.parent? = some asked →
      Reports .parentKnown (.notFound .version asked)
  | parentRead : Reports .parentRead .illegible
  | parentPlan {asked : String} {version : Version} : request.parent? = some asked →
      s.tables.version asked = .ok version →
      Reports .parentPlan (.invalid (.foreignVersion .parent asked version.plan))
  /-- The head that is there is told along with the one that was asked for. -/
  | head {asked : String} {branch : Branch} : request.parent? = some asked →
      s.tables.branch request.branch request.plan = .ok branch →
      Reports .head (.headMoved request.branch asked branch.head)
  | metadata : Reports .metadata .illegible

/-- Whether a failure is that of the first rule that a request breaks. -/
def FirstBroken (failure : Failure) : Prop :=
  ∃ before rule after, all = before ++ rule :: after
    ∧ (∀ earlier ∈ before, earlier.Holds s content request)
    ∧ ¬ rule.Holds s content request ∧ rule.Reports s content request failure

variable {s content request} {failure : Failure}

/-- The failures of storage are those that the rules of storage tell of. -/
theorem Reports.isStorage {rule : CommitRule} (h : Reports s content request rule failure) :
    failure.isStorage = rule.isOfStorage := by
  cases h <;> rfl

/-- No failure of storage is told of where the rules of storage hold. -/
theorem FirstBroken.isStorage (h : FirstBroken s content request failure)
    (hstorage : ∀ rule : CommitRule, rule.isOfStorage = true → rule.Holds s content request) :
    failure.isStorage = false := by
  obtain ⟨_, rule, _, -, -, hbroken, hreports⟩ := h
  rw [hreports.isStorage, Bool.eq_false_iff]
  exact fun hof => hbroken (hstorage rule hof)

/-- Where only rules of storage are broken, what is told is that a row is not read. -/
theorem FirstBroken.eq_illegible (h : FirstBroken s content request failure)
    (hothers : ∀ rule : CommitRule, rule.isOfStorage = false → rule.Holds s content request) :
    failure = .illegible := by
  obtain ⟨_, rule, _, -, -, hbroken, hreports⟩ := h
  cases hreports with
  | parentRead => rfl
  | metadata => rfl
  | _ => exact absurd (hothers _ rfl) hbroken

end CommitRule

theorem bind_eq_error_iff {ε α β : Type} {x : Except ε α} {f : α → Except ε β} {e : ε} :
    (do let a ← x; f a) = .error e ↔ x = .error e ∨ ∃ a, x = .ok a ∧ f a = .error e := by
  cases x <;> simp [bind, Except.bind]

theorem map_eq_error_iff {ε α β : Type} {x : Except ε α} {f : α → β} {e : ε} :
    x.map f = .error e ↔ x = .error e := by
  cases x <;> simp [Except.map]

theorem require_eq_ok_iff {what : RequiredText} {text : String} :
    require what text = .ok () ↔ Text.isBlank text = false := by
  rw [require]
  split <;> simp [*]

theorem require_eq_error_iff {what : RequiredText} {text : String} {failure : Failure} :
    require what text = .error failure
      ↔ Text.isBlank text = true ∧ failure = .invalid (.blank what) := by
  rw [require]
  split <;> simp [*, eq_comm]

/-! ### What a refusal tells -/

namespace Records

variable {r : Records} {request : NewVersion} {failure : Failure}

/-- Why a version does not get its place: for the parent that is asked for, or for the metadata
once the parent is found. -/
inductive Refuses (r : Records) (request : NewVersion) : Failure → Prop
  | unknown {asked : String} : request.parent? = some asked → r.version? asked = none →
      Refuses r request (.notFound .version asked)
  | unread {asked : String} {version : Version} : request.parent? = some asked →
      r.version? asked = some version → ¬ Legible version.metadata → Refuses r request .illegible
  | foreign {asked : String} {version : Version} : request.parent? = some asked →
      r.readVersion asked = .ok version → version.plan ≠ request.plan →
      Refuses r request (.invalid (.foreignVersion .parent asked version.plan))
  | moved {asked : String} {branch : Branch} : request.parent? = some asked →
      r.checkParent request = .ok () → r.branch? request.branch request.plan = some branch →
      branch.head ≠ asked → Refuses r request (.headMoved request.branch asked branch.head)
  | unplaced {parent? : Option String} : r.checkParent request = .ok () →
      Tables.newParent? request.branch (r.branch? request.branch request.plan) request.parent?
        = .ok parent? →
      (r.branch? request.branch request.plan).isSome = true → ¬ Legible request.metadata →
      Refuses r request .illegible

/-- A parent is refused that is not there, or not read, or on another plan. -/
theorem refuses_of_checkParent (h : r.checkParent request = .error failure) :
    r.Refuses request failure := by
  rw [checkParent] at h
  cases hasked : request.parent? with
  | none =>
    rw [hasked] at h
    cases h
  | some asked =>
    rw [hasked] at h
    rcases bind_eq_error_iff.mp h with hread | ⟨version, hread, howner⟩
    · rw [readVersion] at hread
      cases hversion : r.version? asked with
      | none =>
        rw [hversion] at hread
        obtain rfl := Except.error.inj hread
        exact .unknown hasked hversion
      | some version =>
        rw [hversion] at hread
        dsimp only at hread
        split at hread
        next => cases hread
        next hillegible =>
          obtain rfl := Except.error.inj hread
          exact .unread hasked hversion hillegible
    · rw [requireOwner] at howner
      split at howner
      next => cases howner
      next hforeign =>
        obtain rfl := Except.error.inj howner
        exact .foreign hasked hread hforeign

/-- What is refused is so for one of the reasons, in their order. -/
theorem refuses_of_parentFor (h : r.parentFor request = .error failure) :
    r.Refuses request failure := by
  rw [parentFor] at h
  rcases bind_eq_error_iff.mp h with h | ⟨⟨⟩, hparent, h⟩
  · exact refuses_of_checkParent h
  rcases bind_eq_error_iff.mp h with h | ⟨parent?, hnew, h⟩
  · -- Only a head that is not the parent that was asked for is refused.
    cases hasked : request.parent? with
    | none =>
      rw [hasked] at h
      cases hbranch : r.branch? request.branch request.plan <;> rw [hbranch] at h <;> cases h
    | some asked =>
      rw [hasked] at h
      cases hbranch : r.branch? request.branch request.plan with
      | none =>
        rw [hbranch] at h
        cases h
      | some branch =>
        rw [hbranch, Tables.newParent?] at h
        split at h
        · cases h
        next hmoved =>
          obtain rfl := Except.error.inj h
          exact .moved hasked hparent hbranch hmoved
  · rcases bind_eq_error_iff.mp h with h | ⟨⟨⟩, -, ⟨⟩⟩
    rw [checkPlace] at h
    split at h
    next hplace =>
      obtain rfl := Except.error.inj h
      exact .unplaced hparent hnew hplace.1 hplace.2
    next => cases h

end Records

namespace Store

open CommitRule (FirstBroken)

variable {s : Store} {r : Records} {stamp : Stamp} {request : NewVersion} {content : Json}
  {failure : Failure} {parent? : Option String}

/-- Before anything is written the first four rules are looked at. -/
theorem firstBroken_of_check (h : request.check content = .error failure) :
    FirstBroken s content request failure := by
  have broken {what : RequiredText} {text : String} (h : require what text = .error failure) :
      ¬ Text.isBlank text = false ∧ failure = .invalid (.blank what) := by
    obtain ⟨hblank, hfailure⟩ := require_eq_error_iff.mp h
    exact ⟨ne_of_eq_of_ne hblank (by decide), hfailure⟩
  rw [NewVersion.check, requirePlan, bind_eq_error_iff, bind_eq_error_iff] at h
  rcases h with (h | ⟨⟨⟩, hbuilding, h⟩) | ⟨⟨⟩, hplan, h⟩
  · obtain ⟨hblank, rfl⟩ := broken h
    exact ⟨[], .building, _, rfl, by simp, hblank, .building⟩
  · have hbuilding : CommitRule.Holds s content request .building := require_eq_ok_iff.mp hbuilding
    obtain ⟨hblank, rfl⟩ := broken h
    exact ⟨[.building], .floor, _, rfl, by simpa using hbuilding, hblank, .floor⟩
  obtain ⟨⟨⟩, hbuilding, hfloor⟩ := bind_eq_ok_iff.mp hplan
  have hbuilding : CommitRule.Holds s content request .building := require_eq_ok_iff.mp hbuilding
  have hfloor : CommitRule.Holds s content request .floor := require_eq_ok_iff.mp hfloor
  rcases bind_eq_error_iff.mp h with h | ⟨⟨⟩, hname, h⟩
  · obtain ⟨hblank, rfl⟩ := broken h
    exact ⟨[.building, .floor], .branchName, _, rfl, by simpa using ⟨hbuilding, hfloor⟩, hblank,
      .branchName⟩
  have hname : CommitRule.Holds s content request .branchName := require_eq_ok_iff.mp hname
  cases hvalid : Document.validate content with
  | ok => simp [hvalid, Except.mapError] at h
  | error defect =>
    rw [hvalid] at h
    obtain rfl := Except.error.inj h
    refine ⟨[.building, .floor, .branchName], .document, _, rfl,
      by simpa using ⟨hbuilding, hfloor, hname⟩, fun accepted => ?_, .document hvalid⟩
    rw [CommitRule.Holds, hvalid] at accepted
    cases accepted

/-- What passes the check satisfies the first four rules. -/
theorem holds_of_check (h : request.check content = .ok ()) :
    ∀ rule ∈ [CommitRule.building, .floor, .branchName, .document],
      rule.Holds s content request := by
  obtain ⟨⟨hname, hplan⟩, accepted⟩ := check_eq_ok h
  obtain ⟨⟨⟩, hbuilding, hfloor⟩ := bind_eq_ok_iff.mp hplan
  have hbuilding : CommitRule.Holds s content request .building := require_eq_ok_iff.mp hbuilding
  have hfloor : CommitRule.Holds s content request .floor := require_eq_ok_iff.mp hfloor
  have hname : CommitRule.Holds s content request .branchName := require_eq_ok_iff.mp hname
  have hdocument : CommitRule.Holds s content request .document := accepted
  simpa using ⟨hbuilding, hfloor, hname, hdocument⟩

/-- The parent that is asked for is there, if its row was read. -/
theorem Sound.holds_parentKnown (sound : s.Sound r)
    (h : CommitRule.Holds s content request .parentRead) :
    CommitRule.Holds s content request .parentKnown := by
  intro asked hasked
  obtain ⟨version, hread⟩ := h asked hasked
  rw [sound.tables, Records.hasVersion_tables, sound.version?_eq hread, Option.isSome_some]

/-- A parent that was read and not refused satisfies the rules about it. -/
theorem Sound.holds_of_checkParent (sound : s.Sound r) (h : r.checkParent request = .ok ()) :
    ∀ rule ∈ [CommitRule.parentKnown, .parentRead, .parentPlan],
      rule.Holds s content request := by
  have hasked := Records.checkParent_eq_ok_iff.mp h
  have hread (asked : String) : s.tables.version asked = r.readVersion asked := by
    rw [sound.tables, Records.version_tables sound.storable]
  have hreads : CommitRule.Holds s content request .parentRead := by
    intro asked hmem
    obtain ⟨version, hversion, -⟩ := hasked asked hmem
    exact ⟨version, (hread asked).trans hversion⟩
  have hplan : CommitRule.Holds s content request .parentPlan := by
    intro asked hmem found hfound
    obtain ⟨version, hversion, hplan⟩ := hasked asked hmem
    obtain rfl := Except.ok.inj (hversion.symm.trans ((hread asked).symm.trans hfound))
    exact hplan
  simpa using ⟨sound.holds_parentKnown hreads, hreads, hplan⟩

/-- The head is that which was asked for if it is not refused. -/
theorem Sound.holds_head (sound : s.Sound r)
    (h : Tables.newParent? request.branch (r.branch? request.branch request.plan) request.parent?
      = .ok parent?) : CommitRule.Holds s content request .head := fun asked hmem branch hbranch =>
  Tables.exists_newParent?_iff.mp ⟨_, h⟩ asked hmem branch (sound.branch?_eq hbranch)

/-- What satisfies the first four rules and is refused breaks one of the others, and none before
it. -/
theorem Sound.firstBroken_of_refuses (sound : s.Sound r)
    (hcheck : request.check content = .ok ()) (h : r.Refuses request failure) :
    FirstBroken s content request failure := by
  have hfirst := holds_of_check (s := s) hcheck
  have same {asked other : String} (hasked : request.parent? = some asked)
      (hother : other ∈ request.parent?) : asked = other :=
    Option.some_inj.mp (hasked.symm.trans hother)
  have hread (asked : String) : s.tables.version asked = r.readVersion asked := by
    rw [sound.tables, Records.version_tables sound.storable]
  have hthere (asked : String) : s.tables.hasVersion asked = (r.version? asked).isSome := by
    rw [sound.tables, Records.hasVersion_tables]
  cases h with
  | @unknown asked hasked hversion =>
    refine ⟨_, .parentKnown, _, rfl, hfirst, fun hknown => ?_, .parentKnown hasked⟩
    have hfound := hknown asked hasked
    rw [hthere, hversion] at hfound
    cases hfound
  | @unread asked version hasked hversion hillegible =>
    have hknown : CommitRule.Holds s content request .parentKnown := by
      intro other hother
      obtain rfl := same hasked hother
      rw [hthere, hversion, Option.isSome_some]
    refine ⟨_, .parentRead, _, rfl, forall_mem_concat hfirst hknown, fun hreads => ?_,
      .parentRead⟩
    obtain ⟨found, hfound⟩ := hreads asked hasked
    rw [hread, Records.readVersion_of_illegible hversion hillegible] at hfound
    cases hfound
  | @foreign asked version hasked hversion hplan =>
    have hfound := (hread asked).trans hversion
    have hreads : CommitRule.Holds s content request .parentRead := by
      intro other hother
      obtain rfl := same hasked hother
      exact ⟨version, hfound⟩
    exact ⟨_, .parentPlan, _, rfl,
      forall_mem_concat (forall_mem_concat hfirst (sound.holds_parentKnown hreads)) hreads,
      fun howned => hplan (howned asked hasked _ hfound), .parentPlan hasked hfound⟩
  | @moved asked branch hasked hparent hbranch hmoved =>
    have hfound := sound.branch_eq_ok hbranch
    exact ⟨_ ++ [.parentKnown, .parentRead, .parentPlan], .head, _, rfl,
      List.forall_mem_append.mpr ⟨hfirst, sound.holds_of_checkParent hparent⟩,
      fun hhead => hmoved (hhead asked hasked _ hfound), .head hasked hfound⟩
  | unplaced hparent hnew hsome hillegible =>
    obtain ⟨branch, hbranch⟩ := Option.isSome_iff_exists.mp hsome
    have hfound := sound.branch_eq_ok hbranch
    exact ⟨_ ++ [.parentKnown, .parentRead, .parentPlan] ++ [.head], .metadata, _, rfl,
      forall_mem_concat (List.forall_mem_append.mpr ⟨hfirst, sound.holds_of_checkParent hparent⟩)
        (sound.holds_head hnew),
      fun hmetadata => hillegible (hmetadata _ hfound), .metadata⟩

/-- What passes the check and gets a parent satisfies all rules. -/
theorem Sound.holds_of_parentFor (sound : s.Sound r)
    (hcheck : request.check content = .ok ()) (h : r.parentFor request = .ok parent?)
    (rule : CommitRule) : rule.Holds s content request := by
  have hfirst := holds_of_check (s := s) hcheck
  obtain ⟨hasked, hnew, hplace⟩ := Records.parentFor_eq_ok_iff.mp h
  have hparent : ∀ rule ∈ [CommitRule.parentKnown, .parentRead, .parentPlan],
      rule.Holds s content request :=
    sound.holds_of_checkParent (Records.checkParent_eq_ok_iff.mpr hasked)
  cases rule with
  | building => exact hfirst _ (by simp)
  | floor => exact hfirst _ (by simp)
  | branchName => exact hfirst _ (by simp)
  | document => exact hfirst _ (by simp)
  | parentKnown => exact hparent _ (by simp)
  | parentRead => exact hparent _ (by simp)
  | parentPlan => exact hparent _ (by simp)
  | head => exact sound.holds_head hnew
  | metadata =>
    exact fun branch hbranch => hplace (Option.isSome_of_eq_some (sound.branch?_eq hbranch))

end Store

/-! ### What a commit makes -/

/-- The parent that is not refused is the one that is asked for, or else the head. -/
theorem Tables.newParent?_eq {name : String} {branch? : Option Branch}
    {asked? parent? : Option String} (h : newParent? name branch? asked? = .ok parent?) :
    parent? = asked?.or (branch?.map fun branch => branch.head) := by
  cases asked? with
  | none => cases branch? <;> exact (Except.ok.inj h).symm
  | some asked =>
    cases branch? with
    | none => exact (Except.ok.inj h).symm
    | some branch =>
      rw [newParent?] at h
      split at h
      · exact (Except.ok.inj h).symm
      · cases h

namespace Records

variable {r : Records}

theorem branch?_setHead {name : String} {plan : PlanId} (other : String) (otherPlan : PlanId)
    (head : String) (status : BranchStatus) (now : Timestamp) :
    (r.setHead other otherPlan head status now).branch? name plan
      = if name = other ∧ plan = otherPlan then
          (r.branch? name plan).map fun branch => { branch with head, status, updatedAt := now }
        else r.branch? name plan := by
  refine branch?_changeBranch_ite ?_ other otherPlan
  exact fun _ => ⟨rfl, rfl⟩

/-- A version that is put at the end heads its branch, which is active. -/
theorem exists_branch?_record (version : Version) (now : Timestamp) :
    ∃ branch, (r.record version now).branch? version.branch version.plan = some branch
      ∧ branch.status = .active ∧ branch.head = version.id := by
  rw [record]
  cases hbranch : r.branch? version.branch version.plan with
  | some branch =>
    have hset : ((r.addVersion version).setHead version.branch version.plan version.id .active
          now).branch? version.branch version.plan
        = if version.branch = version.branch ∧ version.plan = version.plan then
            (r.branch? version.branch version.plan).map fun branch =>
              { branch with head := version.id, status := .active, updatedAt := now }
          else r.branch? version.branch version.plan :=
      branch?_setHead _ _ _ _ _
    rw [if_pos ⟨rfl, rfl⟩, hbranch] at hset
    exact ⟨_, hset, rfl, rfl⟩
  | none =>
    refine ⟨firstBranch version, ?_, rfl, rfl⟩
    have hfirst : (r.addVersion version).branch? (firstBranch version).name
        (firstBranch version).plan = none := hbranch
    exact (branch?_addBranch hfirst).trans (if_pos ⟨rfl, rfl⟩)

theorem storable_record (storable : r.Storable) {version : Version} {now : Timestamp}
    (h : version.Storable)
    (branches : BranchesSound (r.record version now).versions (r.record version now).branches) :
    (r.record version now).Storable where
  versions := by
    rw [versions_record]
    exact forall_mem_concat storable.versions h
  branches := branches.storable
  merges := by
    rw [merges_record]
    exact storable.merges
  conflicts := by
    rw [conflicts_record]
    exact storable.conflicts

end Records

namespace Store

variable {s : Store} {r : Records} {stamp : Stamp} {request : NewVersion} {content : Json}
  {failure : Failure} {receipt : Receipt}

open CommitRule (FirstBroken)

/-- What a commit leaves of its request: a new version on top of the parent that is asked for,
or else of the head, or of none, and its branch, active and headed by it.  The version is read
exactly if its metadata are legible. -/
structure Made (s after : Store) (request : NewVersion) (receipt : Receipt) : Prop where
  new : s.tables.hasVersion receipt.version = false
  version : ∃ row, after.tables.versionRow? receipt.version = some row
    ∧ row.plan = request.plan ∧ row.branch = request.branch
    ∧ row.parent? = request.parent?.or
      ((s.tables.branch request.branch request.plan).toOption.map fun branch => branch.head)
  read : after.tables.Reads receipt.version ↔ Legible request.metadata
  branch : ∃ branch, after.tables.branch request.branch request.plan = .ok branch
    ∧ branch.status = .active ∧ branch.head = receipt.version

theorem Sound.toOption_branch (sound : s.Sound r) (name : String) (plan : PlanId) :
    (s.tables.branch name plan).toOption = r.branch? name plan := by
  rw [sound.tables, Records.branch_tables sound.storable]
  cases r.branch? name plan <;> rfl

/-- A commit that is not refused leaves its version and its branch. -/
theorem Sound.made (sound : s.Sound r) (fresh : stamp.Fresh s)
    (metadata : (Json.object request.metadata).Ordered)
    {parent? : Option String} (hcheck : request.check content = .ok ())
    (hparent : r.parentFor request = .ok parent?) (blobs : Blobs) (number contentHash : String) :
    s.Made ⟨(r.record (r.newVersion request (stamp.prepared content) parent?) stamp.time).tables,
      blobs⟩ request ⟨stamp.id, number, contentHash⟩ := by
  have hstorable : (r.newVersion request (stamp.prepared content) parent?).Storable :=
    ⟨fresh.time, metadata⟩
  have hbranches := record_branches sound.branches hstorable
    (Records.owns_of_parentFor sound.branches hparent) (check_eq_ok hcheck).1 fresh.time
  have storable := Records.storable_record sound.storable hstorable hbranches
  have hversion := Records.version?_record (r.newVersion request (stamp.prepared content) parent?)
    (sound.version?_eq_none fresh) sound.versions.idsDiffer stamp.time
  obtain ⟨branch, hbranch, hstatus, hhead⟩ := r.exists_branch?_record
    (r.newVersion request (stamp.prepared content) parent?) stamp.time
  refine ⟨fresh.version, ?_, ?_, ?_⟩
  · refine ⟨VersionRow.store (r.newVersion request (stamp.prepared content) parent?), ?_, rfl, rfl,
      ?_⟩
    · rw [Records.versionRow?_tables]
      exact hversion ▸ rfl
    · rw [sound.toOption_branch]
      exact Tables.newParent?_eq (Records.parentFor_eq_ok_iff.mp hparent).2.1
  · rw [Records.reads_tables storable]
    constructor
    · rintro ⟨found, hfound, hlegible⟩
      obtain rfl := Option.some_inj.mp (hversion.symm.trans hfound)
      exact hlegible
    · exact fun hlegible => ⟨_, hversion, hlegible⟩
  · refine ⟨branch, ?_, hstatus, hhead⟩
    rw [Records.branch_tables storable]
    exact hbranch ▸ rfl

/-- What the answer to a commit must be: a receipt exactly if its request satisfies all rules,
or else what is told of the first rule that is broken.  This is no failure of storage unless a
rule of storage is broken. -/
structure AnswersCommit (s : Store) (content : Json) (request : NewVersion)
    (result : Except Failure Receipt × Store) : Prop where
  succeeds_iff : (∃ receipt, result.1 = .ok receipt)
    ↔ ∀ rule : CommitRule, rule.Holds s content request
  refused : ∀ failure, result.1 = .error failure → FirstBroken s content request failure
  storage : (∀ rule : CommitRule, rule.isOfStorage = true → rule.Holds s content request) →
    ∀ failure, result.1 = .error failure → failure.isStorage = false
  made : ∀ receipt, result.1 = .ok receipt → s.Made result.2 request receipt

/-- What is told of the first broken rule answers a commit. -/
theorem answersCommit_of_firstBroken (h : FirstBroken s content request failure) (after : Store) :
    s.AnswersCommit content request (.error failure, after) where
  succeeds_iff := by
    constructor
    · rintro ⟨receipt, ⟨⟩⟩
    · intro hall
      obtain ⟨_, rule, _, -, -, hbroken, -⟩ := h
      exact absurd (hall rule) hbroken
  refused other hother := by
    obtain rfl := Except.error.inj hother
    exact h
  storage hstorage other hother := by
    obtain rfl := Except.error.inj hother
    exact h.isStorage hstorage
  made := by
    rintro receipt ⟨⟩

theorem Sound.answersCommit (sound : s.Sound r) (fresh : stamp.Fresh s) (content : Json)
    (metadata : (Json.object request.metadata).Ordered) :
    s.AnswersCommit content request (s.commit stamp content request) := by
  rw [commit_eq sound fresh content metadata]
  -- A commit is refused by the check, or for its parent, or not at all.
  cases hcheck : request.check content with
  | error failure => exact answersCommit_of_firstBroken (firstBroken_of_check hcheck) s
  | ok =>
    cases hparent : r.parentFor request with
    | error failure =>
      exact answersCommit_of_firstBroken
        (sound.firstBroken_of_refuses hcheck (Records.refuses_of_parentFor hparent)) s
    | ok parent? =>
      refine ⟨⟨fun _ => sound.holds_of_parentFor hcheck hparent, fun _ => ⟨_, rfl⟩⟩, ?_, ?_, ?_⟩
      · rintro failure ⟨⟩
      · rintro - failure ⟨⟩
      · intro receipt hreceipt
        obtain rfl := Except.ok.inj hreceipt
        exact sound.made fresh metadata hcheck hparent _ _ _

end Store

namespace Repository

variable {repository : Repository} {stamp : Stamp} {request : NewVersion}

/-- **A version is made exactly if nothing speaks against it.**  A commit of any document
succeeds exactly if its request satisfies all rules, and a refusal tells of the first rule that
is broken.  It is a failure of storage only if the row of the parent is not read, or the metadata
nest deeper than the reader goes and the branch is there.  The version that is made heads its
branch, which is active, and its parent is the one that was asked for, or else the head before
it. -/
theorem Reachable.commit_answer (h : Reachable repository) (fresh : stamp.Fresh repository.store)
    (content : Json) (metadata : (Json.object request.metadata).Ordered) :
    repository.store.AnswersCommit content request
      (repository.store.commit stamp content request) := by
  obtain ⟨r, sound⟩ := h.sound
  exact sound.answersCommit fresh content metadata

/-- A version on top of another. -/
def onTopOf (parent branch : String) : NewVersion :=
  ⟨hallPlan, branch, "hall", "clerk", some parent, .minor, []⟩

/-- A version on top of the head is made, and one on top of another is refused with the head. -/
theorem commit_answer_hall :
    (∃ receipt, (((empty .standard).play hallSteps).store.Made
        (((empty .standard).play hallSteps).store.commit (.named "next")
          (Merge.hallFloor Merge.largeSize) (onTopOf "first" "main")).2
        (onTopOf "first" "main") receipt))
      ∧ CommitRule.FirstBroken ((empty .standard).play resizeSteps).store
        (Merge.hallFloor Merge.greatSize) (onTopOf "first" "draft")
        (.headMoved "draft" "first" "other") := by
  have hruns : ((empty .standard).admits hallSteps = true
        ∧ Stamp.isNew "next" ((empty .standard).play hallSteps).store = true
        ∧ (((empty .standard).play hallSteps).store.commit (.named "next")
          (Merge.hallFloor Merge.largeSize) (onTopOf "first" "main")).1.toOption.isSome = true)
      ∧ (empty .standard).admits resizeSteps = true
        ∧ Stamp.isNew "next" ((empty .standard).play resizeSteps).store = true
        ∧ (((empty .standard).play resizeSteps).store.commit (.named "next")
          (Merge.hallFloor Merge.greatSize) (onTopOf "first" "draft")).1.map (fun _ => ())
          = .error (.headMoved "draft" "first" "other") := by
    decide +kernel
  obtain ⟨⟨hhall, hnext, hsome⟩, hresize, hnext', herror⟩ := hruns
  have metadata : ∀ branch, (Json.object (onTopOf "first" branch).metadata).Ordered :=
    fun _ => ordered_noMetadata
  have hreachable := (Reachable.empty .standard).play hhall ordered_hallSteps
  have hresized := (Reachable.empty .standard).play hresize ordered_resizeSteps
  constructor
  · obtain ⟨receipt, hreceipt⟩ := Option.isSome_iff_exists.mp hsome
    have hanswer := hreachable.commit_answer (Stamp.fresh_named hnext)
      (Merge.hallFloor Merge.largeSize) (metadata "main")
    exact ⟨receipt, hanswer.made receipt (eq_ok_of_toOption hreceipt)⟩
  · have hanswer := hresized.commit_answer (Stamp.fresh_named hnext')
      (Merge.hallFloor Merge.greatSize) (metadata "draft")
    exact hanswer.refused _ (map_eq_error_iff.mp herror)

/-- A version with metadata that could not be read is not put on a branch that is there, though
all rules but those of storage hold. -/
theorem commit_marked :
    Reachable ((empty .standard).play hallSteps)
      ∧ (Stamp.named "next").Fresh ((empty .standard).play hallSteps).store
      ∧ (∀ rule : CommitRule, rule.isOfStorage = false →
        rule.Holds ((empty .standard).play hallSteps).store (Merge.hallFloor Merge.smallSize)
          (markedOn "main"))
      ∧ (((empty .standard).play hallSteps).store.commit (.named "next")
          (Merge.hallFloor Merge.smallSize) (markedOn "main")).1 = .error .illegible := by
  have hruns : (empty .standard).admits hallSteps = true
      ∧ Stamp.isNew "next" ((empty .standard).play hallSteps).store = true
      ∧ ((empty .standard).play hallSteps).headOf "main" = some "first"
      ∧ Document.validate (Merge.hallFloor Merge.smallSize) = .ok () := by
    decide +kernel
  obtain ⟨hnew, hnext, hhead, accepted⟩ := hruns
  have hreachable := (Reachable.empty .standard).play hnew ordered_hallSteps
  have hfresh := Stamp.fresh_named hnext
  have hothers : ∀ rule : CommitRule, rule.isOfStorage = false →
      rule.Holds ((empty .standard).play hallSteps).store (Merge.hallFloor Merge.smallSize)
        (markedOn "main") := by
    intro rule hrule
    cases rule with
    | building => exact (by decide : Text.isBlank "town" = false)
    | floor => exact (by decide : Text.isBlank "1" = false)
    | branchName => exact (by decide : Text.isBlank "main" = false)
    | document => exact accepted
    -- No parent is asked for.
    | parentKnown => rintro asked ⟨⟩
    | parentPlan => rintro asked ⟨⟩
    | head => rintro asked ⟨⟩
    | parentRead => cases hrule
    | metadata => cases hrule
  refine ⟨hreachable, hfresh, hothers, ?_⟩
  obtain ⟨r, sound⟩ := hreachable.sound
  have hanswer := sound.answersCommit hfresh (Merge.hallFloor Merge.smallSize)
    (show (Json.object (markedOn "main").metadata).Ordered from ordered_deepMetadata)
  cases hcommit : (((empty .standard).play hallSteps).store.commit (.named "next")
      (Merge.hallFloor Merge.smallSize) (markedOn "main")).1 with
  | ok receipt =>
    obtain ⟨branch, hbranch, -⟩ := exists_branch hhead
    have hmetadata := hanswer.succeeds_iff.mp ⟨receipt, hcommit⟩ .metadata
    exact absurd (hmetadata branch hbranch) illegible_deepMetadata
  | error failure => rw [(hanswer.refused failure hcommit).eq_illegible hothers]

end Repository

end PlanHistory
