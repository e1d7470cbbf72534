/-
Executing a merge that takes the source.

A request whose merge takes the source (`Merge.ForSource`) moves the target branch to the
version that it recorded of the source, as the fast-forward strategy does, if the merged document
has the source's canonical form.  It need not have it, and then the target stays, or a version is
made (**`Repository.source_taken_in_other_letters`**).  Where the row of the version that the head
goes to, or that the new version is put on, is not read, executing it fails.

* **`Store.attemptMerge_under_fastForward`** — when the two strategies do the same;
* **`Store.Sound.takesSource`** — what executing such a request comes to;
* **`Repository.source_taken`** — what such merges give, and what executing them comes to.
-/
import PlanHistory.Proofs.Conflict.SourceTaken
import PlanHistory.Proofs.Repository.Mergeable
import PlanHistory.Proofs.Repository.Repeated

namespace PlanHistory

/-- A request with its conflicts, as if it were under another strategy. -/
def MergeDetails.under (strategy : Strategy) (details : MergeDetails) : MergeDetails :=
  ⟨⟨{ details.request with strategy := label strategy }, details.summary.conflictIds⟩,
    details.conflicts⟩

namespace Store

variable {s after : Store} {r : Records} {stamp : Stamp} {details : MergeDetails}
  {id actor : String} {outcome : MergeOutcome}

/-- A request that is executed is attempted. -/
theorem attemptMerge_of_execute (hdetails : s.tables.mergeDetails id = .ok details)
    (h : s.execute stamp id actor = (.ok outcome, after)) :
    s.attemptMerge stamp details actor = (.ok outcome, after) := by
  rw [execute, hdetails] at h
  dsimp only at h
  split at h
  next => simp at h
  next =>
    split at h
    next hattempt => rw [hattempt, h]
    next => split at h <;> simp at h

/-- If the target goes to the source's head, then the fast-forward strategy does the same. -/
theorem attemptMerge_under_fastForward {branch : Branch}
    (hbranch : s.tables.branch details.request.sourceBranch details.request.plan = .ok branch)
    (hhead : branch.head = details.request.source)
    (hplan : s.planMerge stamp details actor
      = .ok (.moveHead details.request.source, s.blobs)) :
    s.attemptMerge stamp (details.under .fastForward) actor
      = s.attemptMerge stamp details actor := by
  have hforward : s.planMerge stamp (details.under .fastForward) actor
      = .ok (.moveHead branch.head, s.blobs) := planMerge_of_fastForward rfl hbranch
  rw [attemptMerge, attemptMerge, hforward, hplan, hhead]
  rfl

/-- What executing a request by the materialize strategy comes to if it takes the source. -/
structure TakesSource (before after : Store) (stamp : Stamp) (details : MergeDetails)
    (actor : String) (answer : Except Failure MergeOutcome) (base? : Option Json)
    (source target merged : Json) : Prop where
  given : Merge.GivesSource base? source target merged
  answered : answer = .ok (contentOutcome details.request stamp.id source target merged)
  left : Merged before after details.request merged
    (contentOutcome details.request stamp.id source target merged)
  /-- If the document is the source to the letter, then the target goes to its version, and no
  version is made. -/
  moved : Merge.Lists target source → Merge.SharesText base? source →
    answer = .ok ⟨details.request.id, details.request.source, false⟩
  /-- The fast-forward strategy does the same while the source branch is at this version. -/
  forwarded : Merge.Lists target source → Merge.SharesText base? source →
    ∀ branch, before.tables.branch details.request.sourceBranch details.request.plan = .ok branch →
      branch.head = details.request.source →
        before.attemptMerge stamp (details.under .fastForward) actor = (answer, after)

theorem Sound.takesSource (sound : s.Sound r) (fresh : stamp.Fresh s)
    (hdetails : s.tables.mergeDetails id = .ok details) (hmergeable : s.tables.Mergeable id)
    (hstrategy : details.request.strategy = label Strategy.materialize) (actor : String) :
    ∃ base? source target, s.content details.request.source = .ok source
      ∧ s.content details.request.target = .ok target
      ∧ baseContent details.request.base? s.blobs = .ok base?
      ∧ (Merge.ForSource base? target (details.conflicts.map Conflict.ruling) →
        (∀ read ∈ contentLooksAt? details.request source target
          (Merge.document base? source target (details.conflicts.map Conflict.ruling)),
          s.tables.Reads read) →
        TakesSource s (s.execute stamp id actor).2 stamp details actor
          (s.execute stamp id actor).1 base? source target
          (Merge.document base? source target (details.conflicts.map Conflict.ruling))) := by
  obtain ⟨request, hrequest, rfl⟩ := sound.of_mergeDetails hdetails
  obtain rfl := Records.id_of_merge? hrequest
  have hmem : request ∈ r.merges := List.mem_of_find?_eq_some hrequest
  obtain ⟨source, target, base?, hsource, htarget, hbase, hrulings, hmerged⟩ :=
    sound.mergedContent_since hmem
  refine ⟨base?, source, target, hsource, htarget, hbase, fun hfor hreads => ?_⟩
  obtain ⟨sourceValid, -⟩ :=
    sound.versions.holds_of_owns (sound.merges.sources request hmem) hsource
  obtain ⟨targetValid, -⟩ :=
    sound.versions.holds_of_owns (sound.merges.targets request hmem) htarget
  have hgiven := (hfor.takesSource hrulings sourceValid targetValid).givesSource sourceValid
  obtain ⟨details', branch, hdetails', hbranch, hopen, hsettled, hhead⟩ := hmergeable
  obtain rfl := Except.ok.inj (hdetails.symm.trans hdetails')
  have hmaterialize : request.strategy = label Strategy.materialize := hstrategy
  have hstays : request.strategy ≠ label Strategy.fastForward := by
    rw [hmaterialize]
    decide
  obtain ⟨after, hexecute, hleft⟩ := execute_of_materialize sound fresh hrequest hstays hopen
    ((Records.countUnresolved_tables request.id).trans hsettled)
    (sound.branch?_eq hbranch) hhead hmerged hreads actor
  rw [hexecute]
  have hmoves (hlists : Merge.Lists target source) (hshares : Merge.SharesText base? source) :
      Document.contentHash (Merge.document base? source target
        ((r.conflictsOf request.id).map Conflict.ruling)) = Document.contentHash source :=
    congrArg (fun text : String => Sha256.hex text.toUTF8) (hgiven.text.mpr ⟨hlists, hshares⟩)
  refine ⟨hgiven, rfl, hleft, fun hlists hshares => ?_,
    fun hlists hshares sourceBranch hsourceBranch hunmoved => ?_⟩
  · rw [contentOutcome, if_pos (hmoves hlists hshares)]
    rfl
  · have hplan := planMerge_of_materialize sound fresh
      ⟨r.summary request, r.conflictsOf request.id⟩ actor hstays hmerged hgiven.valid.accepted
    rw [if_pos (hmoves hlists hshares)] at hplan
    rw [attemptMerge_under_fastForward hsourceBranch hunmoved hplan]
    exact attemptMerge_of_execute hdetails hexecute

end Store

namespace Repository

open Merge (hallFloor smallSize largeSize)

/-- **Taking the source gives the source, but for two things.**  A merge without a base whose
labels all take the source's objects, and one whose target still is its base, give a document
that equals the source, but has an empty list of objects where only the target lists objects.
With a base it takes the base's values where these equal the source's, be they other zeros,
and nothing is in conflict.  Executed by the materialize strategy, the request moves the target
to the source's version if this leaves the source to the letter, and the fast-forward strategy
does just the same while the source branch is at this version; as long as the row is read of the
version that the head goes to or the new version is put on. -/
theorem source_taken :
    (∀ base? source target rulings, Document.Valid source → Document.Valid target →
        rulings.map Ruling.toDivergence = Divergence.since base? source target →
        Merge.ForSource base? target rulings →
          Merge.GivesSource base? source target (Merge.document base? source target rulings))
      ∧ (∀ base source, Divergence.threeWay base source base = [])
      ∧ ∀ (repository : Repository) (stamp : Stamp) (id actor : String) (details : MergeDetails),
        Reachable repository → stamp.Fresh repository.store →
        repository.store.tables.mergeDetails id = .ok details →
        repository.store.tables.Mergeable id →
        details.request.strategy = label Strategy.materialize →
          ∃ base? source target, repository.store.content details.request.source = .ok source
            ∧ repository.store.content details.request.target = .ok target
            ∧ baseContent details.request.base? repository.store.blobs = .ok base?
            ∧ (Merge.ForSource base? target (details.conflicts.map Conflict.ruling) →
              (∀ read ∈ Store.contentLooksAt? details.request source target
                (Merge.document base? source target (details.conflicts.map Conflict.ruling)),
                repository.store.tables.Reads read) →
              Store.TakesSource repository.store
                (repository.store.execute stamp id actor).2 stamp details actor
                (repository.store.execute stamp id actor).1 base? source target
                (Merge.document base? source target
                  (details.conflicts.map Conflict.ruling))) := by
  refine ⟨?_, Merge.threeWay_unchanged, ?_⟩
  · intro base? source target rulings hsource htarget hrulings hfor
    exact (hfor.takesSource hrulings hsource htarget).givesSource hsource
  · intro repository stamp id actor details hreachable fresh hdetails hmergeable hstrategy
    obtain ⟨r, sound⟩ := hreachable.sound
    exact sound.takesSource fresh hdetails hmergeable hstrategy actor

/-- The conflict of a request is settled for the source. -/
def takeSource : List (String × Operation) := [("settle", .resolve "open" "source_wins" "clerk")]

/-- Whether a request by the materialize strategy may be executed, for a source, a base and
labels. -/
structure OpenForSource (repository : Repository) (details : MergeDetails) (source : String)
    (base? : Option String) (labels : List (Option String)) : Prop where
  found : repository.store.tables.mergeDetails "open" = .ok details
  mergeable : repository.store.tables.Mergeable "open"
  id : details.request.id = "open"
  strategy : details.request.strategy = label Strategy.materialize
  source : details.request.source = source
  base : details.request.base? = base?
  labels : details.conflicts.map (fun conflict => conflict.resolution?) = labels

/-- What is said of a request. -/
def wordsOf (details : MergeDetails) :
    String × String × String × Option String × List (Option String) :=
  (details.request.id, details.request.strategy, details.request.source, details.request.base?,
    details.conflicts.map fun conflict => conflict.resolution?)

theorem exists_openForSource {repository : Repository} {source : String} {base? : Option String}
    {labels : List (Option String)}
    (hwords : (repository.store.tables.mergeDetails "open").toOption.map wordsOf
      = some ("open", label Strategy.materialize, source, base?, labels))
    (mergeable : repository.store.tables.Mergeable "open") :
    ∃ details, repository.OpenForSource details source base? labels := by
  obtain ⟨details, hdetails, hsame⟩ := Option.map_eq_some_iff.mp hwords
  simp only [wordsOf, Prod.mk.injEq] at hsame
  obtain ⟨hid, hstrategy, hsource, hbase, hlabels⟩ := hsame
  exact ⟨details, eq_ok_of_toOption hdetails, mergeable, hid, hstrategy, hsource, hbase, hlabels⟩

/-- A hall that only the source resized gets its size, and the target its version. -/
theorem source_taken_resized :
    Merge.GivesSource (some (hallFloor smallSize)) (hallFloor largeSize) (hallFloor smallSize)
        (Merge.document (some (hallFloor smallSize)) (hallFloor largeSize) (hallFloor smallSize) [])
      ∧ Reachable ((empty .standard).play (resizeSteps ++ takeSource))
      ∧ (((empty .standard).play (resizeSteps ++ takeSource)).store.execute (.named "run")
          "open" "clerk").1 = .ok ⟨"open", "other", false⟩ := by
  have valid (size : WideInt) : Document.Valid (hallFloor size) :=
    ⟨Merge.ordered_hallFloor size, rfl⟩
  have hruns : (empty .standard).admits
        (resizeSteps ++ takeSource ++ [("run", .execute "open" "clerk")]) = true
      ∧ (((empty .standard).play (resizeSteps ++ takeSource)).store.tables.mergeDetails
          "open").toOption.map wordsOf
        = some ("open", label Strategy.materialize, "other", none, [some "source_wins"])
      ∧ ((empty .standard).play (resizeSteps ++ takeSource)).store.tables.Mergeable "open"
      ∧ (((empty .standard).play (resizeSteps ++ takeSource)).store.content "other").toOption.map
        (fun floor => (floor.get? Document.objectsKey).isSome) = some true
      ∧ (((empty .standard).play (resizeSteps ++ takeSource)).store.tables.mergeDetails
        "open").toOption.map (fun details => details.request.target) = some "first"
      ∧ ((empty .standard).play (resizeSteps ++ takeSource)).store.tables.Reads "first"
      ∧ ((empty .standard).play (resizeSteps ++ takeSource)).store.tables.Reads "other" := by
    decide +kernel
  obtain ⟨hnew, hwords, hmergeable, hobjects, htarget, hfirst, hother⟩ := hruns
  rw [admits_append, Bool.and_eq_true] at hnew
  have hreachable : Reachable ((empty .standard).play (resizeSteps ++ takeSource)) :=
    (Reachable.empty .standard).play hnew.1
      (List.forall_mem_append.mpr ⟨ordered_resizeSteps, List.forall_mem_singleton.mpr trivial⟩)
  have hfresh : (Stamp.named "run").Fresh
      ((empty .standard).play (resizeSteps ++ takeSource)).store :=
    Stamp.fresh_named (Bool.and_eq_true_iff.mp hnew.2).1
  refine ⟨source_taken.1 _ _ _ [] (valid largeSize) (valid smallSize) rfl .unchanged,
    hreachable, ?_⟩
  obtain ⟨details, hopen⟩ := exists_openForSource hwords hmergeable
  obtain ⟨base?, source, target, hsource, -, hbase, htaken⟩ := source_taken.2.2 _ _ "open" "clerk"
    details hreachable hfresh hopen.found hopen.mergeable hopen.strategy
  rw [hopen.base] at hbase
  obtain rfl := Except.ok.inj hbase
  rw [hopen.source] at hsource
  rw [hsource] at hobjects
  rw [hopen.found] at htarget
  have htargetId : details.request.target = "first" := Option.some_inj.mp htarget
  have hfor : Merge.ForSource none target (details.conflicts.map Conflict.ruling) := by
    refine .labelled (List.forall_mem_map.mpr fun conflict hmem => ?_)
    have hlabel : conflict.resolution? ∈ [some "source_wins"] :=
      hopen.labels ▸ List.mem_map_of_mem hmem
    show conflict.resolution?.map Resolution.ofLabel = some .sourceWins
    rw [List.mem_singleton.mp hlabel]
    rfl
  have hreads : ∀ read ∈ Store.contentLooksAt? details.request source target
      (Merge.document none source target (details.conflicts.map Conflict.ruling)),
      ((empty .standard).play (resizeSteps ++ takeSource)).store.tables.Reads read := by
    intro read hread
    rcases Store.eq_of_mem_contentLooksAt? hread with rfl | rfl
    · rw [hopen.source]
      exact hother
    · rw [htargetId]
      exact hfirst
  have hmoved := (htaken hfor hreads).moved (fun _ => Option.some_inj.mp hobjects) .of_none
  rw [hopen.id, hopen.source] at hmoved
  exact hmoved

/-- A floor at level zero, of either sign. -/
def levelFloor (negative : Bool) : Json :=
  .object [("level", .number (.float (.zero negative)))]

theorem valid_levelFloor (negative : Bool) : Document.Valid (levelFloor negative) := by
  refine ⟨?_, rfl⟩
  simp [levelFloor, Keyed.Ascending, Json.Ordered, -String.lt_iff_ltb]

/-- The source has no hall, and stands. -/
def clearedRuling : Ruling :=
  ⟨⟨.objectDeleted, "hall", none, none, some (.object [("id", .string "hall"),
    ("size", .number (.whole smallSize))])⟩, some "source_wins"⟩

/-- A floor is drawn, redrawn on a draft, and the draft to be merged. -/
def redrawSteps (before after : Json) : List (String × Operation) :=
  [("first", .commit before ⟨hallPlan, "main", "floor", "clerk", none, .minor, []⟩),
    ("fork", .createBranch ⟨"draft", hallPlan, "first", "clerk", none⟩),
    ("other", .commit after ⟨hallPlan, "draft", "floor", "clerk", none, .minor, []⟩),
    ("open", .openMerge mergeDraft)]

theorem ordered_redrawSteps {before after : Json} (hbefore : before.Ordered)
    (hafter : after.Ordered) :
    ∀ step ∈ redrawSteps before after, step.2.Ordered := by
  exact List.forall_mem_cons.mpr ⟨⟨hbefore, ordered_noMetadata⟩, List.forall_mem_cons.mpr ⟨trivial,
    List.forall_mem_cons.mpr ⟨⟨hafter, ordered_noMetadata⟩, List.forall_mem_singleton.mpr trivial⟩⟩⟩

/-- Whether a request for the version that the draft is at is executed to another outcome than
to move the target there. -/
structure LeavesSource (repository : Repository) (base? : Option String)
    (labels : List (Option String)) (outcome : MergeOutcome) : Prop where
  reachable : Reachable repository
  opened : ∃ details, repository.OpenForSource details "other" base? labels
  answer : (repository.store.execute (.named "run") "open" "clerk").1 = .ok outcome

theorem leavesSource {policy : Policy} {steps : List (String × Operation)}
    {base? : Option String} {labels : List (Option String)} {outcome : MergeOutcome}
    (hread : ∀ step ∈ steps, step.2.Ordered)
    (hruns : (empty policy).admits steps = true
      ∧ (((empty policy).play steps).store.tables.mergeDetails "open").toOption.map wordsOf
        = some ("open", label Strategy.materialize, "other", base?, labels)
      ∧ ((empty policy).play steps).store.tables.Mergeable "open"
      ∧ (((empty policy).play steps).store.execute (.named "run") "open" "clerk").1.toOption
        = some outcome) : LeavesSource ((empty policy).play steps) base? labels outcome := by
  obtain ⟨hnew, hwords, hmergeable, hanswer⟩ := hruns
  exact ⟨(Reachable.empty policy).play hnew hread, exists_openForSource hwords hmergeable,
    eq_ok_of_toOption hanswer⟩

/-- A source that lists no objects comes to an empty list of them, in a version of its own, and
a source at the other zero leaves the target where it is. -/
theorem source_taken_in_other_letters :
    (Document.Valid (.object []) ∧ Document.Valid (hallFloor smallSize)
        ∧ [clearedRuling].map Ruling.toDivergence
          = Divergence.twoWay (.object []) (hallFloor smallSize)
        ∧ (∀ ruling ∈ [clearedRuling], ruling.resolution? = some .sourceWins)
        ∧ (Merge.document none (.object []) (hallFloor smallSize) [clearedRuling]).canonical
          ≠ (Json.object []).canonical)
      ∧ (Document.Valid (levelFloor false) ∧ Document.Valid (levelFloor true)
        ∧ Divergence.threeWay (levelFloor false) (levelFloor true) (levelFloor false) = []
        ∧ (Merge.document (some (levelFloor false)) (levelFloor true) (levelFloor false)
            []).canonical ≠ (levelFloor true).canonical)
      ∧ LeavesSource ((empty .standard).play
          (redrawSteps (hallFloor smallSize) (.object []) ++ takeSource)) none
          [some "source_wins"] ⟨"open", "run", true⟩
      ∧ LeavesSource ((empty threeWay).play (redrawSteps (levelFloor false) (levelFloor true)))
          (some "first") [] ⟨"open", "first", false⟩ := by
  have hbare : Document.Valid (.object []) := ⟨Json.ordered_object.mpr ⟨.nil, by simp⟩, rfl⟩
  have hhall : Document.Valid (hallFloor smallSize) := ⟨Merge.ordered_hallFloor _, rfl⟩
  refine ⟨⟨hbare, hhall, rfl, List.forall_mem_singleton.mpr rfl, by decide +kernel⟩,
    ⟨valid_levelFloor _, valid_levelFloor _, rfl, by decide +kernel⟩,
    leavesSource ?_ (by decide +kernel), leavesSource ?_ (by decide +kernel)⟩
  · exact List.forall_mem_append.mpr ⟨ordered_redrawSteps hhall.ordered hbare.ordered,
      List.forall_mem_singleton.mpr trivial⟩
  · exact ordered_redrawSteps (valid_levelFloor false).ordered (valid_levelFloor true).ordered

end Repository

end PlanHistory
