/-
Floor plans are apart.

An operation that names something of a floor plan shows nothing of another plan and changes
nothing of it:

* **`Store.Sound.unseen`** — questions about the other plan are answered as before;
* **`Store.Sound.perform_congr`** — stores that differ in nothing but the other plan answer the
  operation the same, as long as what it names is there in both or in neither, and of the same
  plan, and a version that it names is read in both or in neither;
* **`Repository.Reachable.isolated`** — what follows for every repository that operations lead
  to.

One thing is told of another plan: that a branch is not where `updateHead` expects it, and where
it is.  The head that is expected may be of any plan.
-/
import PlanHistory.Proofs.Repository.Answers
import PlanHistory.Proofs.Repository.Frame

namespace PlanHistory

/-- Whether the id of a stamp is new to notes and comments, too. -/
structure Stamp.Unused (stamp : Stamp) (s : Store) : Prop where
  fresh : stamp.Fresh s
  note : s.tables.hasNote stamp.id = false
  comment : s.tables.comments.any (fun row => row.id == stamp.id) = false

/-- Whether two answers to an operation are the same, up to the head that is quoted where it does
not move a branch of a plan. -/
def SameButHead (plan : PlanId) (operation : Operation) (answer answer' : Except Failure Answer) :
    Prop :=
  answer = answer' ∨ ∃ name expected head found found',
    operation = .updateHead name plan expected head
      ∧ answer = .error (.headMoved name expected found)
      ∧ answer' = .error (.headMoved name expected found')

namespace Store

variable {s t : Store} {r r' : Records} {stamp : Stamp} {operation : Operation} {a b : PlanId}

/-! ### Changes -/

/-- An operation that names something of a plan leaves the records of other plans. -/
theorem Step.alike_of_concerns {policy : Policy} {answer : Except Failure Answer} {blobs : Blobs}
    (step : s.Step r policy stamp operation answer r' blobs) (sound : s.Sound r)
    (fresh : stamp.Fresh s) (attached : r.Attached) (concerns : r.tables.Concerns a operation.named)
    {keep : PlanId → Bool} (hkeep : keep a = false) : r.Alike keep r' := by
  rcases step.within sound fresh attached with rfl | ⟨plan, hnames, halike⟩
  · exact Records.Alike.refl _ _
  · obtain ⟨name, hmem, hname⟩ := concerns
    obtain rfl : plan = a := Option.some_inj.mp ((hnames name hmem).symm.trans hname)
    exact halike keep hkeep

/-- After an operation that names something of one plan, what is asked about another is answered
as before. -/
theorem Sound.unseen {repository : Repository} (sound : repository.store.Sound r)
    (attached : r.Attached) (fresh : stamp.Fresh repository.store) (given : operation.Ordered)
    (hne : a ≠ b) (concerns : r.tables.Concerns a operation.named) {question : Operation}
    (asks : question.isQuestion = true)
    (names : ∀ name ∈ question.named, r.tables.planOf? name = some b) (asking : Stamp) :
    ((repository.perform stamp operation).2.perform asking question).1
      = (repository.perform asking question).1 := by
  obtain ⟨r', sound', step⟩ := sound.step fresh given
  have halike : r.Alike (fun plan => plan == b) r' :=
    step.alike_of_concerns sound fresh attached concerns (beq_eq_false_iff_ne.mpr hne)
  have hlater : (repository.perform stamp operation).2
      = ⟨repository.policy, (repository.perform stamp operation).2.store⟩ := by
    cases operation with
    | reopen policy =>
      -- Opening the store again names nothing.
      obtain ⟨name, hmem, -⟩ := concerns
      exact absurd hmem List.not_mem_nil
    | _ => rfl
  have hcontents (id : String) (h : r.tables.hasOf (fun plan => plan == b) (.version id) = true) :=
    step.read?_eq sound sound' fresh (Option.isSome_of_any h)
  have hanswer := halike.answer_eq hcontents sound sound' attached (step.attached sound attached)
    asks (fun name hmem => ?_) repository.policy asking
  · rw [hlater]
    exact hanswer.symm
  · have hplan := step.planOf?_of_alike sound' halike (names name hmem) (beq_self_eq_true b)
    exact ⟨Records.inside_of_planOf? (names name hmem) (beq_self_eq_true b),
      Records.inside_of_planOf? hplan (beq_self_eq_true b)⟩

/-! ### Answers -/

/-- Who names the other plan must bring a version of the one plan, which is refused. -/
theorem ne_or_foreign (hne : a ≠ b) {plan : PlanId} {id : String}
    (h : plan = a ∨ r.tables.planOf? (.version id) = some a) :
    (plan != b) = true ∨ r.tables.Foreign plan id := by
  by_cases hplan : plan = b
  · refine Or.inr ⟨a, h.resolve_left ?_, ?_⟩
    · rintro rfl
      exact hne hplan
    · rwa [hplan]
  · exact Or.inl (bne_iff_ne.mpr hplan)

/-- Versions of different plans have no base. -/
theorem Sound.mergeBase_of_ne (sound : s.Sound r) (hne : a ≠ b) {x y : String}
    (hx : r.tables.planOf? (.version x) = some a) (hy : r.tables.planOf? (.version y) = some b) :
    r.tables.mergeBase x y = .ok none := by
  have hx := Records.owns_of_planOf? hx
  have hy := Records.owns_of_planOf? hy
  rcases Records.mergeBase_cases sound.versions hx hy with ⟨base, -, lowest⟩ | ⟨hnone, -⟩
  · exact absurd
      (Records.plan_eq_of_common sound.versions hx hy lowest.left lowest.right) hne
  · exact hnone

section Congr

variable (sound : s.Sound r) (sound' : t.Sound r') (attached : r.Attached)
  (attached' : r'.Attached) (alike : r.Alike (fun plan => plan != b) r')
  (contents : ∀ id, r.tables.hasOf (fun plan => plan != b) (.version id) = true →
    Blobs.read? id s.blobs = Blobs.read? id t.blobs) (hne : a ≠ b)

include sound sound' attached attached' alike contents hne

/-- Questions that name something of one plan are answered whatever another plan has, unless they
compare the contents of two versions of the two. -/
theorem Sound.answer_congr {question : Operation} (asks : question.isQuestion = true)
    (concerns : r.tables.Concerns a question.named)
    (plans : ∀ name ∈ question.named, r.tables.planOf? name = r'.tables.planOf? name)
    (compares : ∀ x y, question = .divergences x y → ¬ r.tables.Concerns b question.named)
    (policy : Policy) :
    (Repository.perform stamp question ⟨policy, s⟩).1
      = (Repository.perform stamp question ⟨policy, t⟩).1 := by
  by_cases hother : r.tables.Concerns b question.named
  · obtain ⟨name, hmem, hname⟩ := concerns
    obtain ⟨name', hmem', hname'⟩ := hother
    have hdiffer : name ≠ name' := by
      rintro rfl
      exact hne (Option.some_inj.mp (hname.symm.trans hname'))
    -- Only questions about two versions can name something of both plans.
    cases question with
    | mergeBase x y =>
      have hnone {x y : String} {a b : PlanId} (hne : a ≠ b)
          (hx : r.tables.planOf? (.version x) = some a)
          (hy : r.tables.planOf? (.version y) = some b)
          (hx' : r'.tables.planOf? (.version x) = some a)
          (hy' : r'.tables.planOf? (.version y) = some b) :
          s.tables.mergeBase x y = t.tables.mergeBase x y := by
        rw [sound.tables, sound'.tables, sound.mergeBase_of_ne hne hx hy,
          sound'.mergeBase_of_ne hne hx' hy']
      refine congrArg (Except.map Answer.base) ?_
      have hsame := (plans name hmem).symm.trans hname
      have hsame' := (plans name' hmem').symm.trans hname'
      rcases List.mem_pair.mp hmem with rfl | rfl <;> rcases List.mem_pair.mp hmem' with rfl | rfl
      · exact absurd rfl hdiffer
      · exact hnone hne hname hname' hsame hsame'
      · exact hnone hne.symm hname' hname hsame' hsame
      · exact absurd rfl hdiffer
    | divergences x y => exact absurd ⟨name', hmem', hname'⟩ (compares x y rfl)
    | reopen policy => exact absurd hmem List.not_mem_nil
    | commit | createBranch | updateHead | openMerge | addNote =>
      exact absurd asks Bool.false_ne_true
    | _ =>
      have hsame := (List.mem_singleton.mp hmem).trans (List.mem_singleton.mp hmem').symm
      exact absurd hsame hdiffer
  · refine alike.answer_eq contents sound sound' attached attached' asks (fun name hmem => ?_)
      policy stamp
    have hinside : r.Inside (fun plan => plan != b) name := by
      intro plan hplan
      rw [bne_iff_ne]
      rintro rfl
      exact hother ⟨name, hmem, hplan⟩
    refine ⟨hinside, ?_⟩
    rwa [Records.Inside, ← plans name hmem]

/-- Operations that look up something of one plan are answered whatever another plan has. -/
theorem Sound.perform_congr (given : operation.Ordered) (unused : stamp.Unused s)
    (unused' : stamp.Unused t) (concerns : r.tables.Concerns a operation.lookedUp)
    (plans : ∀ name ∈ operation.named, r.tables.planOf? name = r'.tables.planOf? name)
    (there : ∀ name ∈ operation.named, r.tables.has name = r'.tables.has name)
    (reads : ∀ id, .version id ∈ operation.named → (r.tables.Reads id ↔ r'.tables.Reads id))
    (compares : ∀ x y, operation = .divergences x y → ¬ r.tables.Concerns b operation.named)
    (policy : Policy) :
    (Repository.perform stamp operation ⟨policy, s⟩).1
      = (Repository.perform stamp operation ⟨policy, t⟩).1 := by
  have ha : (a != b) = true := bne_iff_ne.mpr hne
  have hinside {name : Named} (hmem : name ∈ operation.named)
      (hname : r.tables.planOf? name = some a) :
      r.Inside (fun plan => plan != b) name ∧ r'.Inside (fun plan => plan != b) name :=
    ⟨Records.inside_of_planOf? hname ha,
      Records.inside_of_planOf? ((plans name hmem).symm.trans hname) ha⟩
  have seen {id : String} (hmem : .version id ∈ operation.named) :
      r.tables.SeenAlike r'.tables id := ⟨plans _ hmem, reads id hmem⟩
  obtain ⟨name, hmem, hname⟩ := concerns
  cases operation with
  | commit content request =>
    refine congrArg (Except.map Answer.receipt) (alike.fst_commit_congr sound sound' unused.fresh
      unused'.fresh content given.2 (fun parent hparent => ?_) ?_)
    · exact seen (List.mem_cons_of_mem _
        (List.mem_map_of_mem (Option.mem_toList.mpr hparent)))
    · rcases List.mem_cons.mp hmem with rfl | hmem
      · exact Or.inl (Option.some_inj.mp hname ▸ ha)
      · obtain ⟨parent, hparent, rfl⟩ := List.mem_map.mp hmem
        exact (ne_or_foreign hne (Or.inr hname)).imp_right fun hforeign =>
          ⟨parent, Option.mem_toList.mp hparent, hforeign⟩
  | restore id branch author message? =>
    obtain rfl := List.mem_singleton.mp hmem
    obtain ⟨h, h'⟩ := hinside List.mem_cons_self hname
    exact congrArg (Except.map Answer.receipt) (alike.fst_restore_congr sound sound' contents
      unused.fresh unused'.fresh h h' branch author message?)
  | createBranch request =>
    refine congrArg (Except.map Answer.branch) (alike.fst_createBranch_congr sound sound'
      (seen (List.mem_cons_of_mem _ List.mem_cons_self)) (ne_or_foreign hne ?_))
    rcases List.mem_pair.mp hmem with rfl | rfl
    · exact Or.inl (Option.some_inj.mp hname)
    · exact Or.inr hname
  | updateHead branch plan expected head =>
    have hthere := there _ List.mem_cons_self
    rw [Records.has_branch, Records.has_branch] at hthere
    refine congrArg (Except.map fun _ => Answer.done) (alike.fst_updateHead_congr sound sound'
      branch expected hthere (seen (by simp [Operation.named])) (ne_or_foreign hne ?_))
    rcases List.mem_pair.mp hmem with rfl | rfl
    · exact Or.inl (Option.some_inj.mp hname)
    · exact Or.inr hname
  | openMerge request =>
    refine congrArg (Except.map Answer.opened) (alike.fst_openMerge_congr sound sound' contents
      unused.fresh unused'.fresh policy ?_)
    rcases List.mem_pair.mp hmem with rfl | rfl
    · exact Option.some_inj.mp hname ▸ ha
    · exact Option.some_inj.mp hname ▸ ha
  | resolve id resolution actor =>
    obtain rfl := List.mem_singleton.mp hmem
    obtain ⟨h, h'⟩ := hinside List.mem_cons_self hname
    exact congrArg (Except.map Answer.id)
      (alike.fst_resolve_congr sound sound' h h' resolution actor)
  | execute id actor =>
    obtain rfl := List.mem_singleton.mp hmem
    obtain ⟨h, h'⟩ := hinside List.mem_cons_self hname
    exact congrArg (Except.map Answer.outcome)
      (alike.fst_execute_congr sound sound' contents unused.fresh unused'.fresh h h' actor)
  | addNote request =>
    exact congrArg (Except.map Answer.id) (fst_addNote_congr sound sound' unused.note unused'.note
      (seen (List.mem_cons_of_mem _ List.mem_cons_self)))
  | addComment request =>
    refine congrArg (Except.map Answer.id) ?_
    have hnamed : request.parentKind.named request.parent
        ∈ Operation.named (.addComment request) := List.mem_cons_self
    rw [fst_addComment unused.comment, fst_addComment unused'.comment,
      requireParent_congr sound sound' (plans _ hnamed) fun hkind => ?_]
    rw [hkind] at hnamed
    exact reads _ hnamed
  | _ =>
    refine sound.answer_congr sound' attached attached' alike contents hne ?_ ?_ plans compares
      policy
    · rfl
    · exact ⟨name, hmem, hname⟩

end Congr

/-- A branch is not where an update expects it that expects a version of another plan, and that
it is elsewhere is all that the update is told. -/
theorem Sound.updateHead_of_expected (sound : s.Sound r) (sound' : t.Sound r')
    (alike : r.Alike (fun plan => plan != b) r') (hne : a ≠ b) {name expected head : String}
    {plan : PlanId} (there : r.tables.has (.branch name plan) = r'.tables.has (.branch name plan))
    (seen : r.tables.SeenAlike r'.tables head)
    (hexpected : r.tables.planOf? (.version expected) = some a)
    (hexpected' : r'.tables.planOf? (.version expected) = some a) (policy : Policy) :
    SameButHead b (.updateHead name plan expected head)
      (Repository.perform stamp (.updateHead name plan expected head) ⟨policy, s⟩).1
      (Repository.perform stamp (.updateHead name plan expected head) ⟨policy, t⟩).1 := by
  rw [Records.has_branch, Records.has_branch] at there
  by_cases hplan : plan = b
  case neg =>
    exact Or.inl (congrArg (Except.map fun _ => Answer.done) (alike.fst_updateHead_congr sound
      sound' name expected there seen (Or.inl (bne_iff_ne.mpr hplan))))
  subst hplan
  have helsewhere {s : Store} {r : Records} (sound : s.Sound r)
      (hexpected : r.tables.planOf? (.version expected) = some a) {branch : Branch}
      (hbranch : r.branch? name plan = some branch) : branch.head ≠ expected := by
    rintro rfl
    rw [sound.planOf?_of_owns (sound.branches.owns_head hbranch)] at hexpected
    exact hne (Option.some_inj.mp hexpected).symm
  show SameButHead plan _ ((s.updateHead stamp name plan expected head).1.map fun _ => Answer.done)
    ((t.updateHead stamp name plan expected head).1.map fun _ => Answer.done)
  rw [fst_updateHead sound, fst_updateHead sound']
  cases hbranch : r.branch? name plan with
  | none =>
    rw [(Option.isSome_eq_isSome.mp there).mp hbranch]
    exact Or.inl rfl
  | some branch =>
    rw [hbranch] at there
    obtain ⟨branch', hbranch'⟩ := Option.isSome_iff_exists.mp there.symm
    have hsame : r'.tables.ownVersion .newHead head plan
        = r.tables.ownVersion .newHead head plan := by
      rw [Tables.ownVersion, Tables.ownVersion, seen.ownerOf_eq]
    rw [hbranch', hsame]
    dsimp only
    rw [if_neg (helsewhere sound hexpected hbranch), if_neg (helsewhere sound' hexpected' hbranch')]
    cases r.tables.ownVersion .newHead head plan with
    | error failure => exact Or.inl rfl
    | ok => exact Or.inr ⟨name, expected, head, branch.head, branch'.head, rfl, rfl, rfl⟩

end Store

/-! ### Repositories -/

namespace Repository

variable {repository : Repository} {stamp : Stamp} {operation : Operation} {a b : PlanId}

/-- Whether two repositories differ in nothing but what a plan has, and what is named is there in
both or in neither, and of the same plan, and a version that is named is read in both or in
neither. -/
structure AlikeBut (plan : PlanId) (names : List Named) (repository other : Repository) :
    Prop where
  policy : repository.policy = other.policy
  store : repository.store.Alike (fun owner => owner != plan) other.store
  plans : ∀ name ∈ names,
    repository.store.tables.planOf? name = other.store.tables.planOf? name
  there : ∀ name ∈ names, repository.store.tables.has name = other.store.tables.has name
  reads : ∀ id, .version id ∈ names →
    (repository.store.tables.Reads id ↔ other.store.tables.Reads id)

/-- An operation that names something of a plan leaves what other plans have. -/
theorem Reachable.alike (h : Reachable repository) (fresh : stamp.Fresh repository.store)
    (given : operation.Ordered) (concerns : repository.store.tables.Concerns a operation.named)
    {keep : PlanId → Bool} (hkeep : keep a = false) :
    repository.store.Alike keep (repository.perform stamp operation).2.store := by
  obtain ⟨r, sound, attached⟩ := h.attached
  obtain ⟨r', sound', step⟩ := sound.step fresh given
  rw [sound.tables] at concerns
  have halike := step.alike_of_concerns sound fresh attached concerns hkeep
  exact halike.stores sound sound' fun id hhas =>
    step.read?_eq sound sound' fresh (Option.isSome_of_any hhas)

/-- **Floor plans are apart.**  After an operation that names something of one plan, all that can
be asked about another plan is answered as before.  The operation itself is answered the same
whatever the other plan has, as long as what it names is there in both or in neither and of the
same plan, and a version that it names is read in both or in neither; a comparison of versions of
both plans aside, and aside the head that `updateHead` quotes where it names of the one plan only
the head that it expects of a branch of the other. -/
theorem Reachable.isolated (h : Reachable repository) (hne : a ≠ b)
    (fresh : stamp.Fresh repository.store) (given : operation.Ordered)
    (concerns : repository.store.tables.Concerns a operation.named) :
    (∀ (question : Operation) (asking : Stamp), question.isQuestion = true →
        (∀ name ∈ question.named, repository.store.tables.planOf? name = some b) →
        ((repository.perform stamp operation).2.perform asking question).1
          = (repository.perform asking question).1)
      ∧ ∀ other : Repository, Reachable other → AlikeBut b operation.named repository other →
        stamp.Unused repository.store → stamp.Unused other.store →
        (∀ x y, operation = .divergences x y →
          ¬ repository.store.tables.Concerns b operation.named) →
        SameButHead b operation (repository.perform stamp operation).1
            (other.perform stamp operation).1
          ∧ (repository.store.tables.Concerns a operation.lookedUp →
            (repository.perform stamp operation).1 = (other.perform stamp operation).1) := by
  obtain ⟨r, sound, attached⟩ := h.attached
  rw [sound.tables] at concerns ⊢
  refine ⟨fun question asking asks names =>
    sound.unseen attached fresh given hne concerns asks names asking, ?_⟩
  intro other hother hsame unused unused' compares
  obtain ⟨r', sound', attached'⟩ := hother.attached
  obtain ⟨hpolicy, hstore, plans, there, reads⟩ := hsame
  have hothers : other = ⟨repository.policy, other.store⟩ := by rw [hpolicy]
  have hcontents := hstore.contents
  rw [sound.tables] at plans there reads hcontents
  rw [sound'.tables] at plans there reads
  have hanswer (hlooked : r.tables.Concerns a operation.lookedUp) :
      (repository.perform stamp operation).1 = (other.perform stamp operation).1 := by
    have hcongr := sound.perform_congr sound' attached attached' (hstore.records sound sound')
      hcontents hne given unused unused' hlooked plans there reads compares repository.policy
    rw [hothers]
    exact hcongr
  refine ⟨?_, hanswer⟩
  by_cases hlooked : r.tables.Concerns a operation.lookedUp
  · exact Or.inl (hanswer hlooked)
  · cases operation with
    | updateHead name plan expected head =>
      obtain ⟨named, hmem, hnamed⟩ := concerns
      have hexpected : named = .version expected := by
        by_contra hne
        refine hlooked ⟨named, ?_, hnamed⟩
        simpa [Operation.named, Operation.lookedUp, hne] using hmem
      subst hexpected
      rw [hothers]
      exact sound.updateHead_of_expected sound' (hstore.records sound sound') hne
        (there _ List.mem_cons_self)
        ⟨plans _ (by simp [Operation.named]), reads _ (by simp [Operation.named])⟩ hnamed
        ((plans _ hmem).symm.trans hnamed) repository.policy
    | _ => exact absurd concerns hlooked

/-- Another floor of the house with the hall. -/
def annexPlan : PlanId := ⟨"town", "2"⟩

/-- The hall is drawn on the other floor. -/
def drawAnnex (size : WideInt) : Operation :=
  .commit (Merge.hallFloor size) ⟨annexPlan, "main", "annex", "clerk", none, .minor, []⟩

theorem ordered_drawAnnex (size : WideInt) : (drawAnnex size).Ordered :=
  ordered_drawHall "main" size

/-- Both floors have a hall. -/
def floors : Repository :=
  (empty .standard).play (hallSteps ++ [("annex", drawAnnex Merge.smallSize)])

/-- The hall of the other floor is drawn again. -/
def redrawn : Repository :=
  (floors.perform (.named "again") (drawAnnex Merge.largeSize)).2

theorem reachable_floors : Reachable floors := by
  have hnew : (empty .standard).admits (hallSteps ++ [("annex", drawAnnex Merge.smallSize)])
      = true := by
    decide +kernel
  exact (Reachable.empty .standard).play hnew (List.forall_mem_append.mpr
    ⟨ordered_hallSteps, List.forall_mem_singleton.mpr (ordered_drawAnnex _)⟩)

theorem fresh_again : (Stamp.named "again").Fresh floors.store :=
  Stamp.fresh_named (by decide +kernel)

theorem reachable_redrawn : Reachable redrawn :=
  reachable_floors.perform _ _ fresh_again (ordered_drawAnnex _)

/-- The floors and the redrawn floors differ in the other floor only. -/
theorem alike_redrawn : floors.store.Alike (fun owner => owner != annexPlan) redrawn.store :=
  reachable_floors.alike fresh_again (ordered_drawAnnex _)
    ⟨.branch "main" annexPlan, List.mem_cons_self, rfl⟩ (by decide)

theorem unused_named {name : String} {s : Store} (hnew : Stamp.isNew name s = true)
    (hnote : s.tables.hasNote name = false)
    (hcomment : s.tables.comments.any (fun row => row.id == name) = false) :
    (Stamp.named name).Unused s :=
  ⟨Stamp.fresh_named hnew, hnote, hcomment⟩

/-- Drawing the hall again is answered the same whatever the other floor has, and what is told of
that stays. -/
theorem isolated_floors :
    Reachable floors ∧ Reachable redrawn ∧ hallPlan ≠ annexPlan
      ∧ ((floors.perform (.named "next") (drawHall "main" Merge.largeSize)).2.perform
          (.named "ask") (.history annexPlan none)).1
        = (floors.perform (.named "ask") (.history annexPlan none)).1
      ∧ (floors.perform (.named "next") (drawHall "main" Merge.largeSize)).1
        = (redrawn.perform (.named "next") (drawHall "main" Merge.largeSize)).1 := by
  have hruns : Stamp.isNew "next" floors.store = true ∧ Stamp.isNew "next" redrawn.store = true
      ∧ floors.store.tables.hasNote "next" = false ∧ redrawn.store.tables.hasNote "next" = false
      ∧ floors.store.tables.comments.any (fun row => row.id == "next") = false
      ∧ redrawn.store.tables.comments.any (fun row => row.id == "next") = false
      ∧ floors.store.tables.has (.branch "main" hallPlan)
        = redrawn.store.tables.has (.branch "main" hallPlan) := by
    decide +kernel
  obtain ⟨hnew, hnew', hnote, hnote', hcomment, hcomment', hthere⟩ := hruns
  have hne : hallPlan ≠ annexPlan := by decide
  have hconcerns : floors.store.tables.Concerns hallPlan
      (drawHall "main" Merge.largeSize).named :=
    ⟨.branch "main" hallPlan, List.mem_cons_self, rfl⟩
  obtain ⟨hunseen, hanswer⟩ := reachable_floors.isolated hne (Stamp.fresh_named hnew)
    (ordered_drawHall "main" Merge.largeSize) hconcerns
  have hsame : AlikeBut annexPlan (drawHall "main" Merge.largeSize).named floors redrawn :=
    { policy := rfl
      store := alike_redrawn
      plans := List.forall_mem_singleton.mpr rfl
      there := List.forall_mem_singleton.mpr hthere
      reads := fun id hmem => nomatch List.mem_singleton.mp hmem }
  obtain ⟨-, hequal⟩ := hanswer redrawn reachable_redrawn hsame (unused_named hnew hnote hcomment)
    (unused_named hnew' hnote' hcomment') (fun x y h => by cases h)
  exact ⟨reachable_floors, reachable_redrawn, hne,
    hunseen (.history annexPlan none) _ rfl (List.forall_mem_singleton.mpr rfl),
    hequal hconcerns⟩

/-- Why an operation is refused, if it is. -/
def refusal? : Except Failure Answer → Option Failure
  | .error failure => some failure
  | .ok _ => none

theorem eq_error_of_refusal? {answer : Except Failure Answer} {failure : Failure}
    (h : refusal? answer = some failure) : answer = .error failure := by
  cases answer with
  | error found => exact congrArg Except.error (Option.some_inj.mp h)
  | ok found => cases h

/-- An update of a branch of the other floor that expects the version of the first. -/
def expectFirst : Operation := .updateHead "main" annexPlan "first" "annex"

/-- The two answers differ in the head of the branch, which an update that expects a version of the
one floor is told of the other. -/
theorem quoted_head_redrawn :
    Reachable floors ∧ Reachable redrawn ∧ hallPlan ≠ annexPlan
      ∧ floors.store.tables.Concerns hallPlan expectFirst.named
      ∧ AlikeBut annexPlan expectFirst.named floors redrawn
      ∧ (Stamp.named "move").Unused floors.store ∧ (Stamp.named "move").Unused redrawn.store
      ∧ (floors.perform (.named "move") expectFirst).1
        = .error (.headMoved "main" "first" "annex")
      ∧ (redrawn.perform (.named "move") expectFirst).1
        = .error (.headMoved "main" "first" "again")
      ∧ (floors.perform (.named "move") expectFirst).1
        ≠ (redrawn.perform (.named "move") expectFirst).1 := by
  have hruns : Stamp.isNew "move" floors.store = true ∧ Stamp.isNew "move" redrawn.store = true
      ∧ floors.store.tables.hasNote "move" = false ∧ redrawn.store.tables.hasNote "move" = false
      ∧ floors.store.tables.comments.any (fun row => row.id == "move") = false
      ∧ redrawn.store.tables.comments.any (fun row => row.id == "move") = false
      ∧ floors.store.tables.planOf? (.version "first") = some hallPlan
      ∧ redrawn.store.tables.planOf? (.version "first") = some hallPlan
      ∧ floors.store.tables.planOf? (.version "annex") = some annexPlan
      ∧ redrawn.store.tables.planOf? (.version "annex") = some annexPlan
      ∧ floors.store.tables.has (.branch "main" annexPlan)
        = redrawn.store.tables.has (.branch "main" annexPlan)
      ∧ (floors.store.tables.Reads "first" ∧ redrawn.store.tables.Reads "first")
      ∧ (floors.store.tables.Reads "annex" ∧ redrawn.store.tables.Reads "annex")
      ∧ refusal? (floors.perform (.named "move") expectFirst).1
        = some (.headMoved "main" "first" "annex")
      ∧ refusal? (redrawn.perform (.named "move") expectFirst).1
        = some (.headMoved "main" "first" "again") := by
    decide +kernel
  obtain ⟨hnew, hnew', hnote, hnote', hcomment, hcomment', hfirst, hfirst', hannex, hannex', hthere,
    hreads, hreads', hrefused, hrefused'⟩ := hruns
  refine ⟨reachable_floors, reachable_redrawn, by decide,
    ⟨.version "first", List.mem_cons_of_mem _ List.mem_cons_self, hfirst⟩,
    { policy := rfl, store := alike_redrawn, plans := ?_, there := ?_, reads := ?_ },
    unused_named hnew hnote hcomment, unused_named hnew' hnote' hcomment',
    eq_error_of_refusal? hrefused, eq_error_of_refusal? hrefused', ?_⟩
  case refine_4 =>
    rw [eq_error_of_refusal? hrefused, eq_error_of_refusal? hrefused']
    simp
  · exact List.forall_mem_cons.mpr ⟨rfl, List.forall_mem_cons.mpr ⟨hfirst.trans hfirst'.symm,
      List.forall_mem_singleton.mpr (hannex.trans hannex'.symm)⟩⟩
  · have hhas {s t : Store} {id : String}
        (h : s.tables.planOf? (.version id) = t.tables.planOf? (.version id)) :
        s.tables.has (.version id) = t.tables.has (.version id) := congrArg Option.isSome h
    exact List.forall_mem_cons.mpr ⟨hthere, List.forall_mem_cons.mpr
      ⟨hhas (hfirst.trans hfirst'.symm), List.forall_mem_singleton.mpr
        (hhas (hannex.trans hannex'.symm))⟩⟩
  · intro id hmem
    rcases List.mem_pair.mp ((List.mem_cons.mp hmem).resolve_left nofun) with hid | hid
    · obtain rfl := Named.version.inj hid
      exact iff_of_true hreads.1 hreads.2
    · obtain rfl := Named.version.inj hid
      exact iff_of_true hreads'.1 hreads'.2

end Repository

end PlanHistory
