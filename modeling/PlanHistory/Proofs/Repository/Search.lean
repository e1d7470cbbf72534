/-
What the search among notes finds.

A search answers with the notes of a plan that hold the query in their title or their content,
letter case aside: newest first, each once, and as many as the policy allows.  The query and the
texts are brought to lowercase each on its own.  So a note is found by every part of its texts
whose capital sigmas keep their form there, but not by all others: a sigma that ends the query
takes the form of the end of a word, which it may not have in the text
(**`Repository.word_not_found`**).

* **`Repository.Reachable.search_answer`** — the answer to every search.
-/
import PlanHistory.Proofs.Repository.Notes
import PlanHistory.Proofs.Text.Lowercase

namespace PlanHistory

/-- Whether a note holds a query in its title or its content. -/
def Note.Mentions (note : Note) (query : String) : Prop :=
  Text.Holds note.title query ∨ Text.Holds note.content query

instance (note : Note) (query : String) : Decidable (note.Mentions query) := by
  unfold Note.Mentions
  infer_instance

theorem Store.search_eq {s : Store} {plan : PlanId} {listed : List Note}
    (h : s.tables.notesOf plan = .ok listed) (policy : Policy) (query : String) :
    s.search policy plan query
      = .ok ((listed.filter fun note => note.Mentions query).take (max 1 policy.searchLimit)) := by
  have hmatches : (fun note : Note =>
        Text.matchesQuery query note.title || Text.matchesQuery query note.content)
      = fun note => decide (note.Mentions query) := by
    funext note
    rw [Bool.eq_iff_iff, Bool.or_eq_true, Text.matchesQuery_iff, Text.matchesQuery_iff,
      decide_eq_true_eq, Note.Mentions]
  rw [search, h, ← hmatches]
  rfl

namespace Repository

variable {repository : Repository}

/-- **A search answers with the notes of the plan that hold the query, newest first and each
once, up to the limit.**  A note of the plan is found by every part of its title and of its
content in which the capital sigmas keep their form, so by every part without a capital sigma, as
long as the plan has no more notes than the limit. -/
theorem Reachable.search_answer (h : Reachable repository) (stamp : Stamp) (plan : PlanId)
    (query : String) :
    ∃ written hits : List Note,
      repository.store.tables.notes.filter (fun row => row.plan == plan) = written.map Note.row
        ∧ NewestFirst (written.filter fun note => note.Mentions query) hits
        ∧ (hits.map fun note => note.id).Nodup
        ∧ (repository.perform stamp (.search plan query)).1
          = .ok (.notes (hits.take (max 1 repository.policy.searchLimit)))
        ∧ (∀ note ∈ written, Text.IsPartOf query note.title ∨ Text.IsPartOf query note.content →
          written.length ≤ repository.policy.searchLimit →
            note ∈ hits.take (max 1 repository.policy.searchLimit))
        ∧ ('Σ' ∉ query.toList → ∀ note ∈ written,
          query.toList <:+: note.title.toList ∨ query.toList <:+: note.content.toList →
          written.length ≤ repository.policy.searchLimit →
            note ∈ hits.take (max 1 repository.policy.searchLimit)) := by
  obtain ⟨notes, hrows, storable, hids⟩ := h.notes
  obtain ⟨listed, hlisted, hnewest⟩ := Tables.exists_notesOf hrows storable plan
  have hhits := hnewest.filter fun note => note.Mentions query
  have hfound : ∀ note ∈ notes.filter fun note : Note => note.plan == plan,
      Text.IsPartOf query note.title ∨ Text.IsPartOf query note.content →
      (notes.filter fun note : Note => note.plan == plan).length ≤ repository.policy.searchLimit →
      note ∈ (listed.filter fun note => note.Mentions query).take
        (max 1 repository.policy.searchLimit) := by
    intro note hmem hpart hlimit
    have hmentions : note.Mentions query := hpart.imp Text.IsPartOf.holds Text.IsPartOf.holds
    have hfew : (listed.filter fun note => note.Mentions query).length
        ≤ max 1 repository.policy.searchLimit := by
      rw [hhits.perm.length_eq]
      exact (List.length_filter_le _ _).trans (hlimit.trans (Nat.le_max_right _ _))
    rw [List.take_of_length_le hfew, hhits.perm.mem_iff, List.mem_filter, decide_eq_true_eq]
    exact ⟨hmem, hmentions⟩
  refine ⟨notes.filter fun note : Note => note.plan == plan, _, ?_, hhits, ?_, ?_, hfound,
    fun hsigma note hmem hpart => hfound note hmem (hpart.imp ?_ ?_)⟩
  · rw [hrows, List.filter_map]
    rfl
  · rw [(hhits.perm.map fun note => note.id).nodup_iff]
    exact hids.sublist ((List.filter_sublist.trans List.filter_sublist).map _)
  · rw [Repository.perform, Repository.read, Store.search_eq hlisted]
    rfl
  · exact fun htitle => Text.isPartOf_of_not_mem htitle hsigma
  · exact fun hcontent => Text.isPartOf_of_not_mem hcontent hsigma

/-! ### A road sign -/

/-- The hall gets a note about road signs. -/
def signSteps : List (String × Operation) :=
  hallSteps ++ [("note", .addNote
    ⟨"first", hallPlan, some "hall", none, none, "todo", "ΟΔΟΣΗΜΑΝΣΗ", "", "clerk"⟩)]

theorem ordered_signSteps : ∀ step ∈ signSteps, step.2.Ordered :=
  List.forall_mem_append.mpr ⟨ordered_hallSteps, List.forall_mem_singleton.mpr trivial⟩

/-- What is known of the repository with the note about road signs. -/
theorem reachable_signs :
    Reachable ((empty .standard).play signSteps)
      ∧ ((empty .standard).play signSteps).store.tables.notes.map
        (fun row => (row.plan, row.title)) = [(hallPlan, "ΟΔΟΣΗΜΑΝΣΗ")]
      ∧ ((empty .standard).play signSteps).policy.searchLimit = 200 := by
  have hruns : (empty .standard).admits signSteps = true
      ∧ ((empty .standard).play signSteps).store.tables.notes.map
        (fun row => (row.plan, row.title)) = [(hallPlan, "ΟΔΟΣΗΜΑΝΣΗ")]
      ∧ ((empty .standard).play signSteps).policy.searchLimit = 200 := by
    decide +kernel
  exact ⟨(Reachable.empty _).play hruns.1 ordered_signSteps, hruns.2⟩

theorem isPartOf_sign : Text.IsPartOf "ΣΗΜΑΝΣΗ" "ΟΔΟΣΗΜΑΝΣΗ" :=
  ⟨"ΟΔΟ".toList, [], by decide +kernel, Text.sigmasKept_iff.mpr (by decide +kernel)⟩

/-- The word for signs is found in the title, where its sigmas are inside a word as they are in
the query. -/
theorem search_answer_sign :
    ∃ found note, (((empty .standard).play signSteps).perform (.named "ask")
        (.search hallPlan "ΣΗΜΑΝΣΗ")).1 = .ok (.notes found)
      ∧ note ∈ found ∧ note.title = "ΟΔΟΣΗΜΑΝΣΗ" := by
  obtain ⟨hreachable, hnotes, hlimit⟩ := reachable_signs
  obtain ⟨written, hits, hwritten, -, -, hanswer, hfound, -⟩ :=
    hreachable.search_answer (.named "ask") hallPlan "ΣΗΜΑΝΣΗ"
  -- The note is the only one, and it is on the plan.
  obtain ⟨row, hrow, hfacts⟩ := List.map_eq_singleton_iff.mp hnotes
  obtain ⟨hplan, htitle⟩ := Prod.mk.inj hfacts
  rw [hrow, List.filter_singleton, beq_iff_eq.mpr hplan, cond_true] at hwritten
  obtain ⟨note, hnote, hread⟩ := List.map_eq_singleton_iff.mp hwritten.symm
  have hsame : note.title = "ΟΔΟΣΗΜΑΝΣΗ" := by
    rw [← htitle, ← hread]
    rfl
  have hmem := hfound note (hnote ▸ List.mem_singleton_self note)
    (Or.inl (hsame ▸ isPartOf_sign)) (by rw [hnote, hlimit, List.length_singleton]; decide)
  exact ⟨_, note, hanswer, hmem, hsame⟩

/-- **A search does not find every part of a title.**  The word for road is what the title
begins with, but in lowercase its last letter is that of the end of a word. -/
theorem word_not_found :
    Reachable ((empty .standard).play signSteps)
      ∧ "ΟΔΟΣ".toList <:+: "ΟΔΟΣΗΜΑΝΣΗ".toList
      ∧ ((empty .standard).play signSteps).store.tables.notes.map
        (fun row => (row.plan, row.title)) = [(hallPlan, "ΟΔΟΣΗΜΑΝΣΗ")]
      ∧ ((empty .standard).play signSteps).policy.searchLimit = 200
      ∧ (((empty .standard).play signSteps).perform (.named "ask")
          (.search hallPlan "ΟΔΟΣ")).1 = .ok (.notes []) := by
  obtain ⟨hreachable, hnotes, hlimit⟩ := reachable_signs
  have hpart : "ΟΔΟΣ".toList <:+: "ΟΔΟΣΗΜΑΝΣΗ".toList :=
    ⟨[], "ΗΜΑΝΣΗ".toList, by decide +kernel⟩
  have hsearch : (((empty .standard).play signSteps).store.search
      ((empty .standard).play signSteps).policy hallPlan "ΟΔΟΣ").toOption.map List.length
        = some 0 := by
    decide +kernel
  obtain ⟨found, hanswer, hnone⟩ := Option.map_eq_some_iff.mp hsearch
  rw [List.length_eq_zero_iff] at hnone
  refine ⟨hreachable, hpart, hnotes, hlimit, ?_⟩
  rw [Repository.perform, Repository.read, eq_ok_of_toOption hanswer, hnone]
  rfl

end Repository

end PlanHistory
