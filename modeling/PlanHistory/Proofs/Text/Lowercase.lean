/-
Parts of a text, letter case aside.

What a character becomes in lowercase does not depend on its neighbours, but for the capital
sigma, which has another form at the end of a word.  So a part of a text in lowercase occurs in
the text in lowercase where it is, exactly if no capital sigma ends a word in one of them and
not in the other (`Text.SigmasKept`).

* **`Text.occursIn_iff`** — occurring in a text is being a contiguous part of it;
* **`Text.lowerChars_append`** — a part keeps its place in lowercase;
* **`Text.IsPartOf.holds`** — a part is found if its sigmas keep their form.
-/
import Mathlib.Data.List.Infix
import PlanHistory.Text.Lowercase

namespace PlanHistory

namespace Text

theorem occursIn_iff {part text : List Char} : occursIn part text = true ↔ part <:+: text := by
  induction text with
  | nil => rw [occursIn, List.isEmpty_iff, List.infix_nil]
  | cons c rest ih =>
    rw [occursIn, Bool.or_eq_true, ih, List.isPrefixOf_iff_prefix, List.infix_cons_iff]

/-! ### A part in its place -/

/-- A part of a text in lowercase, between what is before it, given from its end, and what is
after it. -/
def lowerIn (before after : List Char) : List Char → List Char
  | [] => []
  | c :: rest =>
    (if c = 'Σ' then [if isFinal before (rest ++ after) then 'ς' else 'σ'] else lowerChar c)
      ++ lowerIn (c :: before) after rest

variable {before after part : List Char}

theorem lowerChars_append :
    lowerChars before (part ++ after)
      = lowerIn before after part ++ lowerChars (part.reverse ++ before) after := by
  induction part generalizing before with
  | nil => rfl
  | cons c rest ih =>
    rw [List.cons_append, lowerChars, lowerIn, ih, List.reverse_cons, List.append_assoc,
      List.append_assoc, List.singleton_append]

theorem toList_lower (text : String) : (lower text).toList = lowerIn [] [] text.toList := by
  have happend : lowerChars [] (text.toList ++ []) = lowerIn [] [] text.toList ++ [] :=
    lowerChars_append
  rw [List.append_nil, List.append_nil] at happend
  rw [lower, String.toList_ofList, happend]

/-- Whether the capital sigmas of a part end a word in the part exactly if they do in the text
that it is in. -/
def SigmasKept (before part after : List Char) : Prop :=
  ∀ head rest, part = head ++ 'Σ' :: rest →
    isFinal head.reverse rest = isFinal (before ++ head).reverse (rest ++ after)

/-- Without a capital sigma there is none to keep. -/
theorem sigmasKept_of_not_mem (h : 'Σ' ∉ part) : SigmasKept before part after := by
  intro head rest hpart
  exact absurd (hpart ▸ List.mem_append_right _ List.mem_cons_self) h

/-- A part has the same form in two places where its sigmas have. -/
theorem lowerIn_eq_iff {before' after' : List Char} :
    lowerIn before after part = lowerIn before' after' part
      ↔ ∀ head rest, part = head ++ 'Σ' :: rest →
        isFinal (head.reverse ++ before) (rest ++ after)
          = isFinal (head.reverse ++ before') (rest ++ after') := by
  induction part generalizing before before' with
  | nil => simp [lowerIn]
  | cons c part ih =>
    have hlater : (∀ head rest, c :: part = head ++ 'Σ' :: rest →
          isFinal (head.reverse ++ before) (rest ++ after)
            = isFinal (head.reverse ++ before') (rest ++ after'))
        ↔ (c = 'Σ' → isFinal before (part ++ after) = isFinal before' (part ++ after'))
          ∧ ∀ head rest, part = head ++ 'Σ' :: rest →
            isFinal (head.reverse ++ c :: before) (rest ++ after)
              = isFinal (head.reverse ++ c :: before') (rest ++ after') := by
      constructor
      · intro h
        refine ⟨fun hc => h [] part (hc ▸ rfl), fun head rest hpart => ?_⟩
        have hhead := h (c :: head) rest (hpart ▸ rfl)
        rwa [List.reverse_cons, List.append_assoc, List.append_assoc] at hhead
      · rintro ⟨hfirst, hrest⟩ head rest hpart
        cases head with
        | nil =>
          obtain ⟨hc, rfl⟩ := List.cons.inj hpart
          exact hfirst hc
        | cons d head =>
          obtain ⟨rfl, htail⟩ := List.cons.inj hpart
          rw [List.reverse_cons, List.append_assoc, List.append_assoc]
          exact hrest head rest htail
    rw [hlater, ← ih, lowerIn, lowerIn]
    by_cases hc : c = 'Σ'
    · have hform (ends ends' : Bool) : (if ends then 'ς' else 'σ') = (if ends' then 'ς' else 'σ')
          ↔ ends = ends' := by
        cases ends <;> cases ends' <;> decide
      rw [if_pos hc, if_pos hc, List.singleton_append, List.singleton_append, List.cons.injEq,
        hform, forall_prop_of_true hc]
    · rw [if_neg hc, if_neg hc, List.append_cancel_left_eq]
      exact ⟨fun h => ⟨fun hsigma => absurd hsigma hc, h⟩, fun h => h.2⟩

/-- The sigmas of a part are kept exactly if all of it has the form that it has alone. -/
theorem sigmasKept_iff :
    SigmasKept before part after ↔ lowerIn [] [] part = lowerIn before.reverse after part := by
  simp only [SigmasKept, lowerIn_eq_iff, List.append_nil, List.reverse_append]

/-- Whether a text is a part of another where its capital sigmas keep their form. -/
def IsPartOf (part text : String) : Prop :=
  ∃ before after, text.toList = before ++ part.toList ++ after
    ∧ SigmasKept before part.toList after

/-- Only a part with a capital sigma can change its form. -/
theorem isPartOf_of_not_mem {part text : String} (hpart : part.toList <:+: text.toList)
    (h : 'Σ' ∉ part.toList) : IsPartOf part text := by
  obtain ⟨before, after, htext⟩ := hpart
  exact ⟨before, after, htext.symm, sigmasKept_of_not_mem h⟩

/-- Whether a text holds another, letter case aside. -/
def Holds (text part : String) : Prop :=
  (lower part).toList <:+: (lower text).toList

instance (text part : String) : Decidable (Holds text part) := by
  unfold Holds
  infer_instance

theorem matchesQuery_iff {query text : String} : matchesQuery query text = true ↔ Holds text query :=
  occursIn_iff

/-- A text holds its parts whose sigmas keep their form. -/
theorem IsPartOf.holds {part text : String} (h : IsPartOf part text) : Holds text part := by
  obtain ⟨before, after, htext, hkept⟩ := h
  have hplace : (lower text).toList
      = lowerIn [] (part.toList ++ after) before
        ++ (lowerIn before.reverse after part.toList
          ++ lowerChars (part.toList.reverse ++ before.reverse) after) := by
    rw [lower, String.toList_ofList, htext, List.append_assoc, lowerChars_append, List.append_nil,
      lowerChars_append]
  rw [Holds, toList_lower, sigmasKept_iff.mp hkept, hplace]
  exact List.infix_append' _ _ _

end Text

end PlanHistory
