/-
Readings of a clock and their text.

The text of a reading is that of the reading to the microsecond.  So in the years whose number
has four digits (`Instant.Writable`) the text names it, and texts are in the order of what they
name, which is never turned around by leaving out what is beyond the microsecond:

* **`Instant.ofText?_text`**, **`Instant.recorded_eq`** — a reading is recorded without what is
  beyond the microsecond;
* **`Instant.recorded_mono`** — readings in order are recorded in order.
-/
import PlanHistory.Instant
import PlanHistory.Proofs.Timestamp.Order

namespace PlanHistory

namespace Instant

variable {t u : Instant}

/-- Whether an instant is in a year of four digits. -/
def Writable (t : Instant) : Prop :=
  let year := (CalendarDate.ofDays (t.second / 86400)).year
  0 ≤ year ∧ year ≤ 9999

instance (t : Instant) : Decidable t.Writable := by
  unfold Writable
  infer_instance

theorem writable_truncated (h : t.Writable) : t.truncated.Writable := h

/-- Instants are ordered by second and nanoseconds. -/
instance : LinearOrder Instant :=
  LinearOrder.lift' (fun t => toLex (t.second, t.nano)) fun t u h => by
    cases t
    cases u
    simp only [EmbeddingLike.apply_eq_iff_eq, Prod.mk.injEq] at h
    simp only [mk.injEq]
    exact h

theorem le_iff : t ≤ u ↔ t.second < u.second ∨ t.second = u.second ∧ t.nano ≤ u.nano :=
  Prod.Lex.toLex_le_toLex

theorem truncated_mono (h : t ≤ u) : t.truncated ≤ u.truncated := by
  have hle : t.truncated ≤ u.truncated
      ↔ t.second < u.second ∨ t.second = u.second ∧ t.nano / 1000 ≤ u.nano / 1000 :=
    Prod.Lex.toLex_le_toLex
  rw [hle]
  exact (le_iff.mp h).imp_right (And.imp_right Nat.div_le_div_right)

/-- What is beyond the microsecond is not written down. -/
theorem text_truncated (t : Instant) : t.truncated.text = t.text := by
  have hsecond : t.nano / 1000 / 1000000 = t.nano / 1000000000 := Nat.div_div_eq_div_mul ..
  have hmicro : t.nano / 1000 % 1000000 = t.nano % 1000000000 / 1000 :=
    (Nat.mod_mul_right_div_self t.nano 1000 1000000).symm
  rw [Timestamp.text, Timestamp.secondOfMinute, truncated, hsecond, hmicro]
  rfl

theorem text_lt_text_iff (ht : t.Writable) (hu : u.Writable) :
    t.text < u.text ↔ t.truncated < u.truncated := by
  rw [← text_truncated, ← text_truncated,
    Timestamp.text_lt_text_iff (writable_truncated ht) (writable_truncated hu)]

theorem text_inj (ht : t.Writable) (hu : u.Writable) :
    t.text = u.text ↔ t.truncated = u.truncated := by
  rw [← text_truncated, ← text_truncated,
    Timestamp.text_inj (writable_truncated ht) (writable_truncated hu)]

/-- The text of an instant names it to the microsecond. -/
theorem ofText?_text (h : t.Writable) : Timestamp.ofText? t.text = some t.truncated := by
  rw [← text_truncated, Timestamp.ofText?_text (writable_truncated h)]

theorem recorded_eq (h : t.Writable) : t.recorded = t.truncated := by
  rw [recorded, ofText?_text h, Option.getD_some]

/-- Readings in order are recorded in order. -/
theorem recorded_mono (ht : t.Writable) (hu : u.Writable) (h : t ≤ u) : t.recorded ≤ u.recorded := by
  rw [recorded_eq ht, recorded_eq hu]
  exact truncated_mono h

end Instant

end PlanHistory
