/-
The order of texts is the order of instants.

Instants are ordered by their second, and within it by their microseconds; those of a leap
second are the second before it and a million microseconds and more.  In the years whose number
has four digits all parts of the text have a fixed width, so that texts compare as the parts do,
one after the other:

* **`CalendarDate.days_lt_days`** — the later of two dates of the calendar is the later day;
* **`CalendarDate.padded_append_lt_iff`** — numbers of one width compare as their digits do;
* **`Timestamp.text_lt_text_iff`** — texts are in the order of the instants.
-/
import Mathlib.Data.Prod.Lex
import Mathlib.Data.String.Basic
import Mathlib.Tactic.IntervalCases
import PlanHistory.Proofs.Timestamp

namespace PlanHistory

namespace CalendarDate

/-! ### Dates and days -/

/-- Whether a date comes before another by year, month and day. -/
def Before (a b : CalendarDate) : Prop :=
  a.year < b.year ∨ a.year = b.year ∧ (a.month < b.month ∨ a.month = b.month ∧ a.day < b.day)

theorem eq_iff {a b : CalendarDate} :
    a = b ↔ a.year = b.year ∧ a.month = b.month ∧ a.day = b.day := by
  cases a
  cases b
  rw [mk.injEq]

theorem before_trichotomy (a b : CalendarDate) : a.Before b ∨ a = b ∨ b.Before a := by
  rw [Before, Before, eq_iff]
  omega

/-- Dates are compared first, and what is later in a text only where they are the same. -/
theorem before_or_eq_and_iff {a b : CalendarDate} {later : Prop} :
    a.Before b ∨ a = b ∧ later
      ↔ a.year < b.year ∨ a.year = b.year ∧ (a.month < b.month ∨ a.month = b.month
        ∧ (a.day < b.day ∨ a.day = b.day ∧ later)) := by
  rw [Before, eq_iff]
  simp only [or_assoc, and_or_left, and_assoc]

/-- The year of a date, where years begin with March. -/
def marchYear (date : CalendarDate) : Int :=
  if date.month ≤ 2 then date.year - 1 else date.year

/-- The month of a date from March. -/
def monthFromMarch (date : CalendarDate) : Nat :=
  if 2 < date.month then date.month - 3 else date.month + 9

/-- Days from 1 March of year 0 to 1 March of a year. -/
def yearStart (year : Int) : Int :=
  365 * year + year / 4 - year / 100 + year / 400

/-- Days from 1 March to the first of a month that is counted from March. -/
def monthStart (month : Nat) : Nat :=
  (153 * month + 2) / 5

theorem days_eq (date : CalendarDate) (h : 1 ≤ date.day) :
    date.days
      = yearStart date.marchYear + monthStart date.monthFromMarch + (date.day - 1) - marchEpoch := by
  have hcycle (year : Int) :
      year / 400 * 146097
          + ((year % 400).toNat * 365 + (year % 400).toNat / 4 - (year % 400).toNat / 100 : Nat)
        = yearStart year := by
    rw [yearStart]
    omega
  rw [days, ← hcycle, marchYear, monthFromMarch, monthStart]
  rw [show cycleDays = 146097 from rfl]
  omega

/-- A year begins at least 365 days before the next, and a leap day more if it ends with one. -/
theorem yearStart_add_one (year : Int) :
    yearStart (year + 1) = yearStart year + 365 + if isLeapYear (year + 1) then 1 else 0 := by
  have hleap : isLeapYear (year + 1) = true
      ↔ (year + 1) % 4 = 0 ∧ ((year + 1) % 100 ≠ 0 ∨ (year + 1) % 400 = 0) := by
    simp [isLeapYear]
  rw [yearStart, yearStart]
  split
  next h =>
    have := hleap.mp h
    omega
  next h =>
    have := mt hleap.mpr h
    omega

theorem yearStart_le {a b : Int} (h : a ≤ b) : yearStart a ≤ yearStart b := by
  rw [yearStart, yearStart]
  omega

/-- A date is before the first of the next month, and in February before the next March. -/
theorem place_of_isValid {date : CalendarDate} (h : date.isValid = true) :
    1 ≤ date.day ∧ 1 ≤ date.month ∧ date.month ≤ 12
      ∧ (date.monthFromMarch < 11 →
        monthStart date.monthFromMarch + date.day ≤ monthStart (date.monthFromMarch + 1))
      ∧ (monthStart date.monthFromMarch + (date.day - 1) : Int)
        < 365 + if isLeapYear (date.marchYear + 1) then 1 else 0 := by
  rw [isValid] at h
  simp only [Bool.and_eq_true, decide_eq_true_eq] at h
  obtain ⟨⟨⟨hlow, hhigh⟩, hfirst⟩, hlast⟩ := h
  refine ⟨hfirst, hlow, hhigh, ?_⟩
  rw [marchYear, monthFromMarch, monthStart, monthStart]
  generalize date.month = month at *
  -- Only in February does the number of days depend on the year.
  by_cases htwo : month = 2
  · subst htwo
    simp only [monthLength, beq_self_eq_true, if_true] at hlast
    simp only [lt_self_iff_false, le_refl, if_false, if_true, Int.sub_add_cancel]
    split at hlast <;> rename_i hleap <;> simp [hleap] <;> omega
  · interval_cases month <;> simp [monthLength] at htwo hlast ⊢ <;> omega

/-- The later of two dates of the calendar is the later day. -/
theorem days_lt_days {a b : CalendarDate} (ha : a.isValid = true) (hb : b.isValid = true)
    (h : a.Before b) : a.days < b.days := by
  obtain ⟨hday, hlow, hhigh, hmonth, hyear⟩ := place_of_isValid ha
  obtain ⟨hday', hlow', hhigh', -, -⟩ := place_of_isValid hb
  rw [days_eq a hday, days_eq b hday']
  have hnext := yearStart_add_one a.marchYear
  -- The order by years and months is that by years from March and their months.
  have hmarch : a.marchYear < b.marchYear ∨ a.marchYear = b.marchYear
      ∧ (a.monthFromMarch < b.monthFromMarch
        ∨ a.monthFromMarch = b.monthFromMarch ∧ a.day < b.day) := by
    rw [Before] at h
    rw [marchYear, marchYear, monthFromMarch, monthFromMarch]
    split <;> split <;> split <;> split <;> omega
  rcases hmarch with hlt | ⟨hsame, hlt | ⟨hsame', hlt⟩⟩
  · have hle : yearStart (a.marchYear + 1) ≤ yearStart b.marchYear := yearStart_le hlt
    omega
  · have hle : monthStart (a.monthFromMarch + 1) ≤ monthStart b.monthFromMarch := by
      rw [monthStart, monthStart]
      omega
    have hlast : b.monthFromMarch ≤ 11 := by
      rw [monthFromMarch]
      split <;> omega
    have hplace := hmonth (by omega)
    rw [hsame]
    omega
  · rw [hsame, hsame']
    omega

/-! ### Numbers of one width -/

/-- Where one text takes the place of another of its length, it decides unless it is the same. -/
theorem append_lt_append_iff {a b rest rest' : List Char} (hlength : a.length = b.length) :
    a ++ rest < b ++ rest' ↔ a < b ∨ a = b ∧ rest < rest' := by
  induction a generalizing b with
  | nil =>
    rw [List.length_nil, eq_comm, List.length_eq_zero_iff] at hlength
    simp [hlength]
  | cons c a ih =>
    cases b with
    | nil => cases hlength
    | cons d b =>
      rw [List.cons_append, List.cons_append, List.cons_lt_cons_iff, List.cons_lt_cons_iff,
        ih (Nat.succ.inj hlength), List.cons.injEq]
      tauto

theorem ofNumeral_cons (c : Char) (digits : List Char) :
    Decimal.ofNumeral (c :: digits)
      = (c.toNat - '0'.toNat) * 10 ^ digits.length + Decimal.ofNumeral digits := by
  have hfirst : Decimal.ofNumeral [c] = c.toNat - '0'.toNat := by
    simp [Decimal.ofNumeral, Nat.ofDigitChars]
  rw [← hfirst]
  exact Decimal.ofNumeral_append [c] digits

theorem toNat_of_isDigit {c : Char} (h : c.isDigit = true) :
    '0'.toNat ≤ c.toNat ∧ c.toNat < '0'.toNat + 10 := by
  rw [Char.isDigit, Bool.and_eq_true, decide_eq_true_eq, decide_eq_true_eq] at h
  exact ⟨h.1, Nat.lt_succ_of_le h.2⟩

theorem ofNumeral_lt {digits : List Char} (h : ∀ c ∈ digits, c.isDigit = true) :
    Decimal.ofNumeral digits < 10 ^ digits.length := by
  induction digits with
  | nil => decide
  | cons c digits ih =>
    obtain ⟨hc, hrest⟩ := List.forall_mem_cons.mp h
    have hdigit : c.toNat - '0'.toNat ≤ 9 := by
      have := toNat_of_isDigit hc
      omega
    have hlt := ih hrest
    have hle := Nat.mul_le_mul_right (10 ^ digits.length) hdigit
    rw [ofNumeral_cons, List.length_cons, Nat.pow_succ]
    omega

/-- Of two runs of as many digits the later in the order of texts is the greater number. -/
theorem ofNumeral_lt_ofNumeral {digits digits' : List Char}
    (h : ∀ c ∈ digits, c.isDigit = true) (h' : ∀ c ∈ digits', c.isDigit = true)
    (hlength : digits.length = digits'.length) (hlt : digits < digits') :
    Decimal.ofNumeral digits < Decimal.ofNumeral digits' := by
  induction digits generalizing digits' with
  | nil =>
    rw [List.length_nil, eq_comm, List.length_eq_zero_iff] at hlength
    exact absurd (hlength ▸ hlt) (List.lt_irrefl [])
  | cons c digits ih =>
    cases digits' with
    | nil => cases hlength
    | cons d digits' =>
      obtain ⟨hc, hdigits⟩ := List.forall_mem_cons.mp h
      obtain ⟨hd, hdigits'⟩ := List.forall_mem_cons.mp h'
      have hsame : digits.length = digits'.length := Nat.succ.inj hlength
      rw [ofNumeral_cons, ofNumeral_cons, hsame]
      rcases List.cons_lt_cons_iff.mp hlt with hfirst | ⟨rfl, hrest⟩
      · -- The first digit is worth more than all digits behind it.
        have hfirst : c.toNat < d.toNat := hfirst
        have hzero := (toNat_of_isDigit hc).1
        have hbelow := ofNumeral_lt hdigits
        have hle : c.toNat - '0'.toNat + 1 ≤ d.toNat - '0'.toNat := by omega
        have hmul := Nat.mul_le_mul_right (10 ^ digits'.length) hle
        rw [Nat.add_mul, Nat.one_mul] at hmul
        rw [hsame] at hbelow
        omega
      · exact Nat.add_lt_add_left (ih hdigits hdigits' hsame hrest) _

/-- Numbers of one width compare first, and what follows them only if they are the same. -/
theorem padded_append_lt_iff {width m n : Nat} (hwidth : 0 < width) (hm : m < 10 ^ width)
    (hn : n < 10 ^ width) {rest rest' : List Char} :
    padded width m ++ rest < padded width n ++ rest' ↔ m < n ∨ m = n ∧ rest < rest' := by
  have hlength : (padded width m).length = (padded width n).length :=
    (length_padded hwidth hm).trans (length_padded hwidth hn).symm
  have hinj : padded width m = padded width n ↔ m = n := by
    refine ⟨fun h => ?_, fun h => h ▸ rfl⟩
    rw [← ofNumeral_padded width m, h, ofNumeral_padded]
  have hmono {k l : Nat} (hlength : (padded width k).length = (padded width l).length)
      (h : padded width k < padded width l) : k < l := by
    have hlt := ofNumeral_lt_ofNumeral (fun _ => isDigit_of_mem_padded)
      (fun _ => isDigit_of_mem_padded) hlength h
    rwa [ofNumeral_padded, ofNumeral_padded] at hlt
  have hlt : padded width m < padded width n ↔ m < n := by
    refine ⟨hmono hlength, fun h => ?_⟩
    by_contra hnot
    rcases List.le_iff_lt_or_eq.mp (List.not_lt.mp hnot) with hgt | heq
    · exact Nat.lt_asymm h (hmono hlength.symm hgt)
    · exact Nat.ne_of_gt h (hinj.mp heq.symm).symm
  rw [append_lt_append_iff hlength, hlt, hinj]

end CalendarDate

namespace Timestamp

open CalendarDate (padded padded_append_lt_iff)

/-! ### Instants -/

/-- Instants are ordered by second and microseconds. -/
instance : LinearOrder Timestamp :=
  LinearOrder.lift' (fun t => toLex (t.second, t.micro)) fun t u h => by
    cases t
    cases u
    simp only [EmbeddingLike.apply_eq_iff_eq, Prod.mk.injEq] at h
    simp only [mk.injEq]
    exact h

theorem lt_iff {t u : Timestamp} :
    t < u ↔ t.second < u.second ∨ t.second = u.second ∧ t.micro < u.micro :=
  Prod.Lex.toLex_lt_toLex

/-- All numbers in the text of an instant have as many digits as there is room for. -/
theorem fields_of_writable {t : Timestamp} (h : t.Writable) :
    t.date.year.toNat < 10 ^ 4 ∧ t.date.month < 10 ^ 2 ∧ t.date.day < 10 ^ 2
      ∧ t.hour < 10 ^ 2 ∧ t.minute < 10 ^ 2 ∧ t.secondOfMinute < 10 ^ 2
      ∧ t.micro % 1000000 < 10 ^ 6 := by
  obtain ⟨hlow, hhigh⟩ := h
  have hvalid : t.date.isValid = true := CalendarDate.isValid_ofDays _
  obtain ⟨hmonth, hday⟩ := CalendarDate.bounds_of_isValid hvalid
  obtain ⟨hhour, hminute, hsecond⟩ := t.timeOfDay_le
  exact ⟨by omega, by omega, by omega, by omega, by omega, by omega, Nat.mod_lt _ (by decide)⟩

/-- Texts compare as the numbers in them, one after the other. -/
theorem text_lt_text_iff_fields {t u : Timestamp} (ht : t.Writable) (hu : u.Writable) :
    t.text < u.text
      ↔ t.date.Before u.date ∨ t.date = u.date
        ∧ (t.hour < u.hour ∨ t.hour = u.hour
          ∧ (t.minute < u.minute ∨ t.minute = u.minute
            ∧ (t.secondOfMinute < u.secondOfMinute ∨ t.secondOfMinute = u.secondOfMinute
              ∧ t.micro % 1000000 < u.micro % 1000000))) := by
  obtain ⟨hyear, hmonth, hday, hhour, hminute, hsecond, hmicro⟩ := fields_of_writable ht
  obtain ⟨hyear', hmonth', hday', hhour', hminute', hsecond', hmicro'⟩ := fields_of_writable hu
  have hstep {width m n : Nat} (hwidth : 0 < width) (hm : m < 10 ^ width) (hn : n < 10 ^ width)
      (c : Char) {rest rest' : List Char} :
      padded width m ++ c :: rest < padded width n ++ c :: rest' ↔ m < n ∨ m = n ∧ rest < rest' := by
    rw [padded_append_lt_iff hwidth hm hn, List.cons_lt_cons_iff]
    simp
  rw [String.lt_iff, text, text, String.toList_ofList, String.toList_ofList,
    yearText_of_writable ht, yearText_of_writable hu]
  simp only [List.append_assoc, List.cons_append]
  rw [hstep (by decide) hyear hyear', hstep (by decide) hmonth hmonth',
    hstep (by decide) hday hday', hstep (by decide) hhour hhour',
    hstep (by decide) hminute hminute', hstep (by decide) hsecond hsecond',
    padded_append_lt_iff (by decide) hmicro hmicro']
  have hyears : t.date.year.toNat < u.date.year.toNat ↔ t.date.year < u.date.year := by
    have := ht.1
    have := hu.1
    omega
  have hyears' : t.date.year.toNat = u.date.year.toNat ↔ t.date.year = u.date.year := by
    have := ht.1
    have := hu.1
    omega
  simp only [List.lt_irrefl, and_false, or_false]
  rw [hyears, hyears', CalendarDate.before_or_eq_and_iff]

/-- The later of two instants has the later text. -/
theorem text_lt_text {t u : Timestamp} (ht : t.Writable) (hu : u.Writable) (h : t < u) :
    t.text < u.text := by
  rw [text_lt_text_iff_fields ht hu]
  have hdays {v : Timestamp} : v.date.days = v.second / 86400 := CalendarDate.days_ofDays _
  have hle : t.second ≤ u.second := by
    rw [lt_iff] at h
    omega
  rcases CalendarDate.before_trichotomy t.date u.date with hbefore | hsame | hafter
  · exact Or.inl hbefore
  · refine Or.inr ⟨hsame, ?_⟩
    -- On one day the time of day decides; a leap second is the last of its minute.
    have hday : t.second / 86400 = u.second / 86400 := by
      rw [← hdays, ← hdays, hsame]
    have hlater : t.secondOfDay < u.secondOfDay
        ∨ t.secondOfDay = u.secondOfDay ∧ t.micro < u.micro := by
      rw [lt_iff] at h
      rw [secondOfDay, secondOfDay]
      omega
    have hleap : t.micro < 1000000 ∨ t.secondOfDay % 60 = 59 := by
      rw [secondOfDay]
      have := t.micro_lt
      omega
    simp only [hour, minute, secondOfMinute]
    omega
  · have hlt := CalendarDate.days_lt_days (CalendarDate.isValid_ofDays _)
      (CalendarDate.isValid_ofDays _) hafter
    rw [← date, ← date, hdays, hdays] at hlt
    omega

/-- **Texts are in the order of the instants.** -/
theorem text_lt_text_iff {t u : Timestamp} (ht : t.Writable) (hu : u.Writable) :
    t.text < u.text ↔ t < u := by
  refine ⟨fun h => ?_, text_lt_text ht hu⟩
  rcases lt_trichotomy t u with hlt | rfl | hgt
  · exact hlt
  · exact absurd h (lt_irrefl _)
  · exact absurd h (lt_asymm (text_lt_text hu ht hgt))

theorem text_inj {t u : Timestamp} (ht : t.Writable) (hu : u.Writable) :
    t.text = u.text ↔ t = u := by
  refine ⟨fun h => ?_, fun h => h ▸ rfl⟩
  have hread := ofText?_text ht
  rw [h, ofText?_text hu] at hread
  exact (Option.some.inj hread).symm

theorem text_le_text_iff {t u : Timestamp} (ht : t.Writable) (hu : u.Writable) :
    t.text ≤ u.text ↔ t ≤ u := by
  rw [← not_lt, ← not_lt, text_lt_text_iff hu ht]

end Timestamp

end PlanHistory
