/-
Instants read back from their text.

* **`CalendarDate.days_ofDays`**, **`CalendarDate.isValid_ofDays`** — the date of a day is
  a date of the calendar, and that of no other day;
* **`Timestamp.ofText?_text`** — the text of an instant names it, in the years whose
  number has four digits (`Timestamp.Writable`), leap seconds included.
-/
import PlanHistory.Proofs.Number.Decimal
import PlanHistory.Timestamp

namespace PlanHistory

namespace CalendarDate

/-! ### Days and dates -/

/-- A day of the 400 years by its century, the group of four years in it and the day in
that group. -/
structure InCycle (n century group day : Nat) : Prop where
  eq : n = 36524 * century + 1461 * group + day
  century_le : century ≤ 3
  day_lt : day < 1461
  inside : 1461 * group + day < 36524 ∨ (century = 3 ∧ group = 24 ∧ day = 1460)

theorem exists_inCycle {n : Nat} (h : n < 146097) : ∃ century group day,
    InCycle n century group day := by
  by_cases hlast : n = 146096
  · exact ⟨3, 24, 1460, by omega, by omega, by omega, Or.inr ⟨rfl, rfl, rfl⟩⟩
  · exact ⟨n / 36524, n % 36524 / 1461, n % 36524 % 1461, by omega, by omega, by omega, by omega⟩

/-- The year of a day of the 400 years. -/
def cycleYear (century group day : Nat) : Nat :=
  100 * century + 4 * group + min (day / 365) 3

theorem InCycle.year_eq {n century group day : Nat} (h : InCycle n century group day) :
    (n - n / 1460 + n / 36524 - n / 146096) / 365 = cycleYear century group day := by
  obtain ⟨rfl, hcentury, hday, hinside⟩ := h
  rw [cycleYear]
  rcases hinside with hinside | ⟨rfl, rfl, rfl⟩
  · have hc : (36524 * century + 1461 * group + day) / 36524 = century := by omega
    have hcycle : (36524 * century + 1461 * group + day) / 146096 = 0 := by omega
    -- The groups of four years before the day, and at most one day more.
    have hgroup : (36524 * century + 1461 * group + day) / 1460
        = 25 * century + group + (24 * century + group + day) / 1460 := by omega
    rw [hc, hcycle, hgroup]
    omega
  · decide

theorem InCycle.yearStart_eq {n century group day : Nat} (h : InCycle n century group day) :
    365 * cycleYear century group day + cycleYear century group day / 4
      - cycleYear century group day / 100 + (day - 365 * min (day / 365) 3) = n := by
  obtain ⟨rfl, hcentury, hday, hinside⟩ := h
  have hfour : cycleYear century group day / 4 = 25 * century + group := by
    rw [cycleYear]
    omega
  have hhundred : cycleYear century group day / 100 = century := by
    rw [cycleYear]
    omega
  rw [hfour, hhundred, cycleYear]
  omega

theorem InCycle.cycleYear_lt {n century group day : Nat} (h : InCycle n century group day) :
    cycleYear century group day < 400 := by
  obtain ⟨rfl, hcentury, hday, hinside⟩ := h
  rw [cycleYear]
  omega

/-- The last day of a year from March is the leap day of the next civil year. -/
theorem InCycle.isLeapYear {n century group day : Nat} (h : InCycle n century group day)
    (hday : day - 365 * min (day / 365) 3 = 365) (cycle : Int) :
    isLeapYear (cycle * 400 + cycleYear century group day + 1) = true := by
  obtain ⟨rfl, hcentury, hlt, hinside⟩ := h
  have hyear : cycleYear century group day = 100 * century + 4 * group + 3 := by
    rw [cycleYear]
    omega
  rw [CalendarDate.isLeapYear, hyear]
  simp only [Bool.and_eq_true, Bool.or_eq_true, beq_iff_eq, bne_iff_ne]
  push_cast
  omega

/-- A day by the 400 years it is in, and its place in them. -/
theorem ofDays_eq {d : Int} {century group day : Nat}
    (h : InCycle ((d + marchEpoch) % cycleDays).toNat century group day) :
    ofDays d =
      let dayOfYear := day - 365 * min (day / 365) 3
      let monthFromMarch := (5 * dayOfYear + 2) / 153
      let year := (d + marchEpoch) / cycleDays * 400 + cycleYear century group day
      let month := if monthFromMarch < 10 then monthFromMarch + 3 else monthFromMarch - 9
      ⟨if month ≤ 2 then year + 1 else year, month,
        dayOfYear - (153 * monthFromMarch + 2) / 5 + 1⟩ := by
  have hstart : ((d + marchEpoch) % cycleDays).toNat
      - (365 * cycleYear century group day + cycleYear century group day / 4
        - cycleYear century group day / 100) = day - 365 * min (day / 365) 3 := by
    have := h.yearStart_eq
    omega
  rw [ofDays]
  dsimp only
  rw [h.year_eq, hstart]

theorem exists_inCycle_ofDays (d : Int) : ∃ century group day,
    InCycle ((d + marchEpoch) % cycleDays).toNat century group day := by
  refine exists_inCycle ?_
  have hlt : (d + marchEpoch) % cycleDays < cycleDays := Int.emod_lt_of_pos _ (by decide)
  have hcycle : cycleDays = 146097 := rfl
  omega

/-- The date of a day is that of no other day. -/
theorem days_ofDays (d : Int) : (ofDays d).days = d := by
  obtain ⟨century, group, day, h⟩ := exists_inCycle_ofDays d
  have hstart := h.yearStart_eq
  have hlt := h.cycleYear_lt
  have hday : day - 365 * min (day / 365) 3 ≤ 365 := by
    have := h.day_lt
    omega
  have hnonneg : 0 ≤ (d + marchEpoch) % cycleDays := Int.emod_nonneg _ (by decide)
  have hdiv : (d + marchEpoch) / cycleDays * cycleDays + (d + marchEpoch) % cycleDays
      = d + marchEpoch := by
    rw [Int.mul_comm]
    exact Int.mul_ediv_add_emod _ _
  rw [ofDays_eq h]
  generalize day - 365 * min (day / 365) 3 = dayOfYear at hstart hday
  generalize cycleYear century group day = year at hstart hlt
  generalize (d + marchEpoch) / cycleDays = cycle at hdiv
  generalize (d + marchEpoch) % cycleDays = place at hstart hnonneg hdiv
  have hyear : (cycle * 400 + (year : Int)) / 400 = cycle := by omega
  have hplace : ((cycle * 400 + (year : Int)) % 400).toNat = year := by omega
  rw [show cycleDays = 146097 from rfl] at hdiv
  -- January and February belong to the year from March before.
  by_cases hm : (5 * dayOfYear + 2) / 153 < 10
  · simp only [days, if_pos hm]
    rw [if_neg (by omega), if_neg (by omega), if_pos (by omega), hyear, hplace,
      show cycleDays = 146097 from rfl]
    omega
  · simp only [days, if_neg hm]
    rw [if_pos (by omega), if_pos (by omega), if_neg (by omega), Int.add_sub_cancel, hyear, hplace,
      show cycleDays = 146097 from rfl]
    omega

/-- The months of a year from March, day by day: only the leap day is a 29 February. -/
theorem month_of_dayOfYear (dayOfYear : Fin 366) :
    let monthFromMarch := (5 * dayOfYear.val + 2) / 153
    let month := if monthFromMarch < 10 then monthFromMarch + 3 else monthFromMarch - 9
    let day := dayOfYear.val - (153 * monthFromMarch + 2) / 5 + 1
    1 ≤ month ∧ month ≤ 12 ∧ 1 ≤ day ∧
      if month = 2 then day ≤ 28 ∨ (day = 29 ∧ dayOfYear.val = 365)
      else day ≤ monthLength 0 month := by
  revert dayOfYear
  decide +kernel

/-- The date of a day is a date of the calendar. -/
theorem isValid_ofDays (d : Int) : (ofDays d).isValid = true := by
  obtain ⟨century, group, day, h⟩ := exists_inCycle_ofDays d
  have hleap := h.isLeapYear
  have hday : day - 365 * min (day / 365) 3 ≤ 365 := by
    have := h.day_lt
    omega
  rw [ofDays_eq h]
  generalize day - 365 * min (day / 365) 3 = dayOfYear at hleap hday
  generalize (d + marchEpoch) / cycleDays = cycle
  generalize cycleYear century group day = year at hleap
  obtain ⟨hlow, hhigh, hfirst, hlength⟩ := month_of_dayOfYear ⟨dayOfYear, by omega⟩
  dsimp only at hlow hhigh hfirst hlength ⊢
  generalize (if (5 * dayOfYear + 2) / 153 < 10 then (5 * dayOfYear + 2) / 153 + 3
    else (5 * dayOfYear + 2) / 153 - 9) = month at *
  generalize dayOfYear - (153 * ((5 * dayOfYear + 2) / 153) + 2) / 5 + 1 = day at *
  rw [isValid]
  simp only [Bool.and_eq_true, decide_eq_true_eq]
  refine ⟨⟨⟨hlow, hhigh⟩, hfirst⟩, ?_⟩
  -- Only in February does the number of days depend on the year.
  by_cases htwo : month = 2
  · subst htwo
    rw [if_pos rfl] at hlength
    show day ≤ if isLeapYear (cycle * 400 + year + 1) = true then 29 else 28
    rcases hlength with hle | ⟨rfl, hlast⟩
    · split <;> omega
    · exact Nat.le_of_eq (if_pos (hleap hlast cycle)).symm
  · rw [if_neg htwo] at hlength
    simpa [monthLength, htwo] using hlength

/-- Months and days of the calendar have two digits at most. -/
theorem bounds_of_isValid {date : CalendarDate} (h : date.isValid = true) :
    date.month ≤ 12 ∧ date.day ≤ 31 := by
  rw [isValid] at h
  simp only [Bool.and_eq_true, decide_eq_true_eq] at h
  obtain ⟨⟨⟨-, hmonth⟩, -⟩, hday⟩ := h
  have hlength : monthLength date.year date.month ≤ 31 := by
    rw [monthLength]
    split
    · split <;> decide
    · split <;> decide
  exact ⟨hmonth, Nat.le_trans hday hlength⟩

/-! ### Fixed width -/

theorem length_padded {width n : Nat} (hwidth : 0 < width) (h : n < 10 ^ width) :
    (padded width n).length = width := by
  have hle : (Decimal.numeral n).length ≤ width :=
    (Nat.length_toDigits_le_iff (by decide) hwidth).mpr h
  rw [padded, List.length_append, List.length_replicate]
  omega

theorem isDigit_of_mem_padded {width n : Nat} {c : Char} (h : c ∈ padded width n) :
    c.isDigit = true := by
  rcases List.mem_append.mp h with h | h
  · rw [List.eq_of_mem_replicate h]; rfl
  · exact Decimal.isDigit_of_mem_numeral h

@[simp] theorem ofNumeral_padded (width n : Nat) : Decimal.ofNumeral (padded width n) = n := by
  rw [padded, Decimal.ofNumeral_append, Decimal.ofNumeral_zeros, Decimal.ofNumeral_numeral,
    Nat.zero_mul, Nat.zero_add]

end CalendarDate

namespace Timestamp

open CalendarDate (padded)

/-- A number of fixed width reads back. -/
theorem digits?_padded {width n : Nat} (hwidth : 0 < width) (h : n < 10 ^ width)
    (rest : List Char) : digits? width (padded width n ++ rest) = some (n, rest) := by
  have hlength := CalendarDate.length_padded hwidth h
  have hall : (padded width n).all Char.isDigit = true :=
    List.all_eq_true.mpr fun _ => CalendarDate.isDigit_of_mem_padded
  rw [digits?, List.take_append_of_le_length (by omega), List.take_of_length_le (by omega),
    List.drop_append_of_le_length (by omega), List.drop_of_length_le (by omega)]
  simp [hlength, hall]

/-! ### The text of an instant -/

/-- An instant in a year of four digits, which can be written down. -/
def Writable (t : Timestamp) : Prop :=
  0 ≤ t.date.year ∧ t.date.year ≤ 9999

instance (t : Timestamp) : Decidable t.Writable := by
  unfold Writable
  infer_instance

theorem yearText_of_writable {t : Timestamp} (h : t.Writable) :
    CalendarDate.yearText t.date.year = padded 4 t.date.year.toNat := by
  obtain ⟨hlow, hhigh⟩ := h
  rw [CalendarDate.yearText, if_neg (by omega), if_neg (by omega)]
  congr 1
  omega

theorem date?_text {t : Timestamp} (h : t.Writable) (rest : List Char) :
    date? (padded 4 t.date.year.toNat ++ '-' :: (padded 2 t.date.month ++ '-' ::
      (padded 2 t.date.day ++ rest))) = some (t.date, rest) := by
  obtain ⟨hlow, hhigh⟩ := h
  have hvalid : t.date.isValid = true := CalendarDate.isValid_ofDays _
  obtain ⟨hmonth, hday⟩ := CalendarDate.bounds_of_isValid hvalid
  have hdate : (⟨(t.date.year.toNat : Int), t.date.month, t.date.day⟩ : CalendarDate) = t.date := by
    rw [Int.toNat_of_nonneg hlow]
  rw [date?, digits?_padded (by decide) (by omega)]
  simp only [Option.bind_eq_bind, Option.bind_some, digits?_padded (by decide)
    (show t.date.month < 10 ^ 2 by omega), digits?_padded (by decide)
    (show t.date.day < 10 ^ 2 by omega)]
  rw [hdate, if_pos hvalid]

theorem timeOfDay?_text {hour minute second : Nat} (hhour : hour ≤ 23) (hminute : minute ≤ 59)
    (hsecond : second ≤ 60) (rest : List Char) :
    timeOfDay? (padded 2 hour ++ ':' :: (padded 2 minute ++ ':' :: (padded 2 second ++ rest)))
      = some ((hour, minute, second), rest) := by
  rw [timeOfDay?, digits?_padded (by decide) (by omega)]
  simp only [Option.bind_eq_bind, Option.bind_some, digits?_padded (by decide)
    (show minute < 10 ^ 2 by omega), digits?_padded (by decide) (show second < 10 ^ 2 by omega)]
  simp [hhour, hminute, hsecond]

theorem fraction?_text {micro : Nat} (h : micro < 10 ^ 6) :
    fraction? ('.' :: (padded 6 micro ++ ['Z'])) = some (micro, ['Z']) := by
  have hlength := CalendarDate.length_padded (by decide) h
  have hends : Decimal.EndsDigits ['Z'] := Decimal.endsDigits_cons (by decide)
  have hdigits : ∀ c ∈ padded 6 micro, c.isDigit = true := fun _ =>
    CalendarDate.isDigit_of_mem_padded
  rw [fraction?, Decimal.takeWhile_digits hdigits hends, Decimal.dropWhile_digits hdigits hends]
  split
  next hnil => rw [hnil] at hlength; simp at hlength
  next =>
    dsimp only
    rw [List.take_of_length_le (by omega), hlength, CalendarDate.ofNumeral_padded]
    simp

theorem at?_self (t : Timestamp) : at? t.second t.micro = some t := by
  rw [at?, dif_pos t.micro_lt]

/-- The second of an instant, put together again from its day and its time of day. -/
theorem second_eq (t : Timestamp) :
    (t.date.days * 1440 + t.hour * 60 + t.minute - 0) * 60 + (t.secondOfDay % 60 : Nat)
      = t.second := by
  have hdays : t.date.days = t.second / 86400 := CalendarDate.days_ofDays _
  rw [hdays, hour, minute, secondOfDay]
  omega

/-- Hours, minutes and seconds have two digits; the sixtieth second is the leap second. -/
theorem timeOfDay_le (t : Timestamp) : t.hour ≤ 23 ∧ t.minute ≤ 59 ∧ t.secondOfMinute ≤ 60 := by
  have hleap := t.micro_lt
  refine ⟨?_, ?_, ?_⟩
  · rw [hour, secondOfDay]
    omega
  · rw [minute]
    omega
  · rw [secondOfMinute, secondOfDay]
    omega

/-- The text of an instant names it. -/
theorem ofText?_text {t : Timestamp} (h : t.Writable) : ofText? t.text = some t := by
  obtain ⟨hhour, hminute, hsecond⟩ := t.timeOfDay_le
  have hleap : t.micro < 1000000 ∨ (t.secondOfDay % 60 = 59 ∧ t.micro < 2000000) := by
    rcases t.micro_lt with hlt | ⟨hlast, hlt⟩
    · exact Or.inl hlt
    · refine Or.inr ⟨?_, hlt⟩
      rw [secondOfDay]
      omega
  have hplaces : t.micro % 1000000 < 10 ^ 6 := Nat.mod_lt _ (by decide)
  rw [ofText?, text, String.toList_ofList, yearText_of_writable h]
  simp only [List.append_assoc, List.cons_append, date?_text h, Option.bind_eq_bind,
    Option.bind_some]
  rw [if_pos (by decide), timeOfDay?_text hhour hminute hsecond]
  simp only [Option.bind_some, fraction?_text hplaces]
  rw [show offset? ['Z'] = some 0 from rfl, Option.bind_some]
  -- The sixtieth second of a minute is the leap second.
  by_cases hlt : t.micro < 1000000
  · have hmod : t.micro % 1000000 = t.micro := Nat.mod_eq_of_lt hlt
    have hnormal : t.secondOfMinute = t.secondOfDay % 60 := by
      rw [secondOfMinute]
      omega
    rw [hnormal, hmod, if_neg (by omega), second_eq]
    exact at?_self t
  · obtain ⟨hlast, hlt'⟩ := hleap.resolve_left hlt
    have hsixty : t.secondOfMinute = 60 := by
      rw [secondOfMinute]
      omega
    have hmicro : t.micro % 1000000 + 1000000 = t.micro := by omega
    have hsecond := second_eq t
    rw [hlast] at hsecond
    rw [if_pos hsixty, hmicro, show (59 : Int) = ((59 : Nat) : Int) from rfl, hsecond]
    exact at?_self t

end Timestamp

end PlanHistory
