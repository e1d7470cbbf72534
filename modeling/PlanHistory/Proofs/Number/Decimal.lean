/-
Numerals and what is read from them.

* **`Decimal.ofNumeral_numeral`** — a numeral spells its number;
* **`Decimal.takeWhile_digits`**, **`Decimal.dropWhile_digits`** — a run of digits ends
  where something else begins;
* **`Decimal.power?_signed`** — a signed power of ten reads back;
* **`Decimal.signedNumeral_injective`** — integers are told apart by their numerals.
-/
import Mathlib.Algebra.Group.Nat.Defs
import Mathlib.Order.Basic
import Mathlib.Tactic.Common
import PlanHistory.Number.Decimal

namespace PlanHistory

namespace Decimal

/-- The text does not begin with a digit. -/
def EndsDigits (cs : List Char) : Prop :=
  ∀ c ∈ cs.head?, c.isDigit = false

theorem endsDigits_cons {c : Char} {cs : List Char} (h : c.isDigit = false) :
    EndsDigits (c :: cs) := by
  simpa [EndsDigits] using h

theorem takeWhile_digits {digits rest : List Char} (hdigits : ∀ c ∈ digits, c.isDigit)
    (hrest : EndsDigits rest) : (digits ++ rest).takeWhile Char.isDigit = digits := by
  rw [List.takeWhile_append_of_pos hdigits]
  cases rest with
  | nil => simp
  | cons c rest =>
    have hc := hrest c rfl
    simp [hc]

theorem dropWhile_digits {digits rest : List Char} (hdigits : ∀ c ∈ digits, c.isDigit)
    (hrest : EndsDigits rest) : (digits ++ rest).dropWhile Char.isDigit = rest := by
  rw [List.dropWhile_append_of_pos hdigits]
  cases rest with
  | nil => rfl
  | cons c rest =>
    have hc := hrest c rfl
    simp [hc]

/-! ### Numerals of natural numbers -/

theorem isDigit_of_mem_numeral {n : Nat} {c : Char} (h : c ∈ numeral n) : c.isDigit :=
  Nat.isDigit_of_mem_toDigits (by decide) (by decide) h

theorem numeral_ne_nil (n : Nat) : numeral n ≠ [] :=
  Nat.toDigits_ne_nil

@[simp] theorem ofNumeral_numeral (n : Nat) : ofNumeral (numeral n) = n :=
  Nat.ofDigitChars_ten_toDigits

theorem ofNumeral_append (a b : List Char) :
    ofNumeral (a ++ b) = ofNumeral a * 10 ^ b.length + ofNumeral b := by
  rw [ofNumeral, Nat.ofDigitChars_append, Nat.ofDigitChars_eq_ofDigitChars_zero, Nat.mul_comm,
    ofNumeral, ofNumeral]

theorem ofNumeral_zeros (count : Nat) : ofNumeral (List.replicate count '0') = 0 := by
  rw [ofNumeral, Nat.ofDigitChars_replicate_zero, Nat.mul_zero]

/-- A number other than zero is spelled without a leading zero. -/
theorem head?_numeral_ne_zero {n : Nat} (h : n ≠ 0) : (numeral n).head? ≠ some '0' := by
  induction n using Nat.strongRecOn with
  | ind n ih =>
    rw [numeral, Nat.toDigits_eq_if (by decide)]
    split
    next hlt => simpa using h
    next hge =>
      have hrec := ih (n / 10) (Nat.div_lt_self (by omega) (by decide)) (by omega)
      obtain ⟨c, cs, hcs⟩ := List.exists_cons_of_ne_nil (numeral_ne_nil (n / 10))
      rw [← numeral, hcs]
      rw [hcs] at hrec
      exact hrec

/-! ### Numerals of integers -/

theorem numeral_injective {m n : Nat} (h : numeral m = numeral n) : m = n := by
  rw [← ofNumeral_numeral m, h, ofNumeral_numeral]

theorem head?_numeral_ne_minus (n : Nat) : (numeral n).head? ≠ some '-' := by
  intro h
  have hmem : '-' ∈ numeral n := List.mem_of_mem_head? h
  exact absurd (isDigit_of_mem_numeral hmem) (by decide)

/-- Integers are told apart by their numerals. -/
theorem signedNumeral_injective {i j : Int} (h : signedNumeral i = signedNumeral j) : i = j := by
  rw [signedNumeral, signedNumeral] at h
  split at h <;> split at h
  · have := numeral_injective (List.cons.inj h).2
    omega
  · exact absurd (congrArg List.head? h).symm (head?_numeral_ne_minus _)
  · exact absurd (congrArg List.head? h) (head?_numeral_ne_minus _)
  · have := numeral_injective h
    omega

/-! ### Powers of ten -/

/-- The sign and numeral of a power of ten, as `scientific` writes them. -/
def signedPower (power : Int) : List Char :=
  if power < 0 then '-' :: numeral power.natAbs else '+' :: numeral power.natAbs

/-- A signed power of ten reads back. -/
theorem power?_signed (power : Int) {rest : List Char} (hrest : EndsDigits rest) :
    power? (signedPower power ++ rest) = some (power, rest) := by
  have htake := takeWhile_digits (fun _ => isDigit_of_mem_numeral (n := power.natAbs)) hrest
  have hdrop := dropWhile_digits (fun _ => isDigit_of_mem_numeral (n := power.natAbs)) hrest
  obtain ⟨digit, more, hdigits⟩ := List.exists_cons_of_ne_nil (numeral_ne_nil power.natAbs)
  rw [signedPower]
  split
  next hneg =>
    rw [List.cons_append, power?]
    dsimp only
    rw [htake, hdrop, hdigits]
    dsimp only
    rw [← hdigits, ofNumeral_numeral, Option.map_some]
    congr 2
    omega
  next hpos =>
    rw [List.cons_append, power?]
    dsimp only
    rw [htake, hdrop, hdigits]
    dsimp only
    rw [← hdigits, ofNumeral_numeral, Option.map_some]
    congr 2
    omega

end Decimal

end PlanHistory
