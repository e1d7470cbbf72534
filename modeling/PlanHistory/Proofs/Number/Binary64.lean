/-
The shortest decimal of a double reads back as the double.

`Decimal.rank?` decides very large and very small decimals by their magnitude; by
`Decimal.rank?_eq` the answer is the same as rounding the exact ratio.  Hence:

* **`Decimal.rank?_scale`** — a decimal has the same rank however many of its places
  are spelled out;
* **`Binary64.nearestRank_steps`** — the size of a rank rounds to that rank;
* **`Binary64.rank?_shortest`** — the shortest decimal of a rank reads back as it.
-/
import Mathlib.Data.Nat.Log
import Mathlib.Tactic.Linarith
import Mathlib.Tactic.Ring
import PlanHistory.Number.Binary64

namespace PlanHistory

namespace Binary64

/-! ### Rounding depends on the ratio alone -/

theorem roundHalfEven_mul {num den c : Nat} (hc : 0 < c) :
    roundHalfEven (num * c) (den * c) = roundHalfEven num den := by
  have hdiv : num * c / (den * c) = num / den := Nat.mul_div_mul_right num den hc
  have hmod : num * c % (den * c) = num % den * c := Nat.mul_mod_mul_right c num den
  have hlt : 2 * (num % den * c) < den * c ↔ 2 * (num % den) < den := by
    rw [← Nat.mul_assoc]
    exact Nat.mul_lt_mul_right hc
  have hgt : den * c < 2 * (num % den * c) ↔ den < 2 * (num % den) := by
    rw [← Nat.mul_assoc]
    exact Nat.mul_lt_mul_right hc
  simp only [roundHalfEven, hdiv, hmod, hlt, hgt]

theorem nearestRank_mul {num den c : Nat} (hc : 0 < c) :
    nearestRank (num * c) (den * c) = nearestRank num den := by
  simp only [nearestRank, Nat.mul_div_mul_right num den hc]
  rw [Nat.mul_right_comm den c, roundHalfEven_mul hc]

theorem nearestRank_congr {num den num' den' : Nat} (hden : 0 < den) (hden' : 0 < den')
    (h : num * den' = num' * den) : nearestRank num den = nearestRank num' den' := by
  rw [← nearestRank_mul hden', h, Nat.mul_comm den den', nearestRank_mul hden]

theorem roundHalfEven_of_dvd {num den : Nat} (hden : 0 < den) :
    roundHalfEven (num * den) den = num := by
  simp [roundHalfEven, Nat.mul_div_cancel num hden, hden]

theorem roundHalfEven_of_small {num den : Nat} (h : 2 * num < den) :
    roundHalfEven num den = 0 := by
  have hlt : num < den := by omega
  simp [roundHalfEven, Nat.div_eq_of_lt hlt, Nat.mod_eq_of_lt hlt, h]

theorem nearestRank_of_small {num den : Nat} (h : 2 * num < den) : nearestRank num den = 0 := by
  have hdiv : num / den = 0 := Nat.div_eq_of_lt (by omega)
  simp [nearestRank, hdiv, roundHalfEven_of_small h]

/-- What has `log2` many steps is not below the rank that this many doublings give. -/
theorem doublings_le_nearestRank (num : Nat) :
    (num.log2 - 52) * binade ≤ nearestRank num 1 := by
  rw [nearestRank, Nat.div_one]
  exact Nat.le_add_right _ _

/-! ### The size of a rank -/

theorem log2_steps {rank : Nat} (h : binade ≤ rank) :
    (steps rank).log2 = 52 + (rank / binade - 1) := by
  have hm : rank % binade < binade := Nat.mod_lt _ (by decide)
  have hm' : rank % 2 ^ 52 < 2 ^ 52 := hm
  rw [steps, if_neg (by omega), Nat.pow_eq, Nat.log2_eq_iff (by positivity)]
  constructor
  · rw [Nat.pow_add]
    exact Nat.mul_le_mul_right _ (Nat.le_add_right (2 ^ 52) _)
  · rw [Nat.add_right_comm, Nat.pow_add]
    refine Nat.mul_lt_mul_of_pos_right ?_ (by positivity)
    calc binade + rank % binade < 2 ^ 52 + 2 ^ 52 := Nat.add_lt_add_left hm' _
      _ = 2 ^ (52 + 1) := by norm_num

/-- The size of a rank rounds to that rank. -/
theorem nearestRank_steps (rank : Nat) : nearestRank (steps rank) 1 = rank := by
  rw [nearestRank, Nat.div_one]
  by_cases h : rank < binade
  · have hlog : (steps rank).log2 - 52 = 0 := by
      rw [steps, if_pos h, Nat.sub_eq_zero_iff_le]
      rcases Nat.eq_zero_or_pos rank with rfl | hpos
      · decide
      · exact Nat.le_of_lt ((Nat.log2_lt (by omega)).mpr h)
    have hround : roundHalfEven (rank * 1) 1 = rank := roundHalfEven_of_dvd (by decide)
    rw [Nat.mul_one] at hround
    rw [hlog, steps, if_pos h]
    simpa using hround
  · have hq : 1 ≤ rank / binade := (Nat.one_le_div_iff (by decide)).mpr (by omega)
    rw [log2_steps (by omega), Nat.add_sub_cancel_left, steps, if_neg h, Nat.one_mul,
      roundHalfEven_of_dvd (by rw [Nat.pow_eq]; positivity), Nat.sub_mul, Nat.one_mul]
    have hdiv := Nat.div_add_mod rank binade
    have hle : binade ≤ rank / binade * binade := Nat.le_mul_of_pos_left _ hq
    rw [Nat.mul_comm] at hdiv
    omega

end Binary64

namespace Decimal

open Binary64

/-! ### The rank of a decimal is that of its exact ratio -/

/-- A decimal as a ratio of smallest steps. -/
theorem rank?_eq (d : Decimal) :
    d.rank? = (some (nearestRank (d.digits * 10 ^ d.exponent.toNat * 2 ^ 1074)
      (10 ^ (-d.exponent).toNat))).filter (· < rankBound) := by
  rw [rank?]
  by_cases hzero : d.digits = 0
  · rw [if_pos hzero, hzero, Nat.zero_mul, Nat.zero_mul, nearestRank_of_small (by positivity)]
    rfl
  · rw [if_neg hzero]
    obtain ⟨digits, exponent⟩ := d
    cases exponent with
    | ofNat e =>
      rw [Int.ofNat_eq_natCast, Int.toNat_natCast, Int.toNat_neg_natCast, Nat.pow_zero]
      dsimp only [Nat.pow_eq]
      split
      next hlarge =>
        -- A digit and more than 400 zeros exceed every finite size.
        have hne : digits * 10 ^ e * 2 ^ 1074 ≠ 0 :=
          Nat.mul_ne_zero (Nat.mul_ne_zero hzero (Nat.pow_pos (by decide)).ne')
            (Nat.two_pow_pos _).ne'
        have hlog : 1074 + 1203 ≤ (digits * 10 ^ e * 2 ^ 1074).log2 := by
          rw [Nat.le_log2 hne, Nat.pow_add, Nat.mul_comm]
          refine Nat.mul_le_mul_right _ ?_
          calc 2 ^ 1203 = 8 ^ 401 := by rw [show 8 = 2 ^ 3 from rfl, ← Nat.pow_mul]
            _ ≤ 10 ^ 401 := Nat.pow_le_pow_left (by decide) _
            _ ≤ 10 ^ e := Nat.pow_le_pow_right (by decide) hlarge
            _ ≤ digits * 10 ^ e := Nat.le_mul_of_pos_left _ (Nat.pos_of_ne_zero hzero)
        have hle := doublings_le_nearestRank (digits * 10 ^ e * 2 ^ 1074)
        have hbound : rankBound ≤ ((digits * 10 ^ e * 2 ^ 1074).log2 - 52) * binade :=
          Nat.le_trans (by decide) (Nat.mul_le_mul_right binade (Nat.sub_le_sub_right hlog 52))
        rw [Option.filter_some, Option.filter_none, if_neg]
        simp only [decide_eq_true_eq]
        omega
      next => rfl
    | negSucc e =>
      simp only [Int.toNat_negSucc, Int.neg_negSucc, Nat.pow_eq, Nat.pow_zero, Nat.mul_one,
        -Nat.reducePow]
      split
      next hsmall =>
        -- Three doublings are less than a power of ten, so the size rounds to zero.
        have hexp : digits.log2 + 1 + 1074 + 1 ≤ 3 * (e + 1) := by omega
        have hlt : 2 * (digits * 2 ^ 1074) < 10 ^ (e + 1) := by
          calc 2 * (digits * 2 ^ 1074) < 2 * (2 ^ (digits.log2 + 1) * 2 ^ 1074) :=
                Nat.mul_lt_mul_of_pos_left
                  (Nat.mul_lt_mul_of_pos_right Nat.lt_log2_self (Nat.two_pow_pos _)) (by decide)
            _ = 2 ^ (digits.log2 + 1 + 1074 + 1) := by
              rw [← Nat.pow_add, ← Nat.pow_succ']
            _ ≤ 2 ^ (3 * (e + 1)) := Nat.pow_le_pow_right (by decide) hexp
            _ = 8 ^ (e + 1) := by rw [Nat.pow_mul]
            _ ≤ 10 ^ (e + 1) := Nat.pow_le_pow_left (by decide) _
        rw [Int.toNat_natCast, nearestRank_of_small hlt]
      next => rfl

/-- A decimal has the same rank however many of its places are spelled out. -/
theorem rank?_scale (digits : Nat) (exponent : Int) (places : Nat) :
    rank? ⟨digits * 10 ^ places, exponent - places⟩ = rank? ⟨digits, exponent⟩ := by
  refine (rank?_eq _).trans (Eq.trans ?_ (rank?_eq _).symm)
  refine congrArg (fun rank => (some rank).filter (· < rankBound)) ?_
  refine nearestRank_congr (Nat.pow_pos (by decide)) (Nat.pow_pos (by decide)) ?_
  have hpow : places + (exponent - places).toNat + (-exponent).toNat
      = exponent.toNat + (-(exponent - places)).toNat := by omega
  generalize 2 ^ 1074 = one
  calc digits * 10 ^ places * 10 ^ (exponent - places).toNat * one * 10 ^ (-exponent).toNat
      = digits * one * 10 ^ (places + (exponent - places).toNat + (-exponent).toNat) := by
        rw [Nat.pow_add, Nat.pow_add]; ring
    _ = digits * 10 ^ exponent.toNat * one * 10 ^ (-(exponent - places)).toNat := by
        rw [hpow, Nat.pow_add]; ring

theorem rank?_zero (exponent : Int) : rank? ⟨0, exponent⟩ = some 0 := rfl

theorem toBinary64?_of_rank? {d : Decimal} {x : Binary64} (h : d.rank? = some x.rank) :
    d.toBinary64? x.negative = some x := by
  rw [toBinary64?, h]
  exact dif_pos x.finite

end Decimal

namespace Binary64

/-! ### Shortest decimals -/

theorem nearestRank_tenths (size places : Nat) :
    nearestRank (size * 5 ^ places * 10 ^ 0 * 2 ^ places) (10 ^ places) = nearestRank size 1 := by
  refine nearestRank_congr (by positivity) (by decide) ?_
  rw [show 10 = 5 * 2 from rfl, Nat.mul_pow 5 2 places]
  ring

theorem rank?_exact {rank : Nat} (h : rank < rankBound) : (exact rank).rank? = some rank := by
  have hratio : nearestRank ((exact rank).digits * 10 ^ (exact rank).exponent.toNat * 2 ^ 1074)
      (10 ^ (-(exact rank).exponent).toNat) = rank :=
    (nearestRank_tenths (steps rank) 1074).trans (nearestRank_steps rank)
  rw [Decimal.rank?_eq, hratio]
  exact if_pos (decide_eq_true h)

theorem rank?_of_onGrid? {rank : Nat} {exponent : Int} {d : Decimal}
    (h : onGrid? rank exponent = some d) : d.rank? = some rank := by
  unfold onGrid? at h
  dsimp only at h
  -- The two candidates are kept apart from how they are computed.
  generalize (⟨_ / _, exponent⟩ : Decimal) = below at h
  generalize (⟨_ / _ + 1, exponent⟩ : Decimal) = above at h
  split at h
  next hbelow habove =>
    split_ifs at h <;> obtain rfl := Option.some_inj.mp h
    · exact eq_of_beq hbelow
    · exact eq_of_beq habove
  next hbelow _ =>
    obtain rfl := Option.some_inj.mp h
    exact eq_of_beq hbelow
  next _ habove =>
    obtain rfl := Option.some_inj.mp h
    exact eq_of_beq habove
  next => simp at h

theorem rank?_of_coarsestGrid? {rank count : Nat} {exponent : Int} {d : Decimal}
    (h : coarsestGrid? rank exponent count = some d) : d.rank? = some rank := by
  induction count generalizing exponent with
  | zero => exact absurd h (by simp [coarsestGrid?])
  | succ count ih =>
    rw [coarsestGrid?] at h
    split at h
    next found =>
      obtain rfl := Option.some_inj.mp h
      exact rank?_of_onGrid? found
    next => exact ih h

/-- The shortest decimal of a rank reads back as it. -/
theorem rank?_shortest {rank : Nat} (h : rank < rankBound) :
    (shortest rank).rank? = some rank := by
  rw [shortest]
  split
  next hzero => rw [hzero, Decimal.rank?_zero]
  next =>
    cases hgrid : coarsestGrid? rank (coarseExponent rank) 20 with
    | none => exact rank?_exact h
    | some d => exact rank?_of_coarsestGrid? hgrid

/-- The shortest decimal of a rank other than zero has a digit other than zero. -/
theorem digits_shortest_ne_zero {rank : Nat} (h : rank < rankBound) (hrank : rank ≠ 0) :
    (shortest rank).digits ≠ 0 := by
  intro hzero
  have hread := rank?_shortest h
  rw [show shortest rank = ⟨0, (shortest rank).exponent⟩ by rw [← hzero],
    Decimal.rank?_zero] at hread
  exact hrank (Option.some_inj.mp hread).symm

end Binary64

end PlanHistory
