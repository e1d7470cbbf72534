/-
Finite double-precision numbers.

Sizes are counted in the smallest step of the format, 2⁻¹⁰⁷⁴, so that each is a
natural number of steps, and a size is stored as its rank among all sizes in
ascending order:

* **`Binary64.steps`** — the size of a given rank, exactly;
* **`Binary64.nearestRank`** — the rank nearest to a ratio of naturals, a tie
  going to the even rank;
* **`Decimal.toBinary64?`** — a decimal correctly rounded, `none` on overflow;
* **`Binary64.shortest`** — the shortest decimal that reads back, by trying the
  decimal grids from coarse to fine.
-/
import PlanHistory.Number.Decimal

namespace PlanHistory

/-- The number of sizes between a power of two and the next, 2⁵². -/
abbrev binade : Nat := 0x10000000000000

/-- The number of ranks, 2047 · 2⁵²: one more than that of the greatest finite size. -/
abbrev rankBound : Nat := 0x7FF0000000000000

/-- A finite double: its sign and the rank of its size.  Rank 0 is zero. -/
structure Binary64 where
  negative : Bool
  rank : Nat
  finite : rank < rankBound
deriving DecidableEq, Repr

namespace Binary64

/-- Zero, of the given sign. -/
def zero (negative : Bool) : Binary64 := ⟨negative, 0, by decide⟩

/-- Equality of numbers: the two zeros are one number. -/
def same (x y : Binary64) : Bool :=
  x.rank == y.rank && (x.rank == 0 || x.negative == y.negative)

/-- How many smallest steps the size of rank `rank` is: below 2⁵² ranks and steps
agree, and from there the steps double in width every 2⁵² ranks. -/
def steps (rank : Nat) : Nat :=
  if rank < binade then rank
  else (binade + rank % binade) * Nat.pow 2 (rank / binade - 1)

/-- The integer nearest to `num / den`, the even one of two equally near. -/
def roundHalfEven (num den : Nat) : Nat :=
  let below := num / den
  let twice := 2 * (num % den)
  if twice < den then below
  else if den < twice then below + 1
  else if below % 2 = 0 then below
  else below + 1

/-- The rank of the size nearest to `num / den` steps.  Rounding up past the last
size of one width gives the first of the next, so no case distinction is needed. -/
def nearestRank (num den : Nat) : Nat :=
  let doublings := (num / den).log2 - 52
  doublings * binade + roundHalfEven num (den * Nat.pow 2 doublings)

end Binary64

namespace Decimal

/-- The rank of the double nearest to a decimal; `none` if that is not finite.  A
number too large or too small for its exact ratio to matter is decided by its
magnitude alone. -/
def rank? (d : Decimal) : Option Nat :=
  if d.digits = 0 then some 0
  else
    let rank? : Option Nat :=
      match d.exponent with
      | .ofNat e =>
        if 400 < e then none
        else some (Binary64.nearestRank (d.digits * Nat.pow 10 e * Nat.pow 2 1074) 1)
      | .negSucc e =>
        if d.digits.log2 + 1078 ≤ 3 * (e + 1) then some 0
        else some (Binary64.nearestRank (d.digits * Nat.pow 2 1074) (Nat.pow 10 (e + 1)))
    rank?.filter (· < rankBound)

/-- The double nearest to a decimal under a sign; `none` if that is not finite. -/
def toBinary64? (negative : Bool) (d : Decimal) : Option Binary64 :=
  match d.rank? with
  | none => none
  | some rank => if h : rank < rankBound then some ⟨negative, rank, h⟩ else none

end Decimal

namespace Binary64

/-- The size of rank `rank`, digit for digit. -/
def exact (rank : Nat) : Decimal :=
  ⟨steps rank * Nat.pow 5 1074, -1074⟩

/-- Of the multiples of `10 ^ exponent` next to the size of rank `rank`, the one that
reads back as that rank; of two such, the nearer one, or the even one at a tie. -/
def onGrid? (rank : Nat) (exponent : Int) : Option Decimal :=
  let (num, den) : Nat × Nat :=
    match exponent with
    | .ofNat e => (steps rank, Nat.pow 2 1074 * Nat.pow 10 e)
    | .negSucc e => (steps rank * Nat.pow 10 (e + 1), Nat.pow 2 1074)
  let below : Decimal := ⟨num / den, exponent⟩
  let above : Decimal := ⟨num / den + 1, exponent⟩
  match below.rank? == some rank, above.rank? == some rank with
  | true, true => if roundHalfEven num den = num / den then some below else some above
  | true, false => some below
  | false, true => some above
  | false, false => none

/-- The first hit of `onGrid?` on `count` grids, each ten times as fine as the last. -/
def coarsestGrid? (rank : Nat) (exponent : Int) : Nat → Option Decimal
  | 0 => none
  | count + 1 =>
    match onGrid? rank exponent with
    | some d => some d
    | none => coarsestGrid? rank (exponent - 1) count

/-- A decimal grid too coarse to hold the size of rank `rank`, by at most three
powers of ten. -/
def coarseExponent (rank : Nat) : Int :=
  (((steps rank).log2 : Int) - 1074) * 30103 / 100000 + 2

/-- The decimal of fewest digits that reads back as rank `rank`.  Seventeen digits
always suffice; the exact decimal stands behind the search so that the result reads
back by construction. -/
def shortest (rank : Nat) : Decimal :=
  if rank = 0 then ⟨0, 0⟩
  else (coarsestGrid? rank (coarseExponent rank) 20).getD (exact rank)

/-- The number as text: a sign, then the shortest digits that read back. -/
def render (layout : Layout) (x : Binary64) : List Char :=
  let size := (shortest x.rank).render layout
  if x.negative then '-' :: size else size

end Binary64

end PlanHistory
