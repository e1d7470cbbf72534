/-
Doubles, finite or infinite.

A decimal beyond all finite doubles is taken for an infinite one, so every decimal has a
double.  `Double.inSteps` is the place of a double on the number line, counted exactly in
the smallest steps of the format; it compares doubles with each other and, through
`Double.stepsInOne`, with integers.
-/
import PlanHistory.Number.Binary64

namespace PlanHistory

/-- A number in double precision. -/
inductive Double where
  | finite (value : Binary64)
  | infinite (negative : Bool)
deriving DecidableEq

namespace Double

/-- The double nearest to a decimal under a sign. -/
def ofDecimal (negative : Bool) (size : Decimal) : Double :=
  match size.toBinary64? negative with
  | some value => .finite value
  | none => .infinite negative

/-- The sign at the start of a numeral. -/
def splitSign : List Char → Bool × List Char
  | '-' :: rest => (true, rest)
  | '+' :: rest => (false, rest)
  | rest => (false, rest)

/-- A double as text under a layout. -/
def render (layout : Layout) : Double → List Char
  | .finite value => value.render layout
  | .infinite true => ['-', 'i', 'n', 'f']
  | .infinite false => ['i', 'n', 'f']

/-- An integer under a sign. -/
def signed (negative : Bool) (size : Nat) : Int :=
  if negative then -(size : Int) else size

/-- How many smallest steps one is. -/
def stepsInOne : Nat := Nat.pow 2 1074

/-- The place on the number line, in smallest steps; the infinities are where the next
sizes would be. -/
def inSteps : Double → Int
  | .finite value => signed value.negative (Binary64.steps value.rank)
  | .infinite negative => signed negative (Binary64.steps rankBound)

/-- The integer that a double is, if it is one. -/
def whole? : Double → Option Int
  | .finite value =>
    let steps := Binary64.steps value.rank
    if steps % stepsInOne = 0 then some (signed value.negative (steps / stepsInOne)) else none
  | .infinite _ => none

end Double

end PlanHistory
