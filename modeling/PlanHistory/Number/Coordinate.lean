/-
Coordinates of points on a plan, and the numerals that give them.

A coordinate is a double that may be infinite.  A numeral may have a sign, may lack
digits on one side of its point and may be spelled `inf`, `infinity` or `nan`, which is
no coordinate.
-/
import PlanHistory.Number.Double

namespace PlanHistory

/-- A coordinate of a point on a plan. -/
abbrev Coordinate := Double

namespace Coordinate

/-- The coordinate that a numeral spells: `none` for a text that is no numeral, and
`some none` for one that is no number. -/
def ofText? (text : String) : Option (Option Coordinate) :=
  let (negative, cs) := Double.splitSign text.toList
  let word := cs.map Char.toLower
  if word = ['n', 'a', 'n'] then some none
  else if word = ['i', 'n', 'f'] || word = ['i', 'n', 'f', 'i', 'n', 'i', 't', 'y'] then
    some (some (.infinite negative))
  else (Decimal.ofUnsigned? cs).map fun size => some (Double.ofDecimal negative size)

end Coordinate

end PlanHistory
