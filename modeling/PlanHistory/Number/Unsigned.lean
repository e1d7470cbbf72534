/-
Unsigned words as readers spell them.
-/
import PlanHistory.Number.Decimal

namespace PlanHistory

/-- The unsigned word that a text spells: digits, with or without a plus sign, below
2⁶⁴. -/
def unsigned? (text : String) : Option Nat :=
  let digits :=
    match text.toList with
    | '+' :: digits => digits
    | digits => digits
  if digits.isEmpty || !digits.all Char.isDigit then none
  else
    let n := Decimal.ofNumeral digits
    if n < 0x10000000000000000 then some n else none

end PlanHistory
