/-
Sets of characters given by ranges, first to last.
-/
namespace PlanHistory

namespace Text

/-- Whether a character is in one of some ranges. -/
def isWithin (ranges : List (Nat × Nat)) (c : Char) : Bool :=
  ranges.any fun range => range.1 ≤ c.toNat && c.toNat ≤ range.2

end Text

end PlanHistory
