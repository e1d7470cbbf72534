/-
What a column of integers holds.

Such a column takes any text.  A text that spells an integer of 64 bits is kept as that
integer, one that spells another number as the nearest double, and any other as it
stands.  A double that is an integer of 64 bits is kept as the integer, the least one
apart.

* **`IntegerCell.ofText`** — what is kept of a text;
* **`IntegerCell.spelling`** — a text of which just that is kept;
* **`IntegerCell.le`** — the order of the column: numbers by size, then texts.
-/
import PlanHistory.Number.Double

namespace PlanHistory

/-- The least integer of 64 bits. -/
abbrev leastWord : Int := -0x8000000000000000

/-- The greatest integer of 64 bits. -/
abbrev greatestWord : Int := 0x7FFFFFFFFFFFFFFF

/-- What a column of integers holds. -/
inductive IntegerCell where
  | whole (i : Int)
  | real (x : Double)
  | text (spelling : String)

namespace IntegerCell

/-- Whether a character may stand around a number. -/
def isPadding (c : Char) : Bool :=
  c == ' ' || ('\t' ≤ c && c ≤ '\r')

/-- A text without the padding at its ends. -/
def unpadded (text : String) : List Char :=
  ((text.toList.dropWhile isPadding).reverse.dropWhile isPadding).reverse

/-- The number from which on the digits of a numeral no longer count. -/
def digitBound : Nat := 1844674407370955160

/-- What is kept of a double. -/
def ofDouble (x : Double) : IntegerCell :=
  match x.whole? with
  | some i => if leastWord < i && i ≤ greatestWord then .whole i else .real x
  | none => .real x

/-- What is kept of a text. -/
def ofText (text : String) : IntegerCell :=
  let (negative, cs) := Double.splitSign (unpadded text)
  match Decimal.ofUnsigned? cs with
  | none => .text text
  | some size =>
    let i := Double.signed negative size.digits
    if cs.all Char.isDigit && leastWord ≤ i && i ≤ greatestWord then .whole i
    else ofDouble (Double.ofDecimal negative (size.clip digitBound))

/-- A text of which just this is kept. -/
def spelling : IntegerCell → String
  | .whole i => String.ofList (Decimal.signedNumeral i)
  | .real (.finite value) => String.ofList (value.render Layout.json)
  | .real (.infinite negative) => if negative then "-1e999" else "1e999"
  | .text spelling => spelling

/-- The place of a number on the number line; a text has none. -/
def inSteps? : IntegerCell → Option Int
  | .whole i => some (i * Double.stepsInOne)
  | .real x => some x.inSteps
  | .text _ => none

/-- Whether a value comes before another in the column, or in the same place: numbers
by size, and after them texts. -/
def le : IntegerCell → IntegerCell → Bool
  | .whole i, .whole j => decide (i ≤ j)
  | .text s, .text t => decide (s ≤ t)
  | a, b =>
    match a.inSteps?, b.inSteps? with
    | some m, some n => decide (m ≤ n)
    | some _, none => true
    | none, _ => false

instance : BEq IntegerCell where
  beq a b := le a b && le b a

/-- The greater of two values. -/
def max (a b : IntegerCell) : IntegerCell :=
  if le a b then b else a

end IntegerCell

end PlanHistory
