/-
Decimals in scientific form, read from text and laid out as text.

A decimal is a whole number of digits and a power of ten.  How its digits are
spelled out — where plain notation ends, whether a whole number shows a fraction
— is a `Layout`, so the same digits serve every format of the library:

* **`Layout.json`** — plain from 10⁻⁵ to 10¹⁵, always with a fractional digit;
* **`Layout.plain`** — never an exponent, no fraction on whole numbers.

`Decimal.ofUnsigned?` reads the numeral of a decimal without sign, and `Decimal.clip`
keeps only as many of its leading digits as a reader counts.
-/
namespace PlanHistory

/-- The number `digits * 10 ^ exponent`. -/
structure Decimal where
  digits : Nat
  exponent : Int
deriving DecidableEq, Repr

/-- How the digits of a decimal are spelled out. -/
structure Layout where
  /-- The least and the greatest power of ten of the leading digit that are written
  without an exponent; `none` writes every number so. -/
  plainRange : Option (Int × Int)
  /-- What a whole number in plain notation ends in. -/
  wholeEnding : List Char

namespace Layout

/-- Numbers in a document: an exponent outside 10⁻⁵ … 10¹⁵, and a fractional digit
that keeps a float apart from an integer. -/
def json : Layout := ⟨some (-5, 15), ['.', '0']⟩

/-- Numbers shown to a reader: every digit in its place. -/
def plain : Layout := ⟨none, []⟩

/-- Whether a number whose leading digit stands at 10 ^ `lead` needs no exponent. -/
def isPlain (layout : Layout) (lead : Int) : Bool :=
  match layout.plainRange with
  | none => true
  | some (least, greatest) => least ≤ lead && lead ≤ greatest

end Layout

namespace Decimal

/-- The decimal numeral of a natural number. -/
def numeral (n : Nat) : List Char :=
  Nat.toDigits 10 n

/-- The decimal numeral of an integer. -/
def signedNumeral (i : Int) : List Char :=
  if i < 0 then '-' :: numeral i.natAbs else numeral i.natAbs

/-- The number that a run of decimal digits spells. -/
def ofNumeral (digits : List Char) : Nat :=
  Nat.ofDigitChars 10 digits 0

/-- The power of ten at which the leading digit stands. -/
def lead (d : Decimal) : Int :=
  (numeral d.digits).length - 1 + d.exponent

/-- Every digit in its place, around a point if there is a fraction. -/
def positional (layout : Layout) (d : Decimal) : List Char :=
  let digits := numeral d.digits
  let lead := d.lead
  if lead < 0 then
    '0' :: '.' :: List.replicate (-lead - 1).toNat '0' ++ digits
  else if digits.length ≤ lead.toNat + 1 then
    digits ++ List.replicate (lead.toNat + 1 - digits.length) '0' ++ layout.wholeEnding
  else
    digits.take (lead.toNat + 1) ++ '.' :: digits.drop (lead.toNat + 1)

/-- One digit before the point and a signed power of ten behind. -/
def scientific (d : Decimal) : List Char :=
  let lead := d.lead
  let power := if lead < 0 then '-' :: numeral lead.natAbs else '+' :: numeral lead.natAbs
  match numeral d.digits with
  | [] => 'e' :: power
  | [digit] => digit :: 'e' :: power
  | digit :: more => digit :: '.' :: more ++ 'e' :: power

/-- The decimal as text under a layout. -/
def render (layout : Layout) (d : Decimal) : List Char :=
  if layout.isPlain d.lead then d.positional layout else d.scientific

/-- The power of ten behind a mantissa: an optional sign and at least one digit. -/
def power? (cs : List Char) : Option (Int × List Char) :=
  let unsigned (cs : List Char) : Option (Nat × List Char) :=
    match cs.takeWhile Char.isDigit with
    | [] => none
    | digits => some (ofNumeral digits, cs.dropWhile Char.isDigit)
  match cs with
  | '-' :: rest => (unsigned rest).map fun (n, rest) => (-(n : Int), rest)
  | '+' :: rest => (unsigned rest).map fun (n, rest) => ((n : Int), rest)
  | rest => (unsigned rest).map fun (n, rest) => ((n : Int), rest)

/-- The decimal that a numeral without sign spells: digits on at least one side of its
point, if it has one, and perhaps a power of ten behind. -/
def ofUnsigned? (cs : List Char) : Option Decimal :=
  let whole := cs.takeWhile Char.isDigit
  let (places, rest) : List Char × List Char :=
    match cs.dropWhile Char.isDigit with
    | '.' :: rest => (rest.takeWhile Char.isDigit, rest.dropWhile Char.isDigit)
    | rest => ([], rest)
  let power? : Option Int :=
    match rest with
    | [] => some 0
    | mark :: rest =>
      if mark == 'e' || mark == 'E' then
        match power? rest with
        | some (power, []) => some power
        | _ => none
      else none
  if whole.isEmpty && places.isEmpty then none
  else power?.map fun power => ⟨ofNumeral (whole ++ places), power - places.length⟩

/-- The decimal with the digits after the first that bring it to `bound` read as
zeros. -/
def clip (bound : Nat) (d : Decimal) : Decimal :=
  if d.digits / 10 < bound || d.digits = 0 then d
  else clip bound ⟨d.digits / 10, d.exponent + 1⟩
termination_by d.digits
decreasing_by simp_all; omega

end Decimal

end PlanHistory
