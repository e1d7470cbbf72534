/-
Random ids in the form of universally unique identifiers.
-/
import PlanHistory.Sha256

namespace PlanHistory

namespace Uuid

/-- An identifier of the random kind from 32 hexadecimal digits, of which the mark of
the kind and two bits of its variant take the place of six bits. -/
def ofHexDigits (digits : List Char) : String :=
  let variant := ['8', '9', 'a', 'b'][((digits[16]?).getD '0').toNat % 4]?
  let part (first count : Nat) : List Char := (digits.drop first).take count
  String.ofList <|
    part 0 8 ++ '-' :: part 8 4 ++ '-' :: '4' :: part 13 3 ++ '-' :: variant.getD '8' ::
      part 17 3 ++ '-' :: part 20 12

/-- The identifier of a number, from a seed. -/
def ofSeed (seed : ByteArray) (n : Nat) : String :=
  ofHexDigits (Sha256.hex (seed ++ (toString n).toUTF8)).toList

end Uuid

end PlanHistory
