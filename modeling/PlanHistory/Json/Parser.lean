/-
Reading JSON text.

The grammar is the strict one: blank space is space, tab, line feed and carriage
return; no trailing commas, no leading zeros, no raw control characters in strings,
surrogate escapes only in pairs.  Three further rules settle what a text means:

* an integer numeral that fits a 64-bit word is an integer, any other numeral a
  double, correctly rounded, and `-0` is a negative zero;
* a numeral that rounds to infinity is refused;
* containers nest `nestingLimit` deep at most.

Recursion is on the levels of nesting left; the items of one container are read by a
loop that is handed the reader for one level further in.
-/
import PlanHistory.Json.Value

namespace PlanHistory

namespace Json

/-- How deep arrays and objects may nest in a text. -/
def nestingLimit : Nat := 127

namespace Read

/-- The blank space between tokens. -/
def isBlank (c : Char) : Bool :=
  c == ' ' || c == '\t' || c == '\n' || c == '\r'

/-- The text behind leading blank space. -/
def skipBlank (cs : List Char) : List Char :=
  cs.dropWhile isBlank

/-- The value of a hexadecimal digit of either case. -/
def hexValue? (c : Char) : Option Nat :=
  if '0' ≤ c ∧ c ≤ '9' then some (c.toNat - '0'.toNat)
  else if 'a' ≤ c ∧ c ≤ 'f' then some (c.toNat - 'a'.toNat + 10)
  else if 'A' ≤ c ∧ c ≤ 'F' then some (c.toNat - 'A'.toNat + 10)
  else none

/-- The 16-bit unit spelled by four hexadecimal digits. -/
def unit? (a b c d : Char) : Option Nat :=
  match hexValue? a, hexValue? b, hexValue? c, hexValue? d with
  | some a, some b, some c, some d => some (((a * 16 + b) * 16 + c) * 16 + d)
  | _, _, _, _ => none

/-- The character of a one-letter escape. -/
def escaped? : Char → Option Char
  | '"' => some '"'
  | '\\' => some '\\'
  | '/' => some '/'
  | 'b' => some '\x08'
  | 'f' => some '\x0c'
  | 'n' => some '\n'
  | 'r' => some '\r'
  | 't' => some '\t'
  | _ => none

/-- The rest of a string up to its closing quote, behind the characters read so far,
last first. -/
def string? (read : List Char) : List Char → Option (List Char × List Char)
  | '"' :: rest => some (read.reverse, rest)
  | '\\' :: 'u' :: a :: b :: c :: d :: rest =>
    match unit? a b c d with
    | none => none
    | some unit =>
      if 0xDC00 ≤ unit ∧ unit ≤ 0xDFFF then none
      else if 0xD800 ≤ unit ∧ unit ≤ 0xDBFF then
        match rest with
        | '\\' :: 'u' :: e :: f :: g :: h :: rest =>
          match unit? e f g h with
          | none => none
          | some low =>
            if 0xDC00 ≤ low ∧ low ≤ 0xDFFF then
              string? (Char.ofNat (0x10000 + (unit - 0xD800) * 0x400 + (low - 0xDC00)) :: read) rest
            else none
        | _ => none
      else string? (Char.ofNat unit :: read) rest
  | '\\' :: c :: rest =>
    match escaped? c with
    | none => none
    | some char => string? (char :: read) rest
  | c :: rest => if c.toNat < 0x20 then none else string? (c :: read) rest
  | [] => none

/-- The fraction of a numeral: nothing, or a point and at least one digit. -/
def fraction? : List Char → Option (List Char × List Char)
  | '.' :: rest =>
    match rest.takeWhile Char.isDigit with
    | [] => none
    | digits => some (digits, rest.dropWhile Char.isDigit)
  | rest => some ([], rest)

/-- The power of ten of a numeral: nothing, or a mark and a signed number. -/
def power? : List Char → Option (Option Int × List Char)
  | 'e' :: rest => (Decimal.power? rest).map fun (power, rest) => (some power, rest)
  | 'E' :: rest => (Decimal.power? rest).map fun (power, rest) => (some power, rest)
  | rest => some (none, rest)

/-- The integer that a numeral without fraction and power spells, if it fits a word
and is no negative zero. -/
def wideInt? (negative : Bool) (size : Nat) : Option WideInt :=
  if negative && size == 0 then none
  else
    let i : Int := if negative then -size else size
    if h : -0x8000000000000000 ≤ i ∧ i < 0x10000000000000000 then some ⟨i, h⟩ else none

/-- A numeral behind its sign. -/
def unsigned? (negative : Bool) (cs : List Char) : Option (Number × List Char) :=
  let digits := cs.takeWhile Char.isDigit
  if digits.isEmpty || (digits.head? == some '0' && digits.length != 1) then none
  else
    match fraction? (cs.dropWhile Char.isDigit) with
    | none => none
    | some (places, rest) =>
      match power? rest with
      | none => none
      | some (power?, rest) =>
        let float? : Option Number :=
          (Decimal.toBinary64? negative
            ⟨Decimal.ofNumeral (digits ++ places), power?.getD 0 - places.length⟩).map .float
        let number? : Option Number :=
          if places.isEmpty && power?.isNone then
            match wideInt? negative (Decimal.ofNumeral digits) with
            | some i => some (.whole i)
            | none => float?
          else float?
        number?.map fun number => (number, rest)

/-- A numeral. -/
def number? : List Char → Option (Number × List Char)
  | '-' :: rest => unsigned? true rest
  | rest => unsigned? false rest

/-- The items of an array up to its closing bracket: at least one, each read by
`item?`, behind those read so far, last first.  At most `bound` items are read. -/
def items? (item? : List Char → Option (Json × List Char)) :
    Nat → List Json → List Char → Option (List Json × List Char)
  | 0, _, _ => none
  | bound + 1, read, cs =>
    match item? cs with
    | none => none
    | some (item, rest) =>
      match skipBlank rest with
      | ',' :: rest => items? item? bound (item :: read) rest
      | ']' :: rest => some ((item :: read).reverse, rest)
      | _ => none

/-- The members of an object up to its closing brace: at least one, the last value of
a repeated key kept.  At most `bound` members are read. -/
def members? (value? : List Char → Option (Json × List Char)) :
    Nat → Keyed Json → List Char → Option (Keyed Json × List Char)
  | 0, _, _ => none
  | bound + 1, read, cs =>
    match skipBlank cs with
    | '"' :: rest =>
      match string? [] rest with
      | none => none
      | some (key, rest) =>
        match skipBlank rest with
        | ':' :: rest =>
          match value? rest with
          | none => none
          | some (value, rest) =>
            let read := Keyed.insert (String.ofList key) value read
            match skipBlank rest with
            | ',' :: rest => members? value? bound read rest
            | '}' :: rest => some (read, rest)
            | _ => none
        | _ => none
    | _ => none

/-- A value nesting at most `levels` deep, and the text behind it.  Containers of a
text of length `bound` hold no more than `bound` entries. -/
def value? (bound : Nat) (levels : Nat) (cs : List Char) : Option (Json × List Char) :=
  match skipBlank cs with
  | 'n' :: 'u' :: 'l' :: 'l' :: rest => some (.null, rest)
  | 't' :: 'r' :: 'u' :: 'e' :: rest => some (.bool true, rest)
  | 'f' :: 'a' :: 'l' :: 's' :: 'e' :: rest => some (.bool false, rest)
  | '"' :: rest => (string? [] rest).map fun (text, rest) => (.string (String.ofList text), rest)
  | '[' :: rest =>
    match levels with
    | 0 => none
    | levels + 1 =>
      match skipBlank rest with
      | ']' :: rest => some (.array [], rest)
      | rest =>
        (items? (value? bound levels) bound [] rest).map fun (items, rest) =>
          (.array items, rest)
  | '{' :: rest =>
    match levels with
    | 0 => none
    | levels + 1 =>
      match skipBlank rest with
      | '}' :: rest => some (.object [], rest)
      | rest =>
        (members? (value? bound levels) bound [] rest).map fun (members, rest) =>
          (.object members, rest)
  | rest => (number? rest).map fun (n, rest) => (.number n, rest)
termination_by structural levels

end Read

/-- The value that a whole text spells, if it is JSON. -/
def ofChars? (cs : List Char) : Option Json :=
  match Read.value? (cs.length + 1) nestingLimit cs with
  | some (value, rest) => if (Read.skipBlank rest).isEmpty then some value else none
  | none => none

/-- The value that a text spells, if it is JSON. -/
def parse? (text : String) : Option Json :=
  ofChars? text.toList

/-- The value that bytes spell, if they are JSON in UTF-8. -/
def ofBytes? (bytes : ByteArray) : Option Json :=
  (String.fromUTF8? bytes).bind parse?

end Json

end PlanHistory
