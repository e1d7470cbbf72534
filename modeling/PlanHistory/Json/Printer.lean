/-
JSON values as text.

* **`Json.canonical`** — the canonical form: no blank space, members by ascending
  key, the fewest escapes, the shortest floats.  Contents are stored and hashed in
  this form.
* **`Json.indented`** — the same with one member or item a line, for readers.
-/
import PlanHistory.Json.Value

namespace PlanHistory

namespace Json

/-- The lowercase hexadecimal digit of a number below sixteen. -/
def hexDigit (n : Nat) : Char :=
  Nat.digitChar n

/-- A character as it stands between quotes.  Quote, backslash and the control
characters are escaped, all else stands for itself. -/
def escape (c : Char) : List Char :=
  if c = '"' then ['\\', '"']
  else if c = '\\' then ['\\', '\\']
  else if c = '\n' then ['\\', 'n']
  else if c = '\r' then ['\\', 'r']
  else if c = '\t' then ['\\', 't']
  else if c = '\x08' then ['\\', 'b']
  else if c = '\x0c' then ['\\', 'f']
  else if c.toNat < 0x20 then
    ['\\', 'u', '0', '0', hexDigit (c.toNat / 16), hexDigit (c.toNat % 16)]
  else [c]

/-- A text between quotes. -/
def quoted (text : String) : List Char :=
  '"' :: text.toList.flatMap escape ++ ['"']

/-- A number in canonical form. -/
def numberChars : Number → List Char
  | .whole i => Decimal.signedNumeral i.val
  | .float x => x.render Layout.json

mutual

/-- The characters of the canonical form. -/
def chars : Json → List Char
  | .null => ['n', 'u', 'l', 'l']
  | .bool true => ['t', 'r', 'u', 'e']
  | .bool false => ['f', 'a', 'l', 's', 'e']
  | .number n => numberChars n
  | .string s => quoted s
  | .array [] => ['[', ']']
  | .array (item :: items) => '[' :: chars item ++ itemChars items
  | .object [] => ['{', '}']
  | .object ((key, value) :: members) =>
    '{' :: quoted key ++ ':' :: chars value ++ memberChars members

/-- The items after the first, and the closing bracket. -/
def itemChars : List Json → List Char
  | [] => [']']
  | item :: items => ',' :: chars item ++ itemChars items

/-- The members after the first, and the closing brace. -/
def memberChars : List (String × Json) → List Char
  | [] => ['}']
  | (key, value) :: members =>
    ',' :: quoted key ++ ':' :: chars value ++ memberChars members

end

/-- The canonical form. -/
def canonical (value : Json) : String :=
  String.ofList value.chars

/-- A new line at nesting level `level`, two spaces a level. -/
def newLine (level : Nat) : List Char :=
  '\n' :: List.replicate (2 * level) ' '

mutual

/-- The characters of the indented form at nesting level `level`. -/
def indentedChars (level : Nat) : Json → List Char
  | .array (item :: items) =>
    '[' :: newLine (level + 1) ++ indentedChars (level + 1) item
      ++ indentedItems level items
  | .object ((key, value) :: members) =>
    '{' :: newLine (level + 1) ++ quoted key ++ ':' :: ' '
      :: indentedChars (level + 1) value ++ indentedMembers level members
  | value => chars value

/-- The items after the first, and the closing bracket on its own line. -/
def indentedItems (level : Nat) : List Json → List Char
  | [] => newLine level ++ [']']
  | item :: items =>
    ',' :: newLine (level + 1) ++ indentedChars (level + 1) item
      ++ indentedItems level items

/-- The members after the first, and the closing brace on its own line. -/
def indentedMembers (level : Nat) : List (String × Json) → List Char
  | [] => newLine level ++ ['}']
  | (key, value) :: members =>
    ',' :: newLine (level + 1) ++ quoted key ++ ':' :: ' '
      :: indentedChars (level + 1) value ++ indentedMembers level members

end

/-- The form for readers: one member or item a line, empty containers closed up. -/
def indented (value : Json) : String :=
  String.ofList (value.indentedChars 0)

end Json

end PlanHistory
