/-
Reading TOML text.

A text is read line by line into statements.  Values nest `Toml.nestingLimit` deep at
most, and a key has no more parts than that; recursion is on the levels left.  Loops
over characters take a bound on their length.
-/
import PlanHistory.Json.Parser
import PlanHistory.Number.Binary64
import PlanHistory.Timestamp
import PlanHistory.Toml.Value

namespace PlanHistory

namespace Toml

/-- How deep arrays and inline tables nest, and how many parts a key has, at most. -/
def nestingLimit : Nat := 79

namespace Read

/-- The characters of comments and strings: all but the control characters, of which
only the tab is one. -/
def isText (c : Char) : Bool :=
  c == '\t' || (0x20 ≤ c.toNat && c.toNat != 0x7F)

/-- The text behind spaces and tabs. -/
def skipBlank (cs : List Char) : List Char :=
  cs.dropWhile fun c => c == ' ' || c == '\t'

/-- The text behind a line ending. -/
def newline? : List Char → Option (List Char)
  | '\n' :: rest => some rest
  | '\r' :: '\n' :: rest => some rest
  | _ => none

/-- The text behind a comment, if one starts here. -/
def skipComment : List Char → List Char
  | '#' :: rest => rest.dropWhile isText
  | rest => rest

/-- The text behind the rest of a line that holds nothing more. -/
def lineEnd? (cs : List Char) : Option (List Char) :=
  match skipComment (skipBlank cs) with
  | [] => some []
  | rest => newline? rest

/-- The text behind blank lines, comments and blank space. -/
def skipLines : Nat → List Char → List Char
  | 0, cs => cs
  | bound + 1, cs =>
    let rest := skipComment (skipBlank cs)
    match newline? rest with
    | some rest => skipLines bound rest
    | none => rest

/-- The character of an escape, behind its backslash. -/
def escape? : List Char → Option (Char × List Char)
  | 'b' :: rest => some ('\x08', rest)
  | 't' :: rest => some ('\t', rest)
  | 'n' :: rest => some ('\n', rest)
  | 'f' :: rest => some ('\x0c', rest)
  | 'r' :: rest => some ('\r', rest)
  | '"' :: rest => some ('"', rest)
  | '\\' :: rest => some ('\\', rest)
  | 'u' :: a :: b :: c :: d :: rest =>
    (Json.Read.unit? a b c d).bind fun n =>
      if n.isValidChar then some (Char.ofNat n, rest) else none
  | 'U' :: a :: b :: c :: d :: e :: f :: g :: h :: rest =>
    match Json.Read.unit? a b c d, Json.Read.unit? e f g h with
    | some high, some low =>
      let n := high * 0x10000 + low
      if n.isValidChar then some (Char.ofNat n, rest) else none
    | _, _ => none
  | _ => none

/-- The rest of a string on one line, up to its closing quote, behind the characters
read so far, last first.  Only double quotes know escapes. -/
def line? (quote : Char) : Nat → List Char → List Char → Option (List Char × List Char)
  | 0, _, _ => none
  | _, _, [] => none
  | bound + 1, read, c :: rest =>
    if c == quote then some (read.reverse, rest)
    else if c == '\\' && quote == '"' then
      match escape? rest with
      | some (char, rest) => line? quote bound (char :: read) rest
      | none => none
    else if isText c then line? quote bound (c :: read) rest
    else none

/-- The rest of a string over several lines, up to three closing quotes; of up to two
quotes more the string holds them.  A backslash before a line ending takes away all
blank space and lines that follow. -/
def lines? (quote : Char) : Nat → List Char → List Char → Option (List Char × List Char)
  | 0, _, _ => none
  | _, _, [] => none
  | bound + 1, read, c :: rest =>
    if c == quote && rest.take 2 == [quote, quote] then
      let more := min 2 ((rest.drop 2).takeWhile (· == quote)).length
      some (read.reverse ++ List.replicate more quote, rest.drop (2 + more))
    else
      match newline? (c :: rest) with
      | some rest => lines? quote bound ('\n' :: read) rest
      | none =>
        if c == '\\' && quote == '"' then
          match newline? (skipBlank rest) with
          | some rest => lines? quote bound read (skipBlankLines bound rest)
          | none =>
            match escape? rest with
            | some (char, rest) => lines? quote bound (char :: read) rest
            | none => none
        else if isText c then lines? quote bound (c :: read) rest
        else none
where
  /-- The text behind blank space and line endings. -/
  skipBlankLines : Nat → List Char → List Char
    | 0, cs => cs
    | bound + 1, cs =>
      match newline? (skipBlank cs) with
      | some rest => skipBlankLines bound rest
      | none => skipBlank cs

/-- A string of either kind of quotes, on one line or over several. -/
def string? (bound : Nat) (quote : Char) (cs : List Char) : Option (String × List Char) :=
  let (body, several) : List Char × Bool :=
    if cs.take 2 == [quote, quote] then (cs.drop 2, true) else (cs, false)
  let result? :=
    if several then lines? quote bound [] ((newline? body).getD body)
    else line? quote bound [] body
  result?.map fun (chars, rest) => (String.ofList chars, rest)

/-- Whether a character may stand in a key without quotes. -/
def isBare (c : Char) : Bool :=
  c.isAlphanum || c == '-' || c == '_'

/-- One part of a key. -/
def keyPart? (bound : Nat) : List Char → Option (String × List Char)
  | '"' :: rest => (line? '"' bound [] rest).map fun (key, rest) => (String.ofList key, rest)
  | '\'' :: rest => (line? '\'' bound [] rest).map fun (key, rest) => (String.ofList key, rest)
  | cs =>
    match cs.takeWhile isBare with
    | [] => none
    | key => some (String.ofList key, cs.dropWhile isBare)

/-- The parts of a dotted key, behind those read so far, last first, at most `count`
more. -/
def key? (bound : Nat) : Nat → List String → List Char → Option (List String × List Char)
  | 0, _, _ => none
  | count + 1, read, cs =>
    match keyPart? bound (skipBlank cs) with
    | none => none
    | some (part, rest) =>
      match skipBlank rest with
      | '.' :: rest => key? bound count (part :: read) rest
      | rest => some ((part :: read).reverse, rest)

/-- Digits with single underscores between them, the underscores left out. -/
def digits? (isDigit : Char → Bool) : List Char → Option (List Char × List Char)
  | [] => none
  | c :: rest => if isDigit c then go [c] rest else none
where
  /-- The digits after the first, behind those read so far, last first. -/
  go (read : List Char) : List Char → Option (List Char × List Char)
    | '_' :: c :: rest => if isDigit c then go (c :: read) rest else none
    | c :: rest =>
      if c == '_' then none
      else if isDigit c then go (c :: read) rest
      else some (read.reverse, c :: rest)
    | [] => some (read.reverse, [])

/-- The value of digits of a base, as large as 16. -/
def ofDigits (base : Nat) (digits : List Char) : Nat :=
  digits.foldl (fun n c => n * base + (Json.Read.hexValue? c).getD 0) 0

/-- Whether a character is a digit of a base, as large as 16. -/
def isDigitOf (base : Nat) (c : Char) : Bool :=
  (Json.Read.hexValue? c).any (· < base)

/-- An integer, if it fits a signed word. -/
def signed? (i : Int) : Option Toml :=
  if -0x8000000000000000 ≤ i ∧ i < 0x8000000000000000 then some (.integer i) else none

/-- An integer in a base other than ten, behind the mark of the base. -/
def based? (base : Nat) (cs : List Char) : Option (Toml × List Char) :=
  (digits? (isDigitOf base) cs).bind fun (digits, rest) =>
    (signed? (ofDigits base digits)).map fun value => (value, rest)

/-- The fraction of a float, behind its point. -/
def fraction? : List Char → Option (List Char × List Char)
  | '.' :: rest => digits? Char.isDigit rest
  | rest => some ([], rest)

/-- The power of ten of a float. -/
def power? (cs : List Char) : Option (Option Int × List Char) :=
  let unsigned (negative : Bool) (cs : List Char) : Option (Option Int × List Char) :=
    (digits? Char.isDigit cs).map fun (digits, rest) =>
      let n := Decimal.ofNumeral digits
      (some (if negative then -(n : Int) else n), rest)
  match cs with
  | mark :: rest =>
    if mark == 'e' || mark == 'E' then
      match rest with
      | '-' :: rest => unsigned true rest
      | '+' :: rest => unsigned false rest
      | rest => unsigned false rest
    else some (none, cs)
  | [] => some (none, [])

/-- A decimal number behind its sign.  A float may not round to infinity, unless it is
negative. -/
def decimal? (negative : Bool) (cs : List Char) : Option (Toml × List Char) :=
  match digits? Char.isDigit cs with
  | none => none
  | some (whole, rest) =>
    if whole.head? == some '0' && whole.length != 1 then none
    else
      match fraction? rest with
      | none => none
      | some (places, rest) =>
        match power? rest with
        | none => none
        | some (power?, rest) =>
          if places.isEmpty && power?.isNone then
            let n := Decimal.ofNumeral whole
            (signed? (if negative then -(n : Int) else n)).map fun value => (value, rest)
          else
            let size : Decimal :=
              ⟨Decimal.ofNumeral (whole ++ places), power?.getD 0 - places.length⟩
            if size.rank?.isNone && !negative then none
            else
              let written := cs.take (cs.length - rest.length)
              let numeral := if negative then '-' :: written else written
              some (.float (String.ofList numeral), rest)

/-- A number behind its sign, infinities and what is no number among them. -/
def unsigned? (negative : Bool) : List Char → Option (Toml × List Char)
  | 'i' :: 'n' :: 'f' :: rest => some (.float (if negative then "-inf" else "inf"), rest)
  | 'n' :: 'a' :: 'n' :: rest => some (.float "nan", rest)
  | cs => decimal? negative cs

/-- The offset of a time from UTC, if there is one. -/
def offset? : List Char → Option (List Char)
  | 'Z' :: rest => some rest
  | 'z' :: rest => some rest
  | '+' :: rest => size? rest
  | '-' :: rest => size? rest
  | rest => some rest
where
  /-- The text behind hours and minutes. -/
  size? (cs : List Char) : Option (List Char) := do
    let (hours, rest) ← Timestamp.digits? 2 cs
    match rest with
    | ':' :: rest =>
      let (minutes, rest) ← Timestamp.digits? 2 rest
      if hours ≤ 23 && minutes ≤ 59 then some rest else none
    | _ => none

/-- The text behind a time of day with its fraction. -/
def timeOfDay? (cs : List Char) : Option (List Char) := do
  let (_, rest) ← Timestamp.timeOfDay? cs
  let (_, rest) ← Timestamp.fraction? rest
  some rest

/-- Whether a text starts with an hour and a colon. -/
def startsTime : List Char → Bool
  | a :: b :: ':' :: _ => a.isDigit && b.isDigit
  | _ => false

/-- The text behind a date, and behind a time of day with or without offset if one
follows. -/
def date? (cs : List Char) : Option (List Char) := do
  let (_, rest) ← Timestamp.date? cs
  match rest with
  | parting :: later =>
    if (parting == 'T' || parting == 't' || parting == ' ') && startsTime later then
      (timeOfDay? later).bind offset?
    else some rest
  | [] => some rest

/-- A date, a time of day or a number. -/
def numeral? (cs : List Char) : Option (Toml × List Char) :=
  let time (rest? : Option (List Char)) : Option (Toml × List Char) :=
    rest?.map fun rest => (.time (String.ofList (cs.take (cs.length - rest.length))), rest)
  match cs with
  | a :: b :: c :: d :: '-' :: _ =>
    if [a, b, c, d].all Char.isDigit then time (date? cs) else number? cs
  | a :: b :: ':' :: _ => if [a, b].all Char.isDigit then time (timeOfDay? cs) else number? cs
  | _ => number? cs
where
  /-- A number. -/
  number? : List Char → Option (Toml × List Char)
    | '0' :: 'x' :: rest => based? 16 rest
    | '0' :: 'o' :: rest => based? 8 rest
    | '0' :: 'b' :: rest => based? 2 rest
    | '-' :: rest => unsigned? true rest
    | '+' :: rest => unsigned? false rest
    | rest => unsigned? false rest

/-- The items of an array up to its closing bracket, behind those read so far, last
first. -/
def items? (item? : List Char → Option (Toml × List Char)) (bound : Nat) :
    Nat → List Toml → List Char → Option (List Toml × List Char)
  | 0, _, _ => none
  | count + 1, read, cs =>
    match skipLines bound cs with
    | ']' :: rest => some (read.reverse, rest)
    | cs =>
      match item? cs with
      | none => none
      | some (item, rest) =>
        match skipLines bound rest with
        | ',' :: rest => items? item? bound count (item :: read) rest
        | ']' :: rest => some ((item :: read).reverse, rest)
        | _ => none

/-- A key and its value. -/
def pair? (value? : List Char → Option (Toml × List Char)) (bound : Nat) (cs : List Char) :
    Option ((List String × Toml) × List Char) :=
  match key? bound nestingLimit [] cs with
  | some (path, '=' :: rest) =>
    (value? (skipBlank rest)).map fun (value, rest) => ((path, value), rest)
  | _ => none

/-- The pairs of an inline table up to its closing brace: at least one, behind those
read so far, last first. -/
def pairs? (value? : List Char → Option (Toml × List Char)) (bound : Nat) :
    Nat → List (List String × Toml) → List Char →
      Option (List (List String × Toml) × List Char)
  | 0, _, _ => none
  | count + 1, read, cs =>
    match pair? value? bound cs with
    | none => none
    | some (pair, rest) =>
      match skipBlank rest with
      | ',' :: rest => pairs? value? bound count (pair :: read) rest
      | '}' :: rest => some ((pair :: read).reverse, rest)
      | _ => none

/-- A value nesting at most `levels` deep, and the text behind it. -/
def value? (bound : Nat) (levels : Nat) (cs : List Char) : Option (Toml × List Char) :=
  match cs with
  | '"' :: rest => (string? bound '"' rest).map fun (chars, rest) => (.text chars, rest)
  | '\'' :: rest => (string? bound '\'' rest).map fun (chars, rest) => (.text chars, rest)
  | 't' :: 'r' :: 'u' :: 'e' :: rest => some (.boolean true, rest)
  | 'f' :: 'a' :: 'l' :: 's' :: 'e' :: rest => some (.boolean false, rest)
  | '[' :: rest =>
    match levels with
    | 0 => none
    | levels + 1 =>
      (items? (value? bound levels) bound bound [] rest).map fun (items, rest) =>
        (.array items, rest)
  | '{' :: rest =>
    match levels with
    | 0 => none
    | levels + 1 =>
      match skipBlank rest with
      | '}' :: rest => some (.table .inline [], rest)
      | rest =>
        (pairs? (value? bound levels) bound bound [] rest).bind fun (pairs, rest) =>
          (ofPairs? pairs).map fun entries => (.table .inline entries, rest)
  | rest => numeral? rest
termination_by structural levels

/-- One statement, from its first character to the end of its line. -/
def statement? (bound : Nat) (cs : List Char) : Option (TomlStatement × List Char) :=
  match cs with
  | '[' :: '[' :: rest =>
    match key? bound nestingLimit [] rest with
    | some (path, ']' :: ']' :: rest) => (lineEnd? rest).map fun rest => (.tables path, rest)
    | _ => none
  | '[' :: rest =>
    match key? bound nestingLimit [] rest with
    | some (path, ']' :: rest) => (lineEnd? rest).map fun rest => (.table path, rest)
    | _ => none
  | cs =>
    match pair? (value? bound nestingLimit) bound cs with
    | some ((path, value), rest) => (lineEnd? rest).map fun rest => (.entry path value, rest)
    | none => none

/-- The statements of a text, behind those read so far, last first. -/
def statements? (bound : Nat) :
    Nat → List TomlStatement → List Char → Option (List TomlStatement)
  | 0, _, _ => none
  | count + 1, read, cs =>
    match skipLines bound cs with
    | [] => some read.reverse
    | cs =>
      match statement? bound cs with
      | none => none
      | some (statement, rest) => statements? bound count (statement :: read) rest

end Read

/-- The document that a text spells, if it is TOML.  A byte order mark at the start
does not count. -/
def parse? (text : String) : Option Entries :=
  let cs :=
    match text.toList with
    | '\ufeff' :: rest => rest
    | cs => cs
  (Read.statements? (cs.length + 1) (cs.length + 1) [] cs).bind ofStatements?

end Toml

end PlanHistory
