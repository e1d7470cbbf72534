/-
Text in lowercase, and search that does not mind letter case.

Each letter is mapped by the Unicode table, with two exceptions: `İ` becomes two
characters, and a capital sigma becomes `ς` at the end of a word and `σ` elsewhere.
-/
import PlanHistory.Text.CharRange
import PlanHistory.Text.LetterCase

namespace PlanHistory

namespace Text

/-- Whether the nearest character that is not ignorable is a letter with case. -/
def meetsCased (cs : List Char) : Bool :=
  match cs.dropWhile (isWithin caseIgnorableRanges) with
  | c :: _ => isWithin casedRanges c
  | [] => false

/-- Whether a sigma between two texts ends a word; the text before it is given from
its end. -/
def isFinal (before after : List Char) : Bool :=
  meetsCased before && !meetsCased after

/-- A letter in lowercase, the surroundings aside. -/
def lowerChar (c : Char) : List Char :=
  if c = 'İ' then ['i', '\u0307']
  else
    match lowercaseRuns.find? fun run =>
      run.first ≤ c.toNat && c.toNat ≤ run.last && (c.toNat - run.first) % run.step == 0 with
    | some run => [Char.ofNat (c.toNat + run.shift).toNat]
    | none => [c]

/-- Characters in lowercase, behind those of `before`, which are given from the end. -/
def lowerChars (before : List Char) : List Char → List Char
  | [] => []
  | c :: rest =>
    let lower := if c = 'Σ' then [if isFinal before rest then 'ς' else 'σ'] else lowerChar c
    lower ++ lowerChars (c :: before) rest

/-- A text in lowercase. -/
def lower (text : String) : String :=
  String.ofList (lowerChars [] text.toList)

/-- Whether a text occurs in another. -/
def occursIn (part : List Char) : List Char → Bool
  | [] => part.isEmpty
  | c :: rest => part.isPrefixOf (c :: rest) || occursIn part rest

/-- Whether a text occurs in another, letter case aside. -/
def matchesQuery (query text : String) : Bool :=
  occursIn (lower query).toList (lower text).toList

end Text

end PlanHistory
