/-
TOML documents as values.

A document is a sequence of statements: headers that open a table or add one to an
array of tables, and entries under dotted keys.  `Toml.ofStatements?` carries them out
in order; it fails where a statement would define a key or a table twice or reach into
a value that is closed.
-/
namespace PlanHistory

/-- How a table came about, which decides how it may grow. -/
inductive TableOrigin where
  /-- By a header of its own. -/
  | header
  /-- On the way to a table with a header. -/
  | implied
  /-- On the way of a dotted key. -/
  | dotted
  /-- Between braces; such a table is closed. -/
  | inline
deriving DecidableEq, Repr

/-- A TOML value.  Floats and times are kept as they are written. -/
inductive Toml where
  | text (value : String)
  | integer (value : Int)
  | float (numeral : String)
  | boolean (value : Bool)
  | time (numeral : String)
  | array (items : List Toml)
  | table (origin : TableOrigin) (entries : List (String × Toml))
  /-- An array of tables, the last of which is open. -/
  | tables (earlier : List Toml) (last : List (String × Toml))

/-- A statement of a TOML document. -/
inductive TomlStatement where
  | table (path : List String)
  | tables (path : List String)
  | entry (path : List String) (value : Toml)

namespace Toml

/-- The entries of a table. -/
abbrev Entries := List (String × Toml)

/-- Replace the value under a key that is there. -/
def replace (key : String) (value : Toml) (entries : Entries) : Entries :=
  entries.map fun entry => if entry.1 == key then (key, value) else entry

/-- Put a value under a dotted key.  The tables on the way may be there from dotted
keys, and, but for the last of them, from headers of tables further in. -/
def assign : List String → Toml → Entries → Option Entries
  | [], _, _ => none
  | [key], value, entries =>
    if (entries.lookup key).isSome then none else some (entries ++ [(key, value)])
  | key :: path, value, entries =>
    match entries.lookup key with
    | none =>
      (assign path value []).map fun inner => entries ++ [(key, .table .dotted inner)]
    | some (.table .dotted inner) =>
      (assign path value inner).map fun inner => replace key (.table .dotted inner) entries
    | some (.table .implied inner) =>
      if path.length == 1 then none
      else (assign path value inner).map fun inner => replace key (.table .implied inner) entries
    | some (.tables earlier last) =>
      if path.length == 1 then none
      else (assign path value last).map fun last => replace key (.tables earlier last) entries
    | some _ => none

/-- Carry out a change at the end of a path of tables; those that are not there are
implied. -/
def atPath (change : String → Entries → Option Entries) :
    List String → Entries → Option Entries
  | [], _ => none
  | [key], entries => change key entries
  | key :: path, entries =>
    match entries.lookup key with
    | none =>
      (atPath change path []).map fun inner => entries ++ [(key, .table .implied inner)]
    | some (.table .inline _) => none
    | some (.table origin inner) =>
      (atPath change path inner).map fun inner => replace key (.table origin inner) entries
    | some (.tables earlier last) =>
      (atPath change path last).map fun last => replace key (.tables earlier last) entries
    | some _ => none

/-- Open a table by its header: a new one, or one that was only implied. -/
def openTable (key : String) (entries : Entries) : Option Entries :=
  match entries.lookup key with
  | none => some (entries ++ [(key, .table .header [])])
  | some (.table .implied inner) => some (replace key (.table .header inner) entries)
  | some _ => none

/-- Add a table to an array of tables. -/
def addTable (key : String) (entries : Entries) : Option Entries :=
  match entries.lookup key with
  | none => some (entries ++ [(key, .tables [] [])])
  | some (.tables earlier last) =>
    some (replace key (.tables (earlier ++ [.table .header last]) []) entries)
  | some _ => none

/-- Carry out a change in the table at the end of a path. -/
def within (change : Entries → Option Entries) : List String → Entries → Option Entries
  | [], entries => change entries
  | key :: path, entries =>
    match entries.lookup key with
    | some (.table origin inner) =>
      (within change path inner).map fun inner => replace key (.table origin inner) entries
    | some (.tables earlier last) =>
      (within change path last).map fun last => replace key (.tables earlier last) entries
    | _ => none

/-- Carry out statements on a document, entries going to the table opened last. -/
def carryOut (current : List String) (document : Entries) : List TomlStatement → Option Entries
  | [] => some document
  | .table path :: rest =>
    (atPath openTable path document).bind fun document => carryOut path document rest
  | .tables path :: rest =>
    (atPath addTable path document).bind fun document => carryOut path document rest
  | .entry path value :: rest =>
    (within (assign path value) current document).bind fun document =>
      carryOut current document rest

/-- The document that statements make. -/
def ofStatements? (statements : List TomlStatement) : Option Entries :=
  carryOut [] [] statements

/-- The table that dotted keys and values between braces make. -/
def ofPairs? (pairs : List (List String × Toml)) : Option Entries :=
  pairs.foldlM (fun entries pair => assign pair.1 pair.2 entries) []

end Toml

end PlanHistory
