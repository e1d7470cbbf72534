/-
Addresses of table files.

A path that starts with `file:` is an address: a path, parameters behind a question mark
and a remark behind a number sign.  A percent sign with two hexadecimal digits spells a
byte of any part, but never one of the signs that separate parts.  Any other path is an
address without parameters.

* **`TableAddress.ofPath`** — where the tables are and what may be done with them;
* **`TableAddress.Defect`** — why an address leads nowhere.
-/
import PlanHistory.Json.Parser

namespace PlanHistory

/-- What may be done with a table file. -/
inductive TableAccess where
  /-- It is read and written, and made if it is not there. -/
  | create
  | write
  | read
  /-- There is no file; the tables last as long as the program runs. -/
  | memory
deriving DecidableEq, Repr

/-- How much an access allows; a parameter may only ask for less. -/
def TableAccess.reach : TableAccess → Nat
  | .read => 1
  | .write => 2
  | .create => 6
  | .memory => 128

/-- Where the tables are and what may be done with them. -/
structure TableAddress where
  path : String
  access : TableAccess
  /-- Nobody else changes the file, and nobody here does. -/
  immutable : Bool
deriving DecidableEq, Repr

namespace TableAddress

/-- Why an address leads nowhere. -/
inductive Defect where
  /-- It names another machine. -/
  | authority (machine : String)
  | accessMode (name : String)
  /-- It asks for more access than it has asked for before. -/
  | widerAccess (name : String)
  | cacheMode (name : String)
  | driver (name : String)
deriving DecidableEq, Repr

/-- The defect as text. -/
def Defect.message : Defect → String
  | .authority machine => s!"invalid uri authority: {machine}"
  | .accessMode name => s!"no such access mode: {name}"
  | .widerAccess name => s!"access mode not allowed: {name}"
  | .cacheMode name => s!"no such cache mode: {name}"
  | .driver name => s!"no such vfs: {name}"

/-- The bytes that a part of an address spells; a zero byte hides what is behind it. -/
def octets : List Char → List UInt8
  | [] => []
  | '%' :: high :: low :: rest =>
    match Json.Read.hexValue? high, Json.Read.hexValue? low with
    | some high, some low =>
      if high = 0 ∧ low = 0 then [] else UInt8.ofNat (high * 16 + low) :: octets rest
    | _, _ => 0x25 :: octets (high :: low :: rest)
  | c :: rest => String.utf8EncodeChar c ++ octets rest

/-- The text that a part of an address spells; bytes that are no text stay spelled. -/
def spelled (part : List Char) : String :=
  (String.fromUTF8? ⟨(octets part).toArray⟩).getD (String.ofList part)

/-- What stands before the first of a separator, and what stands behind it. -/
def cut (separator : Char) (cs : List Char) : List Char × List Char :=
  (cs.takeWhile (· != separator), (cs.dropWhile (· != separator)).drop 1)

/-- The parts that a separator keeps apart. -/
def pieces (separator : Char) : List Char → List (List Char)
  | [] => [[]]
  | c :: rest =>
    match pieces separator rest with
    | [] => [[c]]
    | piece :: more => if c == separator then [] :: piece :: more else (c :: piece) :: more

/-- The parameters behind the question mark; one without a name does not count. -/
def parameters (query : List Char) : List (String × String) :=
  let all := (pieces '&' query).map fun piece =>
    let (name, value) := cut '=' piece
    (spelled name, spelled value)
  all.filter fun parameter => !parameter.1.isEmpty

/-- The drivers of table files. -/
def drivers : List String :=
  ["unix", "unix-none", "unix-dotfile", "unix-excl", "memdb"]

/-- The access that a mode stands for. -/
def mode? : String → Option TableAccess
  | "ro" => some .read
  | "rw" => some .write
  | "rwc" => some .create
  | "memory" => some .memory
  | _ => none

/-- What parameters ask for: the access, and a driver if one is named. -/
def settle : TableAccess → Option String → List (String × String) →
    Except Defect (TableAccess × Option String)
  | access, driver?, [] => .ok (access, driver?)
  | access, driver?, (name, value) :: more =>
    match name with
    | "vfs" => settle access (some value) more
    | "mode" =>
      match mode? value with
      | none => .error (.accessMode value)
      | some asked =>
        if asked ≠ .memory ∧ access.reach < asked.reach then .error (.widerAccess value)
        else settle asked driver? more
    | "cache" =>
      if value = "shared" ∨ value = "private" then settle access driver? more
      else .error (.cacheMode value)
    | _ => settle access driver? more

/-- Whether a value says yes. -/
def isYes (value : String) : Bool :=
  match value.toList.takeWhile Char.isDigit with
  | [] => ["on", "yes", "true"].contains value.toLower
  | digits => Decimal.ofNumeral digits % 256 != 0

/-- An address without its scheme. -/
def ofBody (body : List Char) : Except Defect TableAddress := do
  let body ←
    match body with
    | '/' :: '/' :: rest =>
      let machine := String.ofList (rest.takeWhile (· != '/'))
      if machine = "" ∨ machine = "localhost" then pure (rest.dropWhile (· != '/'))
      else throw (Defect.authority machine)
    | body => pure body
  let (path, query) := cut '?' (body.takeWhile (· != '#'))
  let path := spelled path
  let asked := parameters query
  let (access, driver?) ← settle .create none asked
  match driver? with
  | none => pure ()
  | some driver => if !drivers.contains driver then throw (Defect.driver driver)
  let isKept := path != "" && path != ":memory:" && driver? != some "memdb"
  return ⟨path, if isKept then access else .memory, (asked.lookup "immutable").any isYes⟩

/-- Where a path leads. -/
def ofPath (path : String) : Except Defect TableAddress :=
  match path.toList with
  | 'f' :: 'i' :: 'l' :: 'e' :: ':' :: body => ofBody body
  | _ => .ok ⟨path, .create, false⟩

end TableAddress

end PlanHistory
