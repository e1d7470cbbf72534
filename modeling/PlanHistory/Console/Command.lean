/-
The commands of the program and how a command line gives them.
-/
import PlanHistory.Console.Options
import PlanHistory.Number.Unsigned
import PlanHistory.Repository.Operation
import PlanHistory.Text.Blank

namespace PlanHistory

/-- What the program is asked to do. -/
inductive Command where
  /-- Write the standard settings to a file. -/
  | init (output : String)
  | commit (plan : PlanId) (file branch message : String) (parent? : Option String)
      (kind : VersionKind)
  | listVersions (plan : PlanId) (branch? : Option String) (limit : Nat)
  | showVersion (version : String)
  | showContent (version : String) (indented : Bool)
  | verify (version : String)
  | restore (version branch : String) (message? : Option String)
  | createBranch (name : String) (plan : PlanId) (base : String) (description? : Option String)
  | listBranches (plan : PlanId)
  | openMerge (source target : String) (plan : PlanId) (description? : Option String)
  | showMerge (merge : String)
  | listMerges (plan : PlanId) (status? : Option MergeStatus)
  | resolve (conflict resolution : String)
  | execute (merge : String)
  | addNote (version : String) (plan : PlanId) (title content : String)
      (object? : Option String) (position? : Option (Option Coordinate × Option Coordinate))
      (kind : String)
  | listNotes (version : String)
  | search (query : String) (plan : PlanId)
  | addComment (parent content : String) (kind : ParentKind)
  | listComments (parent : String) (kind : ParentKind)

/-- A command with the settings file and the author that it is given under. -/
structure Call where
  settingsPath : String
  author? : Option String
  command : Command

namespace Command

/-! ### What commands take -/

/-- The settings file of a command line that names none. -/
def standardSettingsPath : String := "./floorvc.toml"

/-- A position: two coordinates with a comma between them. -/
def position? (text : String) : Option (Option Coordinate × Option Coordinate) :=
  match text.toList.dropWhile (· != ',') with
  | ',' :: right => do
    let left := String.ofList (text.toList.takeWhile (· != ','))
    let x? ← Coordinate.ofText? (Text.trim left)
    let y? ← Coordinate.ofText? (Text.trim (String.ofList right))
    return (x?, y?)
  | _ => none

/-- The floor plan that a text names. -/
def plan? (text : String) : Option PlanId :=
  (PlanId.ofText text).toOption

/-- Any text. -/
def anyText (_ : String) : Bool := true

/-- A text that can be a path. -/
def pathText (text : String) : Bool := !text.isEmpty

/-- An option with any text as its value. -/
def textSwitch (name : String) (letter? : Option Char) : Switch :=
  ⟨name, letter?, some anyText, false⟩

/-- The option that names a floor plan. -/
def planSwitch : Switch :=
  ⟨"doc", some 'd', some fun text => (plan? text).isSome, true⟩

/-- An option that names a value of a closed kind. -/
def labelSwitch (α : Type) [Labelled α] (name : String) (letter? : Option Char) : Switch :=
  ⟨name, letter?, some fun text => (ofLabel? text : Option α).isSome, false⟩

/-- The options known to all commands. -/
def common : List Switch :=
  [⟨"config", some 'c', some pathText, false⟩, textSwitch "log-level" none,
   textSwitch "author" none]

/-- All commands. -/
def menu : Menu :=
  .group
    [("init", .command ⟨[⟨"output", some 'o', some pathText, false⟩], []⟩),
     ("commit", .command
        ⟨[planSwitch, textSwitch "branch" (some 'b'), textSwitch "message" (some 'm'),
          textSwitch "parent" none, labelSwitch VersionKind "type" none], [pathText]⟩),
     ("log", .command
        ⟨[planSwitch, textSwitch "branch" (some 'b'),
          ⟨"limit", some 'l', some fun text => (unsigned? text).isSome, false⟩], []⟩),
     ("show", .command ⟨[], [anyText]⟩),
     ("cat", .command ⟨[⟨"pretty", none, none, false⟩], [anyText]⟩),
     ("verify", .command ⟨[], [anyText]⟩),
     ("restore", .command
        ⟨[textSwitch "branch" (some 'b'), textSwitch "message" (some 'm')], [anyText]⟩),
     ("branch", .group
        [("create", .command
            ⟨[planSwitch, ⟨"from", none, some anyText, true⟩, textSwitch "description" none],
              [anyText]⟩),
         ("list", .command ⟨[planSwitch], []⟩)]),
     ("merge", .group
        [("open", .command
            ⟨[planSwitch, textSwitch "description" none], [anyText, anyText]⟩),
         ("show", .command ⟨[], [anyText]⟩),
         ("list", .command ⟨[planSwitch, labelSwitch MergeStatus "status" (some 's')], []⟩),
         ("resolve", .command ⟨[], [anyText, anyText]⟩),
         ("execute", .command ⟨[], [anyText]⟩)]),
     ("annotate", .group
        [("add", .command
            ⟨[planSwitch, ⟨"title", some 't', some anyText, true⟩, textSwitch "content" none,
              textSwitch "object" none,
              ⟨"at", none, some fun text => (position? text).isSome, false⟩,
              textSwitch "type" none], [anyText]⟩),
         ("list", .command ⟨[], [anyText]⟩),
         ("search", .command ⟨[planSwitch], [anyText]⟩)]),
     ("comment", .group
        [("add", .command ⟨[labelSwitch ParentKind "on" none], [anyText, anyText]⟩),
         ("list", .command ⟨[labelSwitch ParentKind "on" none], [anyText]⟩)])]

/-! ### Commands of command lines -/

/-- The command that a command line comes to. -/
def ofReading? (reading : Reading) : Option Command :=
  let option? := reading.option?
  let plan? : Option PlanId := (option? "doc").bind plan?
  let branch := (option? "branch").getD "main"
  let parentKind? : Option ParentKind := ofLabel? ((option? "on").getD (label ParentKind.version))
  match reading.path.reverse, reading.operands.reverse with
  | ["init"], [] => some (.init ((option? "output").getD standardSettingsPath))
  | ["commit"], [file] => do
    let kind ← ofLabel? ((option? "type").getD (label VersionKind.minor))
    return .commit (← plan?) file branch ((option? "message").getD "") (option? "parent") kind
  | ["log"], [] => do
    return .listVersions (← plan?) (option? "branch") (← unsigned? ((option? "limit").getD "20"))
  | ["show"], [version] => some (.showVersion version)
  | ["cat"], [version] => some (.showContent version (option? "pretty").isSome)
  | ["verify"], [version] => some (.verify version)
  | ["restore"], [version] => some (.restore version branch (option? "message"))
  | ["branch", "create"], [name] => do
    return .createBranch name (← plan?) (← option? "from") (option? "description")
  | ["branch", "list"], [] => plan?.map .listBranches
  | ["merge", "open"], [source, target] => do
    return .openMerge source target (← plan?) (option? "description")
  | ["merge", "show"], [merge] => some (.showMerge merge)
  | ["merge", "list"], [] => do
    return .listMerges (← plan?) ((option? "status").bind ofLabel?)
  | ["merge", "resolve"], [conflict, resolution] => some (.resolve conflict resolution)
  | ["merge", "execute"], [merge] => some (.execute merge)
  | ["annotate", "add"], [version] => do
    return .addNote version (← plan?) (← option? "title") ((option? "content").getD "")
      (option? "object") ((option? "at").bind position?) ((option? "type").getD "note")
  | ["annotate", "list"], [version] => some (.listNotes version)
  | ["annotate", "search"], [query] => plan?.map (.search query)
  | ["comment", "add"], [parent, content] => parentKind?.map (.addComment parent content)
  | ["comment", "list"], [parent] => parentKind?.map (.listComments parent)
  | _, _ => none

end Command

namespace Call

/-- The call that the words of a command line make. -/
def ofWords (words : List String) : Except Refusal Call := do
  let reading ← Command.menu.read Command.common words
  match Command.ofReading? reading with
  | none => .error .misuse
  | some command =>
    return ⟨(reading.option? "config").getD Command.standardSettingsPath,
      reading.option? "author", command⟩

end Call

end PlanHistory
