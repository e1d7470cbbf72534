/-
What the program prints when a command succeeds, as lines.
-/
import PlanHistory.Console.Table
import PlanHistory.Json.Printer
import PlanHistory.Repository.Operation

namespace PlanHistory

namespace Report

/-- What has been done. -/
def success (text : String) : String := s!"✓ {text}"

/-- What remains to be done. -/
def warning (text : String) : String := s!"⚠ {text}"

/-- A text of at most `limit` characters; the last three of a longer one are dots. -/
def shorten (limit : Nat) (text : String) : String :=
  if text.toList.length ≤ limit then text
  else String.ofList (text.toList.take (limit - 3)) ++ "..."

/-- What stands for nothing. -/
def orDash (text? : Option String) : String :=
  text?.getD "-"

/-- A line for what has a value. -/
def optionalLine (name : String) (text? : Option String) : List String :=
  text?.toList.map fun text => s!"  {name} : {text}"

/-- A text, if it is not empty. -/
def filled? (text : String) : Option String :=
  if text.isEmpty then none else some text

/-- How far a merge request has come. -/
def mergeStatus (status : MergeStatus) : String := s!"● {label status}"

/-- What has become of a branch. -/
def branchStatus : BranchStatus → String
  | .active => s!"● {label BranchStatus.active}"
  | status => s!"○ {label status}"

/-- The standard settings are written. -/
def initialized (path : String) : List String :=
  [success s!"Configuration written to {path}",
   "",
   "Next steps:",
   "  1. Adjust [storage] data_dir and the [merge] mode if needed",
   s!"  2. Commit a first version: floorvc --config {path} commit --doc <building>/<floor> plan.json"]

/-- A version is committed. -/
def committed (branch : String) (receipt : Receipt) : List String :=
  [success s!"Committed {receipt.version} on {branch} ({receipt.number})",
   s!"  sha256 {receipt.contentHash}"]

/-- The versions of a floor plan, at most `limit` of them. -/
def history (plan : PlanId) (limit : Nat) (versions : List Version) : List String :=
  if versions.isEmpty then [s!"No versions found for {plan.text}."]
  else
    let row (version : Version) : List String :=
      [version.id, version.number, version.branch, version.author,
       shorten 48 version.message, version.createdAt.toSecond]
    let table : TextTable :=
      ⟨["ID", "Number", "Branch", "Author", "Message", "Created"],
       (versions.take limit).map row⟩
    let shown := min versions.length limit
    let total := versions.length
    ["", s!"History of {plan.text}"] ++ table.lines ++ [s!"{shown} of {total} version(s) shown"]

/-- A version. -/
def version (version : Version) : List String :=
  let kind := label version.kind
  let metadata? := if version.metadata.isEmpty then none else some (Json.object version.metadata).canonical
  [s!"Version {version.id}",
   "",
   s!"  Number     : {version.number}",
   s!"  Document   : {version.plan.text}",
   s!"  Branch     : {version.branch} (#{version.sequence})",
   s!"  Type       : {kind}",
   s!"  Parent     : {orDash version.parent?}",
   s!"  Author     : {version.author}",
   s!"  Created at : {version.createdAt.withOffset}",
   s!"  Hash       : {version.contentHash}",
   s!"  Size       : {version.contentSize} bytes"]
    ++ optionalLine "Message   " (filled? version.message) ++ optionalLine "Metadata  " metadata?

/-- The content of a version. -/
def content (indented : Bool) (document : Json) : List String :=
  [if indented then document.indented else document.canonical]

/-- The content of a version is as it was committed. -/
def intact (version : String) : List String :=
  [success s!"Version {version} is intact"]

/-- The content of a version is committed again. -/
def restored (version branch : String) (receipt : Receipt) : List String :=
  [success s!"Restored {version} onto {branch} as {receipt.version}"]

/-- A branch is created. -/
def branchCreated (branch : Branch) : List String :=
  [success s!"Branch {branch.name} created at {branch.head}"]

/-- The branches of a floor plan. -/
def branches (plan : PlanId) (branches : List Branch) : List String :=
  if branches.isEmpty then [s!"No branches found for {plan.text}."]
  else
    let row (branch : Branch) : List String :=
      [branch.name, branchStatus branch.status, branch.head, branch.base, branch.createdBy,
       branch.updatedAt.toSecond]
    let table : TextTable :=
      ⟨["Branch", "Status", "Head", "Base", "Created by", "Updated"], branches.map row⟩
    let merged := branches.countP fun branch => branch.status == .merged
    table.lines ++ (if 0 < merged then [s!"{merged} merged branch(es)"] else [])

/-- The conflicts of a merge request. -/
def conflicts (conflicts : List Conflict) : List String :=
  let row (conflict : Conflict) : List String :=
    let resolution :=
      match conflict.resolution? with
      | some resolution => s!"{resolution} ({orDash conflict.resolvedBy?})"
      | none => "—"
    [conflict.id, conflict.object, conflict.property?.getD "", label conflict.kind, resolution]
  TextTable.lines ⟨["ID", "Object", "Property", "Type", "Resolution"], conflicts.map row⟩

/-- A merge request is opened. -/
def mergeOpened (source target : String) (receipt : MergeReceipt) : List String :=
  let count := receipt.conflicts.length
  [success s!"Merge request {receipt.merge} opened ({source} → {target})"]
    ++ if receipt.conflicts.isEmpty then []
      else ["", warning s!"{count} conflict(s) need a resolution"] ++ conflicts receipt.conflicts

/-- A merge request with its conflicts. -/
def merge (details : MergeDetails) : List String :=
  let request := details.request
  let merged? : Option String := do
    let actor ← request.mergedBy?
    let time ← request.mergedAt?
    return s!"{actor} at {time.withOffset}"
  let count := details.conflicts.length
  [s!"Merge request {request.id}",
   "",
   s!"  Document    : {request.plan.text}",
   s!"  Branches    : {request.sourceBranch} → {request.targetBranch}",
   s!"  Status      : {mergeStatus request.status}",
   s!"  Strategy    : {request.strategy}",
   s!"  Source head : {request.source}",
   s!"  Target head : {request.target}",
   s!"  Base        : {orDash request.base?}",
   s!"  Opened by   : {request.createdBy} at {request.createdAt.withOffset}"]
    ++ optionalLine "Merged by  " merged? ++ optionalLine "Result     " request.result?
    ++ optionalLine "Description" (filled? request.description)
    ++ if details.conflicts.isEmpty then []
      else ["", s!"Conflicts ({details.unresolved} unresolved of {count})"]
        ++ conflicts details.conflicts

/-- The merge requests of a floor plan. -/
def merges (plan : PlanId) (summaries : List MergeSummary) : List String :=
  if summaries.isEmpty then [s!"No merge requests found for {plan.text}."]
  else
    let row (summary : MergeSummary) : List String :=
      let request := summary.request
      [request.id, request.sourceBranch, request.targetBranch, mergeStatus request.status,
       toString summary.conflictIds.length, request.createdBy, request.createdAt.toMinute]
    TextTable.lines
      ⟨["ID", "Source", "Target", "Status", "Conflicts", "Opened by", "Created"],
       summaries.map row⟩

/-- A conflict is settled. -/
def resolved (conflict resolution merge : String) (remaining : Nat) : List String :=
  [success s!"Conflict {conflict} resolved ({resolution})",
   if 0 < remaining then s!"  {remaining} unresolved conflict(s) left"
   else s!"  Ready: floorvc merge execute {merge}"]

/-- A merge request is executed. -/
def executed (outcome : MergeOutcome) : List String :=
  let how := if outcome.createdVersion then "new merge version" else "no new version"
  [success s!"Merge {outcome.merge} executed, target head is {outcome.head} ({how})"]

/-- A note is added. -/
def noteAdded (note : String) : List String :=
  [success s!"Annotation {note} added"]

/-- Where a note is, if it has both coordinates. -/
def position (note : Note) : String :=
  match note.x?, note.y? with
  | some x, some y =>
    String.ofList (x.render Layout.plain ++ ',' :: ' ' :: y.render Layout.plain)
  | _, _ => ""

/-- Notes, or what is said if there are none. -/
def notes (otherwise : String) (notes : List Note) : List String :=
  if notes.isEmpty then [otherwise]
  else
    let row (note : Note) : List String :=
      [note.id, note.kind, note.title, note.object?.getD "", position note, note.author]
    TextTable.lines ⟨["ID", "Type", "Title", "Object", "Position", "Author"], notes.map row⟩

/-- The notes on a version. -/
def notesOn (version : String) : List Note → List String :=
  notes s!"No annotations on {version}."

/-- The notes that a search has found. -/
def notesFound (query : String) : List Note → List String :=
  notes s!"No annotations match '{query}'."

/-- A comment is added. -/
def commentAdded (comment : String) : List String :=
  [success s!"Comment {comment} added"]

/-- The comments on something. -/
def comments (parent : String) (kind : ParentKind) (comments : List Comment) : List String :=
  if comments.isEmpty then
    let kind := label kind
    [s!"No comments on {kind} {parent}."]
  else
    comments.flatMap fun comment =>
      [s!"{comment.author} {comment.createdAt.toMinute}", s!"  {comment.content}"]

end Report

end PlanHistory
