/-
Carrying out the calls of the program.

`Call.run` carries a call out on a host and returns the lines to print, or the trouble
that kept it from succeeding.
-/
import PlanHistory.Console.Command
import PlanHistory.Console.Installation
import PlanHistory.Console.Report

namespace PlanHistory

namespace Command

variable {m : Type → Type} [Monad m]

/-- Write the standard settings to a file that is not there yet. -/
def runInit (host : Host m) (path : String) : ExceptT Trouble m (List String) := do
  if ← host.isThere path then throw (.settingsExist path)
  match ← host.write path Settings.standardText.toUTF8 with
  | .error fault => throw (.settingsUnwritable fault)
  | .ok () => return Report.initialized path

/-- The text of a file, or of what is given to the program if the file is a dash. -/
def readDocumentText (host : Host m) (file : String) : ExceptT Trouble m String := do
  if Path.same file "-" then
    match String.fromUTF8? (← host.input) with
    | some text => return text
    | none => throw .inputUnreadable
  else
    match ← host.read file with
    | .error fault => throw (.documentUnreadable file fault)
    | .ok bytes =>
      match String.fromUTF8? bytes with
      | some text => return text
      | none => throw (.documentUnreadable file .notText)

/-- The operation that answers a command and what it attempts, for commands that one
operation answers. -/
def request? (author : String) : Command → Option (Operation × String)
  | .listVersions plan branch? _ => some (.history plan branch?, "failed to read version history")
  | .showVersion version => some (.version version, "failed to load version")
  | .showContent version _ => some (.content version, "failed to load version content")
  | .verify version => some (.verify version, "failed to verify version")
  | .restore version branch message? =>
    some (.restore version branch author message?, "failed to restore version")
  | .createBranch name plan base description? =>
    some (.createBranch ⟨name, plan, base, author, description?⟩, "failed to create branch")
  | .listBranches plan => some (.branches plan, "failed to list branches")
  | .openMerge source target plan description? =>
    some (.openMerge ⟨source, target, plan, author, description?⟩,
      "failed to open merge request")
  | .showMerge merge => some (.merge merge, "failed to load merge request")
  | .listMerges plan status? => some (.merges plan status?, "failed to list merge requests")
  | .execute merge => some (.execute merge author, "failed to execute merge")
  | .addNote version plan title content object? position? kind =>
    some (.addNote
        { version, plan, object?, x? := position?.bind Prod.fst, y? := position?.bind Prod.snd,
          kind, title, content, author },
      "failed to add annotation")
  | .listNotes version => some (.notes version, "failed to list annotations")
  | .search query plan => some (.search plan query, "failed to search annotations")
  | .addComment parent content kind =>
    some (.addComment ⟨parent, kind, content, author⟩, "failed to add comment")
  | .listComments parent kind => some (.comments parent kind, "failed to list comments")
  | .init _ => none
  | .commit .. => none
  | .resolve .. => none

/-- What a command prints on an answer to its operation; an answer of another kind
prints nothing. -/
def report : Command → Answer → List String
  | .commit _ _ branch _ _ _, .receipt receipt => Report.committed branch receipt
  | .listVersions plan _ limit, .versions versions => Report.history plan limit versions
  | .showVersion _, .version version => Report.version version
  | .showContent _ indented, .content document => Report.content indented document
  | .verify version, .intact _ => Report.intact version
  | .restore version branch _, .receipt receipt => Report.restored version branch receipt
  | .createBranch .., .branch branch => Report.branchCreated branch
  | .listBranches plan, .branches branches => Report.branches plan branches
  | .openMerge source target _ _, .opened receipt => Report.mergeOpened source target receipt
  | .showMerge _, .merge details => Report.merge details
  | .listMerges plan _, .merges summaries => Report.merges plan summaries
  | .execute _, .outcome outcome => Report.executed outcome
  | .addNote .., .id note => Report.noteAdded note
  | .listNotes version, .notes notes => Report.notesOn version notes
  | .search query _, .notes notes => Report.notesFound query notes
  | .addComment .., .id comment => Report.commentAdded comment
  | .listComments parent kind, .comments comments => Report.comments parent kind comments
  | _, _ => []

/-- What is told of a merge that cannot be executed because its target has moved. -/
def movedAttempt : String :=
  "target branch moved since the merge request was opened; open a new merge request"

/-- What a trouble is told as: a target that has moved calls for another request. -/
def explain (command : Command) (trouble : Trouble) : Trouble :=
  match command, trouble with
  | .execute _, .failed _ blobRoot (.headMoved branch expected actual) =>
    .failed (some movedAttempt) blobRoot (.headMoved branch expected actual)
  | _, trouble => trouble

/-- Settle a conflict, and tell what is left of its merge request. -/
def runResolve (host : Host m) (author conflict resolution : String)
    (installation : Installation) : ExceptT Trouble m (List String) := do
  let (_, installation) ←
    installation.perform host (some "failed to resolve conflict")
      (.resolve conflict resolution author)
  let (answer, installation) ← installation.perform host none (.conflict conflict)
  match answer with
  | .conflict settled =>
    let (answer, _) ← installation.perform host none (.merge settled.merge)
    match answer with
    | .merge details =>
      return Report.resolved conflict resolution settled.merge details.unresolved
    | _ => return []
  | _ => return []

/-- Carry a command out on an open installation. -/
def runOn (host : Host m) (author : String) (installation : Installation)
    (command : Command) : ExceptT Trouble m (List String) := do
  match command with
  | .init _ => return []
  | .resolve conflict resolution => runResolve host author conflict resolution installation
  | .commit plan file branch message parent? kind =>
    match Json.parse? (← readDocumentText host file) with
    | none => throw .documentMalformed
    | some document =>
      let request : NewVersion :=
        { plan, branch, message, author, parent?, kind, metadata := [] }
      let (answer, _) ←
        installation.perform host (some "failed to commit version") (.commit document request)
      return command.report answer
  | _ =>
    match command.request? author with
    | none => return []
    | some (operation, attempt) =>
      let installation ←
        match operation with
        | .content id => installation.fetch host attempt id
        | _ => pure installation
      let (answer, _) ← installation.perform host (some attempt) operation
      match command, answer with
      | .verify version, .intact false => throw (.contentAltered version)
      | _, _ => return command.report answer

end Command

namespace Call

variable {m : Type → Type} [Monad m]

/-- The author of a user who does not say who they are. -/
def standardAuthor : String := "cli"

/-- Carry a call out, and return the lines to print. -/
def run (host : Host m) (call : Call) : ExceptT Trouble m (List String) :=
  match call.command with
  | .init path => Command.runInit host path
  | command =>
    tryCatch
      (do
        let settings ← Installation.loadSettings host call.settingsPath
        let installation ← Installation.load host settings
        let user? ← host.user?
        let author := call.author?.getD (user?.getD standardAuthor)
        command.runOn host author installation)
      fun trouble => throw (command.explain trouble)

end Call

/-- How the program ends: with a code, what it prints, and what it complains of. -/
structure Outcome where
  code : Nat
  printed : String
  complaint? : Option String

namespace Outcome

/-- The name and the number of the program. -/
def programVersion : String := "floorvc 0.1.0"

/-- How the program is used. -/
def usage : String := "Usage: floorvc [OPTIONS] <COMMAND>"

/-- Carry out the words of a command line. -/
def ofWords {m : Type → Type} [Monad m] (host : Host m) (words : List String) :
    m Outcome := do
  match Call.ofWords words with
  | .error .help => return ⟨0, usage ++ "\n", none⟩
  | .error .version => return ⟨0, programVersion ++ "\n", none⟩
  | .error .misuse => return ⟨2, "", some usage⟩
  | .ok call =>
    match ← (call.run host).run with
    | .ok lines => return ⟨0, String.join (lines.map (· ++ "\n")), none⟩
    | .error trouble => return ⟨1, "", some ("Error: " ++ trouble.message)⟩

end Outcome

end PlanHistory
