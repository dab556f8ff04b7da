import SwiftTree.Command.Arguments
import SwiftTree.Configuration
import SwiftTree.Diff
import SwiftTree.Edit

/-!
# Running commands

Running a command leads from the files to an outcome: what is printed, what the user is told
besides, and the exit code. The files are read from a store, and a changed document is saved on a
disk. The settings are read first and then the document, so an error in either of them comes before
any error in the address or in the change.
-/

namespace SwiftTree

inductive CommandError
  | configuration (error : ConfigurationError)
  | unreadable (file : String)
  | notFound (path : String)
  | mutation (error : MutationError)
  /-- A text could not be turned into nodes for its place. -/
  | step (error : StepError)
  | edit (error : EditError)
  deriving DecidableEq, Repr

namespace CommandError

def message : CommandError → String
  | configuration error => error.message
  | unreadable file => "failed to read " ++ file
  | notFound path => path ++ " does not exist"
  | mutation error => error.message
  | step error => error.message
  | edit error => error.message

/-- What the error comes from, if that is told apart. -/
def cause? : CommandError → Option String
  | configuration error => some error.cause
  | unreadable _ => some "the file is not a readable text"
  | step error =>
    match error.failure with
    | .mutation inner => some inner.message
    | .fragment inner => some inner.message
    | .unsupported _ => none
  | _ => none

/-- The error as it is told to the user. Each line of its cause is indented. -/
def text (error : CommandError) : String :=
  "Error: " ++ error.message ++ "\n" ++
    match error.cause? with
    | some cause =>
      let lines := (cause.toList.splitOn '\n').map String.ofList
      "\nCaused by:\n" ++ String.join (lines.map fun line => "    " ++ line ++ "\n")
    | none => ""

end CommandError

structure Outcome where
  exitCode : Nat := 0
  /-- The result. -/
  output : String := ""
  /-- What the user is told besides the result. -/
  notices : String := ""
  deriving DecidableEq, Repr

namespace Outcome

def failed (error : CommandError) : Outcome :=
  { exitCode := 1, notices := error.text }

/-- The outcome with a notice in front of the others. -/
def announce (notice : String) (outcome : Outcome) : Outcome :=
  { outcome with notices := notice ++ outcome.notices }

def ofExcept : Except CommandError Outcome → Outcome
  | .ok outcome => outcome
  | .error error => failed error

end Outcome

structure Session where
  colored : Bool := false
  settings : Settings := {}
  store : FileStore
  deriving DecidableEq, Repr

namespace Session

variable {m : Type → Type} [Monad m] {Temporary : Type}

def readText (session : Session) (file : String) : Except CommandError String :=
  match session.store.read? file with
  | some (.text text) => .ok text
  | _ => .error (.unreadable file)

/-- Gives the document in a file to a command. If it has errors the user is told first. -/
def withDocument (session : Session) (file : String)
    (command : Tree → String → ExceptT CommandError m Outcome) : m Outcome := do
  match session.readText file with
  | .error error => return .failed error
  | .ok text =>
    let document := parse file text
    let warning :=
      if document.hasErrors then
        paint session.colored .yellow
          ("Warning: " ++ file ++ " has " ++ toString document.diagnostics.length ++
            " parser diagnostic(s); run `swift-surgeon diagnose` for details") ++ "\n"
      else ""
    return (Outcome.ofExcept (← (command document.tree text).run)).announce warning

/-- Prints a changed document, shows what has changed, or writes it to its file. -/
def deliver (session : Session) (disk : Disk m Temporary) (file before : String) (tree : Tree)
    (delivery : Delivery) : m Outcome := do
  let after := tree.render
  let output :=
    if delivery.diff then Diff.text session.colored file before after
    else if delivery.write then ""
    else after
  if delivery.write then
    match ← (writeChange disk file before after).run with
    | .ok (.applied _) =>
      return { output, notices := paint session.colored .green "✓" ++ " Wrote " ++ file ++ "\n" }
    | .ok _ =>
      return { output,
               notices := paint session.colored .yellow "⊙" ++ " No changes to " ++ file ++ "\n" }
    | .error error => return { Outcome.failed (.edit error) with output }
  else return { output }

def isSwiftName (name : String) : Bool :=
  ".swift".toList.isSuffixOf name.toList && name != ".swift"

/-- The files that a path stands for: the file itself, or the Swift files below a directory. -/
def filesAt (session : Session) (path : String) : Except CommandError (List String) :=
  match session.store.find? path with
  | none => .error (.notFound path)
  | some (.file _ _) => .ok [path]
  | some (.directory components) =>
    let below := (session.store.filesBelow components).filter fun file =>
      (file.getLast?.map isSwiftName).getD false
    let start := if path.toList.getLast? = some '/' then path else path ++ "/"
    .ok (below.map fun file => start ++ "/".intercalate file)

def reportOn (session : Session) (file : String) : Except CommandError FileReport := do
  let document := parse file (← session.readText file)
  return ⟨file, extractRecords session.settings.records document.tree document.diagnostics⟩

/-- Reports diagnostics. Errors among them make the command fail. -/
def diagnose (session : Session) (paths : List String) (format : OutputFormat) :
    Except CommandError Outcome := do
  let files ← paths.mapM session.filesAt
  let reports ← files.flatten.mapM session.reportOn
  let output :=
    match format with
    | .text => textReport session.colored reports
    | .json => jsonReport reports ++ "\n"
  let exitCode := if reports.any fun report => 0 < report.errorCount then 1 else 0
  return { exitCode, output }

def firstLine (text : String) : String :=
  let line := text.toList.takeWhile (· != '\n')
  if line.length < text.length ∧ line.getLast? = some '\r' then String.ofList line.dropLast
  else String.ofList line

/-- The line that lists a node with its path. -/
def listing (session : Session) (text : String) (path : Path) (site : Site) : String :=
  let place := ((locate text site.contentOffset).map Location.text).getD ""
  String.ofList (List.replicate (2 * (path.segments.length - 1)) ' ') ++
    paint session.colored .bold path.text ++ " " ++
    paint session.colored .cyan site.node.kindName ++ " " ++
    paint session.colored .dimmed place ++ " " ++ firstLine site.node.contentText ++ "\n"

def listPaths (session : Session) (scheme : Scheme) (tree : Tree) (text : String) : Outcome :=
  { output := String.join ((tree.enumerate scheme).map fun (path, site) =>
      session.listing text path site) }

/-- Changes the node at an address. The user is told what has been removed. -/
def change (session : Session) (tree : Tree) (scheme : Scheme) (path : String)
    (operation : Operation) : Except CommandError (Tree × String) := do
  let policy := session.settings.policy
  let built {α : Type} : Except StepFailure α → Except CommandError α :=
    Except.mapError fun failure => .step ⟨"", failure⟩
  let target ← (Address.parse scheme path).mapError .mutation
  match operation with
  | .replace text =>
    let node ← built (tree.replacementFor target text)
    return (← (tree.replace policy target node).mapError .mutation, "")
  | .delete =>
    let (removed, tree) ← (tree.delete target).mapError .mutation
    return (tree, paint session.colored .dimmed ("removed " ++ Text.quote removed) ++ "\n")
  | .insert text position =>
    let nodes ← built (tree.insertionFor target text position)
    return (← (tree.insert nodes target position).mapError .mutation, "")
  | .document text =>
    return (← (tree.document target text).mapError .mutation, "")

/-- The line that tells what a step of a script has done. -/
def resultLine (session : Session) (result : StepResult) : String :=
  let mark :=
    match result.outcome with
    | .deleted _ => paint session.colored .red "-"
    | _ => paint session.colored .green "✓"
  mark ++ " " ++ result.text ++ "\n"

def applyScript (session : Session) (disk : Disk m Temporary) (script : Script) (file : String)
    (delivery : Delivery) (tree : Tree) (text : String) : m Outcome := do
  let heading := if script.name.isEmpty then "" else "Script: " ++ script.name ++ "\n"
  match script.apply session.settings.policy tree with
  | .error error =>
    return { exitCode := 1
             notices :=
              heading ++ paint session.colored .red "✗" ++ " " ++ error.message ++ "\n" }
  | .ok (tree, results) =>
    let outcome ← session.deliver disk file text tree delivery
    return outcome.announce (heading ++ String.join (results.map session.resultLine))

end Session

variable {m : Type → Type} [Monad m] {Temporary : Type}

def Command.run (session : Session) (disk : Disk m Temporary) : Command → m Outcome
  | diagnose places format =>
    return .ofExcept (session.diagnose places (format.getD session.settings.format))
  | paths file scheme =>
    session.withDocument file fun tree text => return session.listPaths scheme tree text
  | edit file scheme path operation delivery =>
    session.withDocument file fun tree text => do
      let (tree, notice) ← session.change tree scheme path operation
      let outcome ← ExceptT.lift (session.deliver disk file text tree delivery)
      return outcome.announce notice
  | apply file script delivery =>
    match Script.schema.load session.store script with
    | .error error => return .failed (.configuration error)
    | .ok script =>
      session.withDocument file fun tree text =>
        ExceptT.lift (session.applyScript disk script file delivery tree text)

def Invocation.run (colored : Bool) (store : FileStore) (disk : Disk m Temporary)
    (invocation : Invocation) : m Outcome :=
  let settings :=
    match invocation.settings with
    | some path => Settings.schema.load store path
    | none => .ok {}
  match settings with
  | .error error => return .failed (.configuration error)
  | .ok settings => invocation.command.run { colored, settings, store } disk

def versionText : String :=
  "swift-surgeon 0.1.0\n"

def usageText : String :=
  "Usage: swift-surgeon [OPTIONS] <COMMAND>\n\nCommands: " ++
    ", ".intercalate (CommandForm.all.map CommandForm.name) ++ "\n"

def runArguments (colored : Bool) (store : FileStore) (disk : Disk m Temporary)
    (arguments : List String) : m Outcome :=
  match Invocation.ofArguments arguments with
  | .ok invocation => invocation.run colored store disk
  | .error .help => return { output := usageText }
  | .error .version => return { output := versionText }
  | .error (.misuse error) =>
    return { exitCode := 2, notices := "error: " ++ error.message ++ "\n\n" ++ usageText }

end SwiftTree
