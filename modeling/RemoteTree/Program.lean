import RemoteTree.Command.Line
import RemoteTree.EnvFile
import RemoteTree.Mount
import RemoteTree.Settings
import RemoteTree.Tape.Recorder

/-!
# The program

From the arguments to what is printed: one command in one session on one server. If a recording is
asked for it is kept whatever becomes of the command, and a fault in keeping it is reported before
any other.
-/

set_option autoImplicit false

namespace RemoteTree

/-- Why the program failed. -/
inductive ProgramError where
  | usage (error : UsageError)
  | mount (error : ClientError)
  | command (error : CommandError)
  | recording (fault : FileFault)
  /-- The server claimed to have delivered more than was asked for while it was recorded. -/
  | overlong
  /-- Something still held on to the recorder when the command was over. -/
  | inUse
  deriving DecidableEq, Repr

def ProgramError.message : ProgramError → String
  | .usage error => error.message
  | .mount error => (Failure.ofError error).text
  | .command error => error.message
  | .recording fault => "failed to write cassette: " ++ fault.message
  | .overlong => "the server claimed to have read more than was asked for"
  | .inUse => "recording still in use when the command finished"

/-- What a run of the program leaves: what it printed, its notices in order, and why it failed. -/
structure Report where
  console : Console
  result : Except ProgramError Unit

namespace Report

def complaints (report : Report) : List String :=
  match report.result with
  | .ok () => report.console.notices
  | .error error => report.console.notices ++ [error.message]

end Report

namespace Program

def recordingName : String := "ixp-session"

/-- The session of a command. The connection is given up when the command is over. -/
def session (command : Command) (address : String) (input : Except String Bytes)
    (console : Console) : Client Command.Outcome :=
  let connection : Connection := ⟨address, none⟩
  (command.runIn (.start connection) connection input console).andThen fun (result, session) =>
    session.disconnect.andThen fun session => .done (result, session)

def reportOn (result : Except CommandError Unit × Console) : Report :=
  ⟨result.2, result.1.mapError .command⟩

def unmounted (error : ClientError) (console : Console) : Report :=
  ⟨console, .error (.mount error)⟩

/-- Runs the session of a command on a server that has been mounted, or could not be. -/
def run {State : Type} (server : Server State) (mounted : Except ClientError State)
    (command : Command) (address : String) (input : Except String Bytes) (console : Console) :
    Report :=
  match mounted with
  | .error error => unmounted error console
  | .ok state => reportOn ((session command address input console).run server state).1.1

/-- Runs the session of a command and records it. What is left of the session holds on to the
recorder as it does to the mount: while the connection or a reader is there, there is no recording.
There is none either if the session could not be recorded to its end. -/
def record {State : Type} (server : Server State) (mounted : Except ClientError State)
    (command : Command) (address : String) (input : Except String Bytes) (console : Console) :
    Report × Option Recorder :=
  let recorder := Recorder.noteAddress { name := recordingName } address
  match mounted with
  | .error error => (unmounted error console, some recorder)
  | .ok state =>
      match (session command address input console).record server state recorder with
      | some ((result, left), _, recorder) =>
          if left.isOver then (reportOn result, some recorder)
          else (⟨result.2, .error .inUse⟩, none)
      | none => (⟨console, .error .overlong⟩, none)

/-- A report after the attempt to keep the recording at a path. -/
def kept (report : Report) (path : String) : Except FileFault Unit → Report
  | .ok () => { report with console := report.console.notice ("Recording saved to: " ++ path) }
  | .error fault => { report with result := .error (.recording fault) }

section

variable {World : Type → Type} [Monad World]

/-- The settings, from the address on the command line, the environment and the environment
file. -/
def settings (host : Host World) (address : Option String) : World Settings := do
  let added ←
    match ← host.envFile? with
    | some file => EnvFile.load host.valueOf file
    | none => pure []
  let known ← Settings.variableNames.mapM fun name => do
    let value ← host.valueOf name
    return (name, value.orElse fun _ => Table.find? name added)
  return Settings.resolve address fun name => (Table.find? name known).bind id

def mount (host : Host World) (address : String) : World (Except ClientError Mounted) := do
  match Source.ofAddress address with
  | .error refusal => return .error (.connect address refusal)
  | .ok source =>
      let contents ← host.readFile source.path
      return (source.mount (← host.seconds) (← host.wording) contents).mapError (.connect address)

/-- Runs the session of a command, and keeps its recording if the settings ask for one. -/
def runFor (host : Host World) (settings : Settings) (mounted : Except ClientError Mounted)
    (command : Command) (input : Except String Bytes) (console : Console) : World Report :=
  match settings.record with
  | none => return run Mounted.server mounted command settings.address input console
  | some path => do
      let (report, recorder) :=
        record Mounted.server mounted command settings.address input console
      match recorder with
      | none => return report
      | some recorder =>
          let tape := recorder.tape (← host.timestamp)
          return kept report path (← host.writeFile path tape.text)

/-- Runs what a command line asks for. The standard input is read only if the command needs it and
there is a server. -/
def dispatch (host : Host World) (invocation : Invocation) : World Report := do
  let settings ← settings host invocation.address
  let mounted ← mount host settings.address
  let input ←
    if invocation.command.readsInput && mounted.toBool then host.input else pure (.ok [])
  runFor host settings mounted invocation.command input { room := ← host.room }

def execute (host : Host World) (arguments : List String) : World Report :=
  match CommandLine.parse arguments with
  | .error error => return ⟨{}, .error (.usage error)⟩
  | .ok invocation => dispatch host invocation

end

end Program

end RemoteTree
