import RemoteTree.Client.Session
import RemoteTree.Host.Basic
import RemoteTree.Json.Printer
import RemoteTree.Stat.Record

/-!
# Commands

What can be done from a command line, and what it prints.
-/

set_option autoImplicit false

namespace RemoteTree

/-- A command. -/
inductive Command where
  | read (path : String)
  | write (path : String) (words : List String)
  | create (path : String) (words : List String)
  | remove (path : String)
  | stat (path : String) (json : Bool)
  | list (path : String) (long : Bool)
  /-- Prints lines as they come. Both waits are in seconds; the second one is granted once for
  every line. -/
  | follow (path : String) (timeout extension : Option Nat)
  deriving DecidableEq, Repr

/-- Why a command failed. -/
inductive CommandError where
  | client (error : ClientError)
  | output (reason : String)
  | input (reason : String)
  deriving DecidableEq, Repr

def CommandError.message : CommandError → String
  | .client error => (Failure.ofError error).text
  | .output reason => "failed to write output: " ++ reason
  | .input reason => "failed to read stdin: " ++ reason

/-- What a command has written: pieces of output, the latest first, and notices. The output may
have room for so many bytes more. -/
structure Console where
  pieces : List Bytes := []
  room : Option Room := none
  notices : List String := []
  deriving DecidableEq, Repr

namespace Console

def printed (console : Console) : Bytes := console.pieces.reverse.flatten

/-- Prints some bytes. Where there is not enough room, what fits gets through. -/
def print (console : Console) (bytes : Bytes) : Except CommandError Unit × Console :=
  match console.room with
  | none => (.ok (), { console with pieces := bytes :: console.pieces })
  | some room =>
      let left := { room with bytes := room.bytes - bytes.length }
      if bytes.length ≤ room.bytes then
        (.ok (), { console with pieces := bytes :: console.pieces, room := some left })
      else
        (.error (.output room.fault),
          { console with pieces := bytes.take room.bytes :: console.pieces, room := some left })

def printLine (console : Console) (line : String) : Except CommandError Unit × Console :=
  console.print (Utf8.encode line ++ [LineReader.newline])

def printLines (console : Console) : List String → Except CommandError Unit × Console
  | [] => (.ok (), console)
  | line :: rest =>
      match console.printLine line with
      | (.ok (), console) => console.printLines rest
      | (.error error, console) => (.error error, console)

def notice (console : Console) (text : String) : Console :=
  { console with notices := console.notices ++ [text] }

end Console

namespace Command

def readsInput : Command → Bool
  | .write _ words => words.isEmpty
  | _ => false

def dataOf (words : List String) : Bytes := Utf8.encode (String.intercalate " " words)

def data? (words : List String) : Option Bytes :=
  if words.isEmpty then none else some (dataOf words)

def reported (console : Console) (result : Except ClientError Unit) :
    Except CommandError Unit × Console :=
  (result.mapError .client, console)

/-- How many lines or entries a command reads at most. No server that is in use has more. -/
def patience : Nat := UInt64.size

def statText (stat : Stat) (json : Bool) : String :=
  if json then stat.toRecord.indented else stat.longLine

/-- The entries of a directory up to the first that failed. -/
def allEntries (entries : List (Except ClientError Stat)) : Except ClientError (List Stat) :=
  entries.mapM id

/-- The lines that list some entries, in the order of their names. -/
def listingOf (long : Bool) (entries : List Stat) : List String :=
  (entries.mergeSort fun left right => Utf8.ordered left.name right.name).map
    fun stat => if long then stat.longLine else stat.displayName

/-- The name in its session of the reader that a command uses. There is one at most. -/
def readerName : String := "reader"

/-- What became of a command, and the session that it leaves. -/
abbrev Outcome := (Except CommandError Unit × Console) × Session

/-- Lists a directory. Nothing is printed unless all entries can be read. -/
def runList (session : Session) (connection : Connection) (path : String) (long : Bool)
    (console : Console) : Client Outcome :=
  (session.openDirectory connection readerName path).andThen fun (opened, session) =>
    match opened with
    | .error error => .done ((.error (.client error), console), session)
    | .ok reader =>
        (reader.take patience).andThen fun (entries, _) =>
          (session.dropDirectory readerName).andThen fun session =>
            match allEntries entries with
            | .error error => .done ((.error (.client error), console), session)
            | .ok entries => .done (console.printLines (listingOf long entries), session)

def deadline (timeout extension : Option Nat) : Option Deadline :=
  timeout.map fun timeout =>
    { after := Duration.seconds timeout
      extensions := some (extension.toList.map Duration.seconds) }

/-- Prints lines until the end of the file, the first that does not come in time, or the first that
cannot be printed. -/
def followFrom (path : String) (timeout extension : Option Nat) :
    Nat → LineReader → Console → Client ((Except CommandError Unit × Console) × LineReader)
  | 0, reader, console => .done ((.ok (), console), reader)
  | lines + 1, reader, console =>
      (reader.advance (deadline timeout extension)).andThen fun (event, reader, _) =>
        match event with
        | none => .done ((.ok (), console), reader)
        | some .timeout =>
            .done ((.ok (), console.notice ("ixp: nothing read from " ++ path ++ " in time")),
              reader)
        | some (.line line) =>
            match console.printLine line with
            | (.ok (), console) => followFrom path timeout extension lines reader console
            | (.error error, console) => .done ((.error error, console), reader)

def runFollow (session : Session) (connection : Connection) (path : String)
    (timeout extension : Option Nat) (console : Console) : Client Outcome :=
  (session.openLines connection readerName path).andThen fun (opened, session) =>
    match opened with
    | .error error => .done ((.error (.client error), console), session)
    | .ok reader =>
        (followFrom path timeout extension patience reader console).andThen fun (result, _) =>
          (session.dropLines readerName).andThen fun session => .done (result, session)

/-- Runs a command in a session, on its connection. `input` is what the standard input holds. -/
def runIn (command : Command) (session : Session) (connection : Connection)
    (input : Except String Bytes) (console : Console) : Client Outcome :=
  let reportedOn (operation : Client (Except ClientError Unit)) : Client Outcome :=
    operation.andThen fun result => .done (reported console result, session)
  match command with
  | .read path =>
      (connection.read path).andThen fun result =>
        match result with
        | .ok bytes => .done (console.print bytes, session)
        | .error error => .done ((.error (.client error), console), session)
  | .write path words =>
      match data? words, input with
      | some data, _ => reportedOn (connection.write path data)
      | none, .ok data => reportedOn (connection.write path data)
      | none, .error reason => .done ((.error (.input reason), console), session)
  | .create path words => reportedOn (connection.create path (data? words))
  | .remove path => reportedOn (connection.remove path)
  | .stat path json =>
      (connection.stat path).andThen fun result =>
        match result with
        | .ok found => .done (console.printLine (statText found json), session)
        | .error error => .done ((.error (.client error), console), session)
  | .list path long => runList session connection path long console
  | .follow path timeout extension => runFollow session connection path timeout extension console

/-- Runs a command on a connection, which stays. -/
def run (command : Command) (connection : Connection) (input : Except String Bytes)
    (console : Console) : Client (Except CommandError Unit × Console) :=
  (command.runIn (.start connection) connection input console).andThen fun (result, _) =>
    .done result

end Command

end RemoteTree
