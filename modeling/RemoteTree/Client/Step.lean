import RemoteTree.Client.Session

/-!
# Steps of a session

Everything that can be done with a session, one step at a time: the operations of the connection,
opening and using readers, and requests made past the connection. A step is data and so is its
outcome, so a run of a session is a list of steps.
-/

set_option autoImplicit false

namespace RemoteTree

/-- One thing to do with a session. -/
inductive Step where
  | read (path : String)
  | write (path : String) (data : Bytes)
  | create (path : String) (data : Option Bytes)
  | remove (path : String)
  | stat (path : String)
  | openLines (name path : String)
  | openDirectory (name path : String)
  | limitBuffers (bytes : Nat)
  | disconnect
  /-- One step of the line reader of a name, under a deadline. -/
  | advance (name : String) (deadline : Option Deadline)
  | takeLines (name : String) (count : Nat)
  | nextLine (name : String)
  | nextEntry (name : String)
  | takeEntries (name : String) (count : Nat)
  /-- Drops the readers of a name, of lines and of entries. -/
  | drop (name : String)
  | request (request : Request)
  deriving DecidableEq, Repr

/-- What came of a step. -/
inductive Outcome where
  | notConnected
  | noReader
  | bytes (result : Except ClientError Bytes)
  | nothing (result : Except ClientError Unit)
  | stat (result : Except ClientError Stat)
  | openedLines (result : Except ClientError LineReader)
  | openedDirectory (result : Except ClientError DirectoryReader)
  | event (event : Option LineEvent) (asked : Nat) (reader : LineReader)
  | lines (lines : List String) (reader : LineReader)
  | line (line : Option String) (reader : LineReader)
  | entry (entry : Option (Except ClientError Stat)) (reader : DirectoryReader)
  | entries (entries : List (Except ClientError Stat)) (reader : DirectoryReader)
  | dropped (found : Bool)
  | reply (request : Request) (reply : request.Reply)
  | done

namespace Session

def withConnection (session : Session)
    (next : Connection → Client (Outcome × Session)) : Client (Outcome × Session) :=
  match session.connection with
  | some connection => next connection
  | none => .done (.notConnected, session)

/-- Runs an operation of the connection that leaves the session as it is. -/
def operation {Result : Type} (session : Session) (outcome : Result → Outcome)
    (program : Connection → Client Result) : Client (Outcome × Session) :=
  session.withConnection fun connection =>
    (program connection).andThen fun result => .done (outcome result, session)

def withLines {Result : Type} (session : Session) (name : String)
    (program : LineReader → Client (Result × LineReader))
    (outcome : Result → LineReader → Outcome) : Client (Outcome × Session) :=
  match Table.find? name session.lines with
  | none => .done (.noReader, session)
  | some reader =>
      (program reader).andThen fun (result, reader) =>
        .done (outcome result reader,
          { session with lines := Table.insert name reader session.lines })

def withDirectory {Result : Type} (session : Session) (name : String)
    (program : DirectoryReader → Client (Result × DirectoryReader))
    (outcome : Result → DirectoryReader → Outcome) : Client (Outcome × Session) :=
  match Table.find? name session.directories with
  | none => .done (.noReader, session)
  | some reader =>
      (program reader).andThen fun (result, reader) =>
        .done (outcome result reader,
          { session with directories := Table.insert name reader session.directories })

def hasReader (session : Session) (name : String) : Bool :=
  (Table.find? name session.lines).isSome || (Table.find? name session.directories).isSome

def step (session : Session) : Step → Client (Outcome × Session)
  | .read path => session.operation .bytes (·.read path)
  | .write path data => session.operation .nothing (·.write path data)
  | .create path data => session.operation .nothing (·.create path data)
  | .remove path => session.operation .nothing (·.remove path)
  | .stat path => session.operation .stat (·.stat path)
  | .openLines name path =>
      session.withConnection fun connection =>
        (session.openLines connection name path).andThen fun (opened, session) =>
          .done (.openedLines opened, session)
  | .openDirectory name path =>
      session.withConnection fun connection =>
        (session.openDirectory connection name path).andThen fun (opened, session) =>
          .done (.openedDirectory opened, session)
  | .limitBuffers bytes =>
      session.withConnection fun _ => .done (.done, session.limitBuffers bytes)
  | .disconnect =>
      session.withConnection fun _ =>
        session.disconnect.andThen fun session => .done (.done, session)
  | .advance name deadline =>
      session.withLines name
        (fun reader =>
          (reader.advance deadline).andThen fun (event, reader, asked) =>
            .done ((event, asked), reader))
        fun result reader => .event result.1 result.2 reader
  | .nextLine name => session.withLines name LineReader.next .line
  | .takeLines name count => session.withLines name (LineReader.take count) .lines
  | .nextEntry name => session.withDirectory name DirectoryReader.next .entry
  | .takeEntries name count =>
      session.withDirectory name (DirectoryReader.take count) .entries
  | .drop name =>
      (session.dropLines name).andThen fun rest =>
        (rest.dropDirectory name).andThen fun rest =>
          .done (.dropped (session.hasReader name), rest)
  | .request request => .ask request fun reply => .done (.reply request reply, session)

def steps (session : Session) : List Step → Client (List Outcome × Session)
  | [] => .done ([], session)
  | step :: rest =>
      (session.step step).andThen fun (outcome, session) =>
        (session.steps rest).andThen fun (outcomes, session) =>
          .done (outcome :: outcomes, session)

def play (session : Session) (script : List Step) : Client (List Outcome) :=
  (session.steps script).andThen fun (outcomes, session) =>
    session.finish.andThen fun _ => .done outcomes

end Session

end RemoteTree
