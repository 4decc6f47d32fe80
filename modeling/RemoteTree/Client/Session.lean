import RemoteTree.Client.Connection
import RemoteTree.Table

/-!
# Sessions

A connection with the readers opened from it. The readers keep the tree mounted: it is unmounted
when the connection and the last reader are gone, in whichever order they go.
-/

set_option autoImplicit false

namespace RemoteTree

/-- A connection, unless it has been given up, and the readers in use, each under a name. -/
structure Session where
  connection : Option Connection
  lines : Table String LineReader
  directories : Table String DirectoryReader

namespace Session

def start (connection : Connection) : Session := ⟨some connection, [], []⟩

def isOver (session : Session) : Bool :=
  session.connection.isNone && session.lines.isEmpty && session.directories.isEmpty

def unmountIfOver (session : Session) : Client Session :=
  if session.isOver then .ask .unmount fun _ => .done session else .done session

def disconnect (session : Session) : Client Session :=
  match session.connection with
  | some _ => { session with connection := none }.unmountIfOver
  | none => .done session

def limitBuffers (session : Session) (bytes : Nat) : Session :=
  { session with
    connection := session.connection.map fun connection =>
      { connection with bufferLimit := some bytes } }

def dropLines (session : Session) (name : String) : Client Session :=
  match Table.find? name session.lines with
  | some reader =>
      .ask (.closeFile reader.handle) fun _ =>
        { session with lines := Table.erase name session.lines }.unmountIfOver
  | none => .done session

def dropDirectory (session : Session) (name : String) : Client Session :=
  match Table.find? name session.directories with
  | some reader =>
      .ask (.closeFile reader.handle) fun _ =>
        { session with directories := Table.erase name session.directories }.unmountIfOver
  | none => .done session

/-- Opens a line reader under a name. A reader that has the name already is dropped when the new
one is open. -/
def openLines (session : Session) (connection : Connection) (name path : String) :
    Client (Except ClientError LineReader × Session) :=
  (connection.openLines path).andThen fun opened =>
    match opened with
    | .error error => .done (.error error, session)
    | .ok reader =>
        (session.dropLines name).andThen fun session =>
          .done (.ok reader, { session with lines := Table.insert name reader session.lines })

/-- Opens a directory reader under a name. A reader that has the name already is dropped when the
new one is open. -/
def openDirectory (session : Session) (connection : Connection) (name path : String) :
    Client (Except ClientError DirectoryReader × Session) :=
  (connection.openDirectory path).andThen fun opened =>
    match opened with
    | .error error => .done (.error error, session)
    | .ok reader =>
        (session.dropDirectory name).andThen fun session =>
          .done (.ok reader,
            { session with directories := Table.insert name reader session.directories })

/-- Drops everything: the connection, then the line readers, then the directory readers, each in
the order of their names. -/
def finish (session : Session) : Client Session :=
  session.disconnect.andThen fun session =>
    (dropAll dropLines (inOrder session.lines.keys) session).andThen fun session =>
      dropAll dropDirectory (inOrder session.directories.keys) session
where
  inOrder (names : List String) : List String := names.mergeSort Utf8.ordered
  dropAll (drop : Session → String → Client Session) : List String → Session → Client Session
    | [], session => .done session
    | name :: rest, session => (drop session name).andThen (dropAll drop rest)

end Session

end RemoteTree
