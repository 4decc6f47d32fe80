import RemoteTree.Client.Directory
import RemoteTree.Client.Lines

/-!
# Connections

The operations of a client on a mounted tree. An operation that opens a file closes it on every
way out, unless it hands the open file on in a reader.
-/

set_option autoImplicit false

namespace RemoteTree

/-- A mounted tree: the address it was mounted from, and the size that no buffer may exceed. -/
structure Connection where
  address : String
  bufferLimit : Option Nat := none
  deriving DecidableEq, Repr

namespace Connection

/-- The permissions asked for when a file is created. The server masks them. -/
def createPermissions : UInt32 := 0o777

def withOpened {Result : Type} (path : String) (mode : OpenMode)
    (next : Handle → Client (Except ClientError Result)) : Client (Except ClientError Result) :=
  .ask (.openFile path mode) fun reply =>
    match reply with
    | .error source => .done (.error (.openFile path source))
    | .ok handle => next handle

/-- Runs a program on an open file and closes the file. -/
def closing {Result : Type} (handle : Handle) (program : Client Result) : Client Result :=
  program.andThen fun result => .ask (.closeFile handle) fun _ => .done result

/-- Reads a file, up to `Client.readLimit` bytes. Longer files are cut, not refused. -/
def read (connection : Connection) (path : String) : Client (Except ClientError Bytes) :=
  withOpened path .read fun handle =>
    closing handle (Client.readCapped handle path connection.bufferLimit)

def write (_ : Connection) (path : String) (data : Bytes) : Client (Except ClientError Unit) :=
  withOpened path .write fun handle => closing handle (Client.writeAll handle path data)

/-- Creates a file and writes data to it, unless there is none or the server made a directory. -/
def create (_ : Connection) (path : String) (data : Option Bytes) :
    Client (Except ClientError Unit) :=
  .ask (.createFile path createPermissions .write) fun reply =>
    match reply with
    | .error source => .done (.error (.create path source))
    | .ok handle =>
        let data := data.getD []
        closing handle <|
          if data.isEmpty || handle.isDirectory then .done (.ok ())
          else Client.writeAll handle path data

def remove (_ : Connection) (path : String) : Client (Except ClientError Unit) :=
  .ask (.removeFile path) fun reply => .done (reply.mapError (.remove path))

def stat (_ : Connection) (path : String) : Client (Except ClientError Stat) :=
  .ask (.statFile path) fun reply =>
    match reply with
    | .error source => .done (.error (.stat path source))
    | .ok raw =>
        .done ((Stat.decode raw).mapError fun shortfall => .protocol path (.cutRecord shortfall))

/-- Opens a file for a reader, which needs a buffer of the file's transfer size. -/
def openReader {Reader : Type} (connection : Connection) (path : String)
    (start : Handle → String → Reader) : Client (Except ClientError Reader) :=
  withOpened path .read fun handle =>
    if Client.fits connection.bufferLimit handle.transferSize then
      .done (.ok (start handle path))
    else
      closing handle (.done (.error (.allocate path handle.transferSize)))

def openLines (connection : Connection) (path : String) :
    Client (Except ClientError LineReader) :=
  connection.openReader path LineReader.start

def openDirectory (connection : Connection) (path : String) :
    Client (Except ClientError DirectoryReader) :=
  connection.openReader path DirectoryReader.start

def name (connection : Connection) : String := "ixp instance " ++ connection.address

def text (connection : Connection) : String :=
  "Connection \x7b address: " ++ Text.quoted connection.address ++ ", .. \x7d"

end Connection

end RemoteTree
