import RemoteTree.Client.Basic
import RemoteTree.Tape.Calls

/-!
# Recording

A recorder collects the calls of a session and keeps track of the files that the session has
open. A client program that is recorded runs as it would without the recorder.
-/

set_option autoImplicit false

namespace RemoteTree

/-- A recording under way. -/
structure Recorder where
  name : String
  address : Option String := none
  interactions : Array Interaction := #[]
  openFids : List Nat := []

namespace Recorder

/-- Notes the address of the session. Only the first one is kept. -/
def noteAddress (recorder : Recorder) (address : String) : Recorder :=
  { recorder with address := some (recorder.address.getD address) }

def addFid (fid : Nat) : List Nat → List Nat
  | [] => [fid]
  | other :: rest =>
      if fid < other then fid :: other :: rest
      else if fid = other then other :: rest
      else other :: addFid fid rest

/-- The number of the file that the answer to an opening call names. -/
def openedFid? (output : Json) : Option Nat :=
  ((output.field? "Ok").bind (·.field? "fid")).bind (·.toNat? UInt64.size)

def closedFid? (input : Json) : Option Nat := (input.field? "fid").bind (·.toNat? UInt64.size)

def openFidsAfter (recorder : Recorder) (method : String) (input output : Json) : List Nat :=
  if method = "open" ∨ method = "create" then
    match openedFid? output with
    | some fid => addFid fid recorder.openFids
    | none => recorder.openFids
  else if method = "close" then
    match closedFid? input with
    | some fid => recorder.openFids.filter (· != fid)
    | none => recorder.openFids
  else recorder.openFids

/-- Adds a call. Calls are numbered from zero in their order. -/
def record (recorder : Recorder) (service method : String) (input output : Json) : Recorder :=
  { recorder with
    openFids := recorder.openFidsAfter method input output
    interactions :=
      recorder.interactions.push
        ⟨UInt64.ofNat recorder.interactions.size, service, method, input, output⟩ }

/-- Adds a request to a file server with its reply. There is nothing to add for a delivery that
claims more than its buffer holds. -/
def note (recorder : Recorder) (request : Request) (reply : request.Reply) : Option Recorder :=
  (request.output? reply).map fun output =>
    recorder.record fileService request.method request.input output

/-- The finished tape, with the time at which the recording ends. -/
def tape (recorder : Recorder) (recordedAt : String) : Tape :=
  { name := recorder.name
    recordedAt := recordedAt
    address := recorder.address.getD ""
    interactions := recorder.interactions.toList }

end Recorder

/-- Runs a program on a server and records its calls. Where the server claims to have delivered
more bytes than it was given room for there is nothing to record, and the run breaks off. -/
def Client.record {Result State : Type} (server : Server State) :
    Client Result → State → Recorder → Option (Result × State × Recorder)
  | .done result, state, recorder => some (result, state, recorder)
  | .ask request next, state, recorder =>
      let (reply, state) := server.answer request state
      match recorder.note request reply with
      | some recorder => (next reply).record server state recorder
      | none => none

end RemoteTree
