import RemoteTree.Server.Record
import RemoteTree.Tape.Basic
import RemoteTree.Tape.Payload

/-!
# Recorded calls

What a request to a file server and its reply look like on a tape, and how a reply is read back. A
reply that can be refused is recorded as an object with the key `Ok` or `Err`.
-/

set_option autoImplicit false

namespace RemoteTree

/-- The name under which calls of a file server are recorded. -/
def fileService : String := "ixp"

namespace Request

def method : Request → String
  | .openFile _ _ => "open"
  | .createFile _ _ _ => "create"
  | .readFrom _ _ _ => "read"
  | .writeTo _ _ => "write"
  | .removeFile _ => "remove"
  | .statFile _ => "stat"
  | .closeFile _ => "close"
  | .unmount => "unmount"

/-- The largest number of eight bytes, which stands for every longer wait. -/
def longestWait : Nat := 18446744073709551615

/-- The recorded wait of a read, which is left out where there is none. -/
def waitFields : Option Duration → List (String × Json)
  | some wait => [("timeout_ms", .ofNat (min wait.milliseconds longestWait))]
  | none => []

def input : Request → Json
  | .openFile path mode => .object [("path", .string path), ("mode", mode.toJson)]
  | .createFile path permissions mode =>
      .object [
        ("path", .string path), ("perm", .ofNat permissions.toNat), ("mode", mode.toJson)]
  | .readFrom handle buffer wait =>
      .object ([("fid", .ofNat handle.fid.toNat), ("count", .ofNat buffer.length)] ++
        waitFields wait)
  | .writeTo handle data =>
      .object [("fid", .ofNat handle.fid.toNat), ("data", (Payload.ofBytes data).toJson)]
  | .removeFile path => .object [("path", .string path)]
  | .statFile path => .object [("path", .string path)]
  | .closeFile handle => .object [("fid", .ofNat handle.fid.toNat)]
  | .unmount => .object []

end Request

/-- The recorded form of an answer that can be refused. -/
def answerToJson {Result : Type} (toJson : Result → Json) : Except Refusal Result → Json
  | .ok result => .object [("Ok", toJson result)]
  | .error refusal => .object [("Err", refusal.toJson)]

/-- The bytes that a delivery claims to have put into a buffer, unless it claims more than the
buffer holds. -/
def Delivery.delivered? (delivery : Delivery) (buffer : Bytes) : Option (Except Refusal Bytes) :=
  match delivery.claimed with
  | .error refusal => some (.error refusal)
  | .ok count =>
      if buffer.length < count then none
      else some (.ok ((Bytes.overlay delivery.received buffer).take count))

/-- The recorded form of a reply. There is none for a delivery that claims more than the buffer
holds. -/
def Request.output? : (request : Request) → request.Reply → Option Json
  | .openFile _ _, reply => some (answerToJson Handle.toJson reply)
  | .createFile _ _ _, reply => some (answerToJson Handle.toJson reply)
  | .readFrom _ buffer _, delivery =>
      (delivery.delivered? buffer).map
        (answerToJson fun bytes => (Payload.ofBytes bytes).toJson)
  | .writeTo _ _, reply => some (answerToJson Json.ofNat reply)
  | .removeFile _, reply => some (answerToJson (fun _ => .null) reply)
  | .statFile _, reply => some (answerToJson (fun bytes => (Payload.ofBytes bytes).toJson) reply)
  | .closeFile _, _ => some .null
  | .unmount, _ => some .null

/-- What a decoder of values says of a recorded output that it cannot read as that of a method. -/
abbrev Wording := String → Json → String

/-- The refusal of a call whose recorded answer cannot be read, for a reason. -/
def Refusal.unreadable (method reason : String) : Refusal :=
  .failed (fileService ++ "::" ++ method ++ ": unreadable recorded output: " ++ reason) none

/-- Reads back an answer that can be refused. A value without the key `Ok` is the result itself. -/
def answerOfJson {Result : Type} (wording : Wording) (method : String)
    (ofJson? : Json → Option Result) (output : Json) : Except Refusal Result :=
  match output.field? "Err" with
  | some error => .error ((Refusal.ofJson? error).getD (.unreadable method (wording method output)))
  | none =>
      match ofJson? ((output.field? "Ok").getD output) with
      | some result => .ok result
      | none => .error (.unreadable method (wording method output))

/-- Reads back a number of bytes. An integer has at most 64 bits, so every natural number is one. -/
def countOfJson? : Json → Option Nat
  | .number (.integer (.ofNat count)) => some count
  | _ => none

def nothingOfJson? : Json → Option Unit
  | .null => some ()
  | _ => none

def bytesOfJson? (value : Json) : Option Bytes := (Payload.ofJson? value).map Payload.bytes

end RemoteTree
