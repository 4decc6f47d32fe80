import RemoteTree.Stat.Basic
import RemoteTree.Text.Utf8
import RemoteTree.Time.Duration

/-!
# File servers

What a client may ask of a file server and what it gets back. A server is a state with an answer
to every request; whatever answers requests this way, a tree in memory or a tape, is a server.
-/

set_option autoImplicit false

namespace RemoteTree

/-- What an open file is used for. -/
inductive OpenMode where
  | read
  | write
  | readWrite
  deriving DecidableEq, Repr, Inhabited

namespace OpenMode

def bits : OpenMode → UInt8
  | .read => 0
  | .write => 1
  | .readWrite => 2

def isReadable : OpenMode → Bool
  | .write => false
  | _ => true

def isWritable : OpenMode → Bool
  | .read => false
  | _ => true

def name : OpenMode → String
  | .read => "read"
  | .write => "write"
  | .readWrite => "readwrite"

def ofName? : String → Option OpenMode
  | "read" => some .read
  | "write" => some .write
  | "readwrite" => some .readWrite
  | _ => none

end OpenMode

/-- An open file as its server names it, with the transfer size that the server advises. -/
structure Handle where
  fid : UInt32
  iounit : UInt32
  kind : UInt8
  deriving DecidableEq, Repr, Inhabited

/-- The transfer size where a server advises none: messages of 8192 bytes less their header. -/
def defaultTransferSize : UInt32 := 8168

/-- The largest transfer size that is honoured: messages of 65536 bytes less their header. -/
def largestTransferSize : UInt32 := 65512

namespace Handle

def isDirectory (handle : Handle) : Bool := handle.kind &&& directoryKind != 0

/-- The most bytes to ask for or to send at once. -/
def transferSize (handle : Handle) : Nat :=
  if handle.iounit = 0 then defaultTransferSize.toNat
  else min handle.iounit.toNat largestTransferSize.toNat

theorem transferSize_pos (handle : Handle) : 0 < handle.transferSize := by
  unfold transferSize
  split
  · decide
  · next some =>
    have advised : handle.iounit.toNat ≠ 0 := fun zero => some (UInt32.toNat_inj.mp zero)
    exact Nat.lt_min.mpr ⟨Nat.pos_of_ne_zero advised, by decide⟩

theorem transferSize_le (handle : Handle) : handle.transferSize ≤ 65512 := by
  unfold transferSize
  split
  · decide
  · exact Nat.min_le_right _ _

theorem transferSize_congr {first second : Handle} (same : first.iounit = second.iounit) :
    first.transferSize = second.transferSize := by
  unfold transferSize
  rw [same]

end Handle

/-- Why a server does not do what it was asked. -/
inductive Refusal where
  /-- The request failed, with an error number where one is known. -/
  | failed (message : String) (code : Option Int32)
  | timedOut
  deriving DecidableEq, Repr, Inhabited

namespace Refusal

def message : Refusal → String
  | .failed message _ => message
  | .timedOut => "read timed out"

def code : Refusal → Option Int32
  | .failed _ code => code
  | .timedOut => none

end Refusal

/-- A request to a file server. A read brings the buffer that it may fill. -/
inductive Request where
  | openFile (path : String) (mode : OpenMode)
  | createFile (path : String) (permissions : UInt32) (mode : OpenMode)
  | readFrom (handle : Handle) (buffer : Bytes) (wait : Option Duration)
  | writeTo (handle : Handle) (data : Bytes)
  | removeFile (path : String)
  | statFile (path : String)
  | closeFile (handle : Handle)
  | unmount
  deriving DecidableEq, Repr

/-- The answer to a read: the bytes put at the front of the buffer, and the number of bytes that
the server claims to have delivered. The two need not agree. -/
structure Delivery where
  received : Bytes
  claimed : Except Refusal Nat

/-- The answers that a request can get. -/
abbrev Request.Reply : Request → Type
  | .openFile _ _ => Except Refusal Handle
  | .createFile _ _ _ => Except Refusal Handle
  | .readFrom _ _ _ => Delivery
  | .writeTo _ _ => Except Refusal Nat
  | .removeFile _ => Except Refusal Unit
  | .statFile _ => Except Refusal Bytes
  | .closeFile _ => Unit
  | .unmount => Unit

/-- A file server: an answer to every request, which may change the state. -/
structure Server (State : Type) where
  answer : (request : Request) → State → request.Reply × State

end RemoteTree
