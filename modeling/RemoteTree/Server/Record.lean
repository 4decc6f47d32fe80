import RemoteTree.Json.Basic
import RemoteTree.Server.Basic

/-!
# Handles, modes and refusals as values

The recorded form of what requests and replies are made of. A mode and a timeout are names, or
objects whose one key is the name; a failure is an object whose one key says so.
-/

set_option autoImplicit false

namespace RemoteTree

namespace Json

def alternative? : Json → Option String
  | .string name => some name
  | .object [(name, .null)] => some name
  | _ => none

end Json

namespace OpenMode

def toJson (mode : OpenMode) : Json := .string mode.name

def ofJson? (value : Json) : Option OpenMode := value.alternative?.bind ofName?

end OpenMode

namespace Handle

def toJson (handle : Handle) : Json :=
  .object [
    ("fid", .ofNat handle.fid.toNat),
    ("iounit", .ofNat handle.iounit.toNat),
    ("qid_type", .ofNat handle.kind.toNat)]

def ofJson? (value : Json) : Option Handle :=
  match value.columns? ["fid", "iounit", "qid_type"] with
  | some [some fid, some iounit, some kind] => do
      return ⟨← fid.toUInt32?, ← iounit.toUInt32?, ← kind.toUInt8?⟩
  | _ => none

end Handle

namespace Refusal

def codeToJson : Option Int32 → Json
  | some code => .number (.integer code.toInt)
  | none => .null

/-- The error number that a value stands for. A missing value and null stand for none. -/
def codeOfJson? : Option Json → Option (Option Int32)
  | none => some none
  | some .null => some none
  | some value => value.toInt32?.map some

def toJson : Refusal → Json
  | .failed message code =>
      .object [("failed", .object [("message", .string message), ("code", codeToJson code)])]
  | .timedOut => .string "timed_out"

def ofJson? (value : Json) : Option Refusal :=
  match value with
  | .object [("failed", .object fields)] => do
      let message ← (← Table.find? "message" fields).toText?
      return .failed message (← codeOfJson? (Table.find? "code" fields))
  | _ => if value.alternative? = some "timed_out" then some .timedOut else none

end Refusal

end RemoteTree
