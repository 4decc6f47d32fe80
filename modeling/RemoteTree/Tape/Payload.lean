import RemoteTree.Json.Basic
import RemoteTree.Text.Utf8

/-!
# Payloads

Bytes as tapes hold them: as text where they are text that a reader can see, and else number by
number.
-/

set_option autoImplicit false

namespace RemoteTree

/-- Bytes in the form in which they are recorded. -/
inductive Payload where
  | text (content : String)
  | raw (bytes : Bytes)
  deriving DecidableEq, Repr

namespace Payload

/-- Is the character a control character? There are two ranges of them. -/
def isControl (character : Char) : Bool :=
  let code := character.toNat
  code < 0x20 || (0x7F ≤ code && code ≤ 0x9F)

/-- Does a text show all that it holds? Newlines and tabs may stand in it. -/
def isVisible (text : String) : Bool :=
  text.toList.all fun character => !isControl character || character == '\n' || character == '\t'

def ofBytes (bytes : Bytes) : Payload :=
  match Utf8.decode? bytes with
  | some content => if isVisible content then .text content else .raw bytes
  | none => .raw bytes

def bytes : Payload → Bytes
  | .text content => Utf8.encode content
  | .raw bytes => bytes

def toJson : Payload → Json
  | .text content => .string content
  | .raw bytes => .array (bytes.map fun byte => .ofNat byte.toNat)

def ofJson? : Json → Option Payload
  | .string content => some (.text content)
  | .array items => (items.mapM Json.toUInt8?).map .raw
  | _ => none

end Payload

end RemoteTree
