import RemoteTree.Json.Basic

/-!
# Tapes

A tape is what was asked of the services that a session used, and what they answered, in order.
-/

set_option autoImplicit false

namespace RemoteTree

/-- One recorded call: the service asked, the method called, what it was given and what it
returned. -/
structure Interaction where
  seq : UInt64
  service : String
  method : String
  input : Json
  output : Json
  deriving Repr, Inhabited

namespace Interaction

def toJson (interaction : Interaction) : Json :=
  .object [
    ("seq", .ofNat interaction.seq.toNat),
    ("port", .string interaction.service),
    ("method", .string interaction.method),
    ("input", interaction.input),
    ("output", interaction.output)]

def ofJson? (value : Json) : Option Interaction :=
  match value.columns? ["seq", "port", "method", "input", "output"] with
  | some [some seq, some service, some method, some input, some output] => do
      return ⟨← seq.toUInt64?, ← service.toText?, ← method.toText?, input, output⟩
  | _ => none

end Interaction

/-- A recorded session. -/
structure Tape where
  name : String
  recordedAt : String
  address : String
  interactions : List Interaction
  deriving Repr, Inhabited

end RemoteTree
