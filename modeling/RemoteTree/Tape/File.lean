import RemoteTree.Tape.Basic
import RemoteTree.Time.Timestamp
import RemoteTree.Yaml.Printer
import RemoteTree.Yaml.Typed

/-!
# Tapes in files

The text of a tape, and the tape of a text.
-/

set_option autoImplicit false

namespace RemoteTree

namespace Interaction

def lines (interaction : Interaction) : List String :=
  ["- seq: " ++ toString interaction.seq.toNat,
    "  port: " ++ Yaml.quotedText interaction.service,
    "  method: " ++ Yaml.quotedText interaction.method,
    "  input: " ++ Yaml.valueText interaction.input,
    "  output: " ++ Yaml.valueText interaction.output]

/-- Reads an interaction from a document. Its arguments and results are nested in the tape, its
list of interactions and the interaction. -/
def read (document : Yaml.Document) (node : Yaml.Node) : Yaml.Typed Interaction := do
  let known ← Yaml.Typed.fields document ["seq", "port", "method", "input", "output"] false node
  let json := Yaml.Typed.json document (Yaml.Typed.deepestNesting - 3)
  return {
    seq := UInt64.ofNat
      (← Yaml.Typed.natural document UInt64.size (← Yaml.Typed.field known "seq"))
    service := ← Yaml.Typed.text document (← Yaml.Typed.field known "port")
    method := ← Yaml.Typed.text document (← Yaml.Typed.field known "method")
    input := ← json (← Yaml.Typed.field known "input")
    output := ← json (← Yaml.Typed.field known "output") }

end Interaction

namespace Tape

def lines (tape : Tape) : List String :=
  ["name: " ++ Yaml.quotedText tape.name,
    "recorded_at: " ++ tape.recordedAt,
    "address: " ++ Yaml.quotedText tape.address] ++
    if tape.interactions.isEmpty then ["interactions: []"]
    else "interactions:" :: tape.interactions.flatMap Interaction.lines

def text (tape : Tape) : String :=
  tape.lines.foldl (fun written line => written ++ line ++ "\n") ""

def read (document : Yaml.Document) (node : Yaml.Node) : Yaml.Typed Tape := do
  let known ←
    Yaml.Typed.fields document ["name", "recorded_at", "address", "interactions"] false node
  let recordedAt ← Yaml.Typed.text document (← Yaml.Typed.field known "recorded_at")
  if !Timestamp.isValid recordedAt then throw (Yaml.Fault.meaning "invalid recording time")
  return {
    name := ← Yaml.Typed.text document (← Yaml.Typed.field known "name")
    recordedAt := recordedAt
    address := ← Yaml.Typed.text document (← Yaml.Typed.field known "address")
    interactions :=
      ← Yaml.Typed.list document (Interaction.read document)
        (← Yaml.Typed.field known "interactions") }

def ofText (text : String) : Except Yaml.Fault Tape := Yaml.Typed.ofText read text

end Tape

end RemoteTree
