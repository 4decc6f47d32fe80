import RemoteTree.Yaml.Grammar
import RemoteTree.Yaml.Resolution

/-!
# Typed data from documents

Reading records, lists, texts and numbers from the nodes of a document. What a node is decides,
not how it is written: a string may be any scalar, and where a list or a record is expected an
empty plain scalar is an empty one.
-/

set_option autoImplicit false

namespace RemoteTree.Yaml

/-- Reads data, following no more than a number of aliases. -/
abbrev Typed (Data : Type) := StateT Nat (Except Fault) Data

namespace Typed

def wholeTag : String := "tag:yaml.org,2002:int"

def nullTag : String := "tag:yaml.org,2002:null"

def boolTag : String := "tag:yaml.org,2002:bool"

def floatTag : String := "tag:yaml.org,2002:float"

def expected {Data : Type} (what : String) : Typed Data :=
  throw (Fault.meaning ("invalid type: expected " ++ what))

def target (document : Document) : Node → Typed Node
  | .alias number => fun left =>
      match left, Table.find? number document.marked with
      | left + 1, some node => .ok (node, left)
      | 0, _ => .error (Fault.meaning "repetition limit exceeded")
      | _, none => .error (Fault.meaning "unknown anchor")
  | node => pure node

def text (document : Document) (node : Node) : Typed String := do
  match ← target document node with
  | .scalar text _ _ => return text
  | _ => expected "a string"

def natural (document : Document) (bound : Nat) (node : Node) : Typed Nat := do
  match ← target document node with
  | .scalar text style tag =>
      if style = .plain ∨ (style = .literal ∧ tag = some wholeTag) then
        match Resolution.natural? text.toList with
        | some number => if number < bound then return number else expected "a smaller number"
        | none => expected "a number"
      else expected "a number"
  | _ => expected "a number"

/-- Is something written, where nothing might be? -/
def isWritten (text : String) (style : Style) (tag : Option String) : Typed Bool :=
  if style ≠ .plain then return true
  else if tag = some nullTag then
    if Resolution.isNull text then return false else expected "null"
  else if tag.isSome then return !text.isEmpty
  else return !text.isEmpty && !Resolution.isNull text

/-- Data that may be missing. -/
def optional {Data : Type} (document : Document) (read : Node → Typed Data) (node : Node) :
    Typed (Option Data) := do
  match ← target document node with
  | .scalar text style tag =>
      if ← isWritten text style tag then return some (← read (.scalar text style tag))
      else return none
  | found => return some (← read found)

def items (document : Document) (node : Node) : Typed (List Node) := do
  match ← target document node with
  | .sequence items _ => return items
  | .scalar "" .plain _ => return []
  | _ => expected "a sequence"

def entries (document : Document) (node : Node) : Typed (List (Node × Node)) := do
  match ← target document node with
  | .mapping entries _ => return entries
  | .scalar "" .plain _ => return []
  | _ => expected "a map"

def list {Data : Type} (document : Document) (read : Node → Typed Data) (node : Node) :
    Typed (List Data) := do
  (← items document node).mapM read

/-- A map from texts. Of two entries with one key the later counts. -/
def map {Data : Type} (document : Document) (read : Node → Typed Data) (node : Node) :
    Typed (Table String Data) := do
  (← entries document node).foldlM
    (fun known entry => do
      let key ← text document entry.1
      return Table.insert key (← read entry.2) known) []

/-- The fields of a record, each given at most once. Other fields are passed over, unless the
record is closed. -/
def fields (document : Document) (names : List String) (closed : Bool) (node : Node) :
    Typed (Table String Node) := do
  (← entries document node).foldlM
    (fun known entry => do
      let name ← text document entry.1
      if names.contains name then
        if (Table.find? name known).isSome then
          throw (Fault.meaning ("duplicate field " ++ name))
        else return Table.insert name entry.2 known
      else if closed then throw (Fault.meaning ("unknown field " ++ name))
      else return known) []

def field (known : Table String Node) (name : String) : Typed Node :=
  match Table.find? name known with
  | some node => return node
  | none => throw (Fault.meaning ("missing field " ++ name))

/-- The value of a scalar. A tag of a kind of value asks for that kind; a tag of its own is no
value. -/
def scalarValue? (text : String) (style : Style) (tag : Option String) : Option Json :=
  match tag with
  | none => if style = .plain then Resolution.plainValue? text else some (.string text)
  | some tag =>
      if tag = boolTag then (Resolution.bool? text).map .bool
      else if tag = wholeTag then (Resolution.wholeNumber? text).bind Resolution.wholeValue?
      else if tag = floatTag then Resolution.float? text
      else if tag = nullTag then if Resolution.isNull text then some .null else none
      else if tag.startsWith "!" then none
      else some (.string text)

def isTagged (tag : Option String) : Bool :=
  match tag with
  | some tag => tag.startsWith "!"
  | none => false

/-- A value that is nested no deeper than `depth` lists and objects. -/
def json (document : Document) : Nat → Node → Typed Json
  | depth, node => do
      match ← target document node, depth with
      | .scalar text style tag, _ =>
          match scalarValue? text style tag with
          | some value => return value
          | none => expected "a value"
      | .sequence items tag, depth + 1 =>
          if isTagged tag then expected "a value"
          else return .array (← items.mapM (json document depth))
      | .mapping entries tag, depth + 1 =>
          if isTagged tag then expected "a value"
          else
            let fields ← entries.mapM fun entry => do
              return (← text document entry.1, ← json document depth entry.2)
            return .ofFields fields
      | .alias _, _ => expected "a value"
      | _, 0 => throw (Fault.meaning "recursion limit exceeded")

/-- How many aliases may be followed for every node of a document. -/
def aliasesPerNode : Nat := 100

/-- The deepest nesting of lists, maps and records. -/
def deepestNesting : Nat := 128

/-- Reads data from the document of a text. A text without a document is read like an empty
scalar. -/
def ofText {Data : Type} (read : Document → Node → Typed Data) (text : String) :
    Except Fault Data := do
  let document ← Document.ofText text
  let (data, _) ←
    (read document (document.root.getD .empty)).run (aliasesPerNode * document.size)
  return data

end Typed

end RemoteTree.Yaml
