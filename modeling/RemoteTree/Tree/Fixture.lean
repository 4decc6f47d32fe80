import RemoteTree.Tree.Basic
import RemoteTree.Yaml.Typed

/-!
# Fixtures

A tree as a text describes it: its limits, its owner, the time of all its entries, and the
directories, files and streams that it holds.
-/

set_option autoImplicit false

namespace RemoteTree

/-- A description of a tree. A stream entry that is left out is a stall. -/
structure Fixture where
  iounit : Option UInt32 := none
  mostRead : Option Nat := none
  mostWritten : Option Nat := none
  owner : Option String := none
  changeTime : Option UInt32 := none
  directories : List String := []
  files : Table String String := []
  streams : Table String (List (Option String)) := []
  deriving DecidableEq, Repr

namespace Fixture

def limits (fixture : Fixture) : Limits :=
  { iounit := fixture.iounit.getD defaultTransferSize
    mostRead := fixture.mostRead
    mostWritten := fixture.mostWritten }

def bareTree (fixture : Fixture) (clock : UInt32) : Tree :=
  { Tree.empty fixture.limits (fixture.changeTime.getD clock) with
    owner := fixture.owner.getD "none" }

def chunk : Option String → Chunk
  | some text => .data (Utf8.encode text)
  | none => .stall

/-- Entries in the order of their paths as they are spelt. -/
def inOrder {Entry : Type} (entries : Table String Entry) : Table String Entry :=
  entries.mergeSort fun left right => Utf8.ordered left.1 right.1

/-- The tree of a fixture: its directories as listed, then its files, then its streams, so that of
two entries for one place the last of these counts. -/
def tree (fixture : Fixture) (clock : UInt32) : Tree :=
  let tree := fixture.directories.foldl Tree.addDirectory (fixture.bareTree clock)
  let tree :=
    (inOrder fixture.files).foldl
      (fun tree entry => tree.addFile entry.1 (Utf8.encode entry.2)) tree
  (inOrder fixture.streams).foldl
    (fun tree entry => tree.addStream entry.1 (entry.2.map chunk)) tree

def fieldNames : List String :=
  ["iounit", "max_read", "max_write", "owner", "mtime", "dirs", "files", "streams"]

/-- Reads a fixture from a document. Every field may be left out, and no other may be given. -/
def read (document : Yaml.Document) (node : Yaml.Node) : Yaml.Typed Fixture := do
  let known ← Yaml.Typed.fields document fieldNames true node
  let text := Yaml.Typed.text document
  let optionalText := Yaml.Typed.optional document text
  let optionalNumber := fun bound =>
    Yaml.Typed.optional document (Yaml.Typed.natural document bound)
  return {
    iounit := (← given known "iounit" (optionalNumber UInt32.size) none).map UInt32.ofNat
    mostRead := ← given known "max_read" (optionalNumber UInt64.size) none
    mostWritten := ← given known "max_write" (optionalNumber UInt64.size) none
    owner := ← given known "owner" optionalText none
    changeTime := (← given known "mtime" (optionalNumber UInt32.size) none).map UInt32.ofNat
    directories := ← given known "dirs" (Yaml.Typed.list document text) []
    files := ← given known "files" (Yaml.Typed.map document text) []
    streams :=
      ← given known "streams" (Yaml.Typed.map document (Yaml.Typed.list document optionalText)) [] }
where
  given {Data : Type} (known : Table String Yaml.Node) (name : String)
      (read : Yaml.Node → Yaml.Typed Data) (absent : Data) : Yaml.Typed Data :=
    match Table.find? name known with
    | some node => read node
    | none => return absent

def ofText (text : String) : Except Yaml.Fault Fixture := Yaml.Typed.ofText read text

end Fixture

end RemoteTree
