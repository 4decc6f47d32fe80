import RemoteTree.Server.Basic
import RemoteTree.Table
import RemoteTree.Tree.Path

/-!
# Trees in memory

Directories, files and streams at paths, the files that clients have open, and a ledger of the
calls served. A stream is a queue of chunks that reads use up; a stall in the queue is a read that
nothing answers in time.
-/

set_option autoImplicit false

namespace RemoteTree

/-- A piece of a stream. -/
inductive Chunk where
  | data (bytes : Bytes)
  | stall
  deriving DecidableEq, Repr, Inhabited

/-- What a node of a tree holds. -/
inductive Content where
  | directory
  | file (bytes : Bytes)
  | stream (queue : List Chunk)
  deriving DecidableEq, Repr, Inhabited

/-- A node of a tree. Its identity stays while its path is in use, whatever it holds. -/
structure Node where
  identity : UInt64
  mode : UInt32
  changeTime : UInt32
  content : Content
  deriving DecidableEq, Repr

def Node.isDirectory (node : Node) : Bool :=
  match node.content with
  | .directory => true
  | _ => false

/-- An open file. `listing` is what was in a directory when it was opened, as stat records. -/
structure OpenFile where
  path : Path
  mode : OpenMode
  offset : Nat
  listing : Bytes
  deriving DecidableEq, Repr

/-- The transfers that a tree allows, and the reads and writes after which it starts to fail. -/
structure Limits where
  iounit : UInt32 := defaultTransferSize
  mostRead : Option Nat := none
  mostWritten : Option Nat := none
  failAfterReads : Option Nat := none
  failAfterWrites : Option Nat := none
  deriving DecidableEq, Repr

/-- The calls that a tree has served. -/
structure Ledger where
  mounts : Nat := 0
  unmounts : Nat := 0
  opens : Nat := 0
  closes : Nat := 0
  reads : Nat := 0
  writes : Nat := 0
  deriving DecidableEq, Repr

/-- A tree of files with its clients' open files. -/
structure Tree where
  nodes : Table Path Node
  openFiles : Table UInt32 OpenFile
  nextFid : UInt32
  lastIdentity : UInt64
  limits : Limits
  ledger : Ledger
  owner : String
  now : UInt32
  createsDirectories : Bool
  deriving DecidableEq, Repr

namespace Tree

/-- The mode of a directory that is made without asking for one. -/
def plainDirectoryMode : UInt32 := directoryMode ||| 0o755

def find? (tree : Tree) (path : Path) : Option Node := Table.find? path tree.nodes

def hasDirectory (tree : Tree) (path : Path) : Bool :=
  match tree.find? path with
  | some node => node.isDirectory
  | none => false

/-- Puts a node at a path. A node that was there leaves its identity to the new one. -/
def place (tree : Tree) (path : Path) (mode : UInt32) (content : Content) : Tree :=
  match tree.find? path with
  | some old =>
      { tree with
        nodes := Table.insert path ⟨old.identity, mode, tree.now, content⟩ tree.nodes }
  | none =>
      { tree with
        lastIdentity := tree.lastIdentity + 1
        nodes := Table.insert path ⟨tree.lastIdentity + 1, mode, tree.now, content⟩ tree.nodes }

/-- Puts a node at a path and directories at all places above it that have none. -/
def insert (tree : Tree) : Path → UInt32 → Content → Tree
  | .root, mode, content => tree.place .root mode content
  | .child parent name, mode, content =>
      let tree :=
        if tree.hasDirectory parent then tree
        else tree.insert parent plainDirectoryMode .directory
      tree.place (.child parent name) mode content

def empty (limits : Limits) (now : UInt32) : Tree :=
  let bare : Tree :=
    { nodes := []
      openFiles := []
      nextFid := 1
      lastIdentity := 0
      limits := limits
      ledger := {}
      owner := "none"
      now := now
      createsDirectories := false }
  bare.insert .root plainDirectoryMode .directory

def addDirectory (tree : Tree) (path : String) : Tree :=
  tree.insert (.ofText path) plainDirectoryMode .directory

def addFile (tree : Tree) (path : String) (contents : Bytes) : Tree :=
  tree.insert (.ofText path) 0o644 (.file contents)

def addStream (tree : Tree) (path : String) (queue : List Chunk) : Tree :=
  tree.insert (.ofText path) 0o444 (.stream queue)

def setContent (tree : Tree) (path : Path) (node : Node) (content : Content) : Tree :=
  { tree with nodes := Table.insert path { node with content := content } tree.nodes }

/-- Adds a chunk to the end of a stream. Says no where there is no stream. -/
def push (tree : Tree) (path : String) (chunk : Chunk) : Bool × Tree :=
  match tree.find? (.ofText path) with
  | some node =>
      match node.content with
      | .stream queue => (true, tree.setContent (.ofText path) node (.stream (queue ++ [chunk])))
      | _ => (false, tree)
  | none => (false, tree)

def has (tree : Tree) (path : String) : Bool := (tree.find? (.ofText path)).isSome

def contents? (tree : Tree) (path : String) : Option Bytes :=
  match tree.find? (.ofText path) with
  | some node =>
      match node.content with
      | .file bytes => some bytes
      | _ => none
  | none => none

/-- The stat record of a node. Only files have a length. -/
def statOf (tree : Tree) (path : Path) (node : Node) : Stat :=
  { type := 0
    device := 0
    qid := ⟨if node.isDirectory then directoryKind else 0, 0, node.identity⟩
    mode := node.mode
    accessTime := node.changeTime
    changeTime := node.changeTime
    length :=
      match node.content with
      | .file bytes => UInt64.ofNat bytes.length
      | _ => 0
    name := path.name
    owner := tree.owner
    group := tree.owner
    changedBy := tree.owner }

def stat? (tree : Tree) (path : String) : Option Stat :=
  (tree.find? (.ofText path)).map (tree.statOf (.ofText path))

/-- The nodes of a directory in the order of their names. -/
def childrenOf (tree : Tree) (directory : Path) : List (Path × Node) :=
  (tree.nodes.filter fun entry => entry.1.parent? = some directory).mergeSort
    fun left right => Utf8.ordered left.1.name right.1.name

def openCount (tree : Tree) : Nat := tree.openFiles.length

end Tree

end RemoteTree
