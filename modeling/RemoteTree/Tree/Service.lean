import RemoteTree.Stat.Wire
import RemoteTree.Tree.Basic

/-!
# Trees as servers

How a tree answers requests. A request that is refused leaves the tree as it was, but for the
count of reads and writes and for the stall that a read with a deadline uses up. The read of a
directory may break off: it is not answered, and the tree is left with the read counted.
-/

set_option autoImplicit false

namespace RemoteTree

namespace Refusal

def notFound : Refusal := .failed "file not found" (some 2)

def faulty : Refusal := .failed "i/o error" (some 5)

def unknownHandle : Refusal := .failed "unknown fid" (some 9)

def notForReading : Refusal := .failed "file not open for reading" (some 9)

def notForWriting : Refusal := .failed "file not open for writing" (some 9)

def rootStays : Refusal := .failed "cannot remove the root" (some 13)

def alreadyThere : Refusal := .failed "file exists" (some 17)

def rootNotMade : Refusal := .failed "cannot create the root" (some 17)

def notDirectory : Refusal := .failed "not a directory" (some 20)

def directoryThere : Refusal := .failed "is a directory" (some 21)

def roomTooSmall : Refusal := .failed "read count too small for a directory entry" (some 22)

def notEmpty : Refusal := .failed "directory not empty" (some 39)

end Refusal

namespace Tree

def exceeds (limit : Option Nat) (count : Nat) : Bool :=
  match limit with
  | some most => most < count
  | none => false

def capped (limit : Option Nat) (count : Nat) : Nat :=
  match limit with
  | some most => min count most
  | none => count

/-- The entries of a directory as stat records, back to back. -/
def listing (tree : Tree) (directory : Path) : Bytes :=
  (tree.childrenOf directory).flatMap fun entry => (tree.statOf entry.1 entry.2).encode

/-- Hands out a handle for a path. What a directory holds now is what its reads will deliver. -/
def issue (tree : Tree) (path : Path) (mode : OpenMode) : Handle × Tree :=
  let isDirectory := tree.hasDirectory path
  let opened : OpenFile :=
    { path := path
      mode := mode
      offset := 0
      listing := if isDirectory then tree.listing path else [] }
  (⟨tree.nextFid, tree.limits.iounit, if isDirectory then directoryKind else 0⟩,
    { tree with
      nextFid := tree.nextFid + 1
      openFiles := Table.insert tree.nextFid opened tree.openFiles
      ledger := { tree.ledger with opens := tree.ledger.opens + 1 } })

def openAt (tree : Tree) (path : Path) (mode : OpenMode) : Except Refusal Handle × Tree :=
  match tree.find? path with
  | none => (.error .notFound, tree)
  | some node =>
      if node.isDirectory && mode.isWritable then (.error .directoryThere, tree)
      else
        let (handle, tree) := tree.issue path mode
        (.ok handle, tree)

def permissionBits : UInt32 := 0o777

/-- Creates and opens a file or, if the permissions ask for one or the tree is set to, a
directory. -/
def createAt (tree : Tree) (path : Path) (permissions : UInt32) (mode : OpenMode) :
    Except Refusal Handle × Tree :=
  if (tree.find? path).isSome then (.error .alreadyThere, tree)
  else
    match path.parent? with
    | none => (.error .rootNotMade, tree)
    | some parent =>
        match tree.find? parent with
        | none => (.error .notFound, tree)
        | some directory =>
            if directory.isDirectory then
              let kept := permissions &&& permissionBits
              let tree :=
                if permissions &&& directoryMode != 0 || tree.createsDirectories then
                  tree.insert path (directoryMode ||| kept) .directory
                else tree.insert path kept (.file [])
              let (handle, tree) := tree.issue path mode
              (.ok handle, tree)
            else (.error .notDirectory, tree)

/-- Counts the bytes of whole records at the front of a listing that fit into some room and, but
for the first, under a limit. `packed` bytes are counted already. -/
def countRecords (room : Nat) (limit : Option Nat) : Nat → Nat → Bytes → Nat
  | records + 1, packed, low :: high :: rest =>
      let size := 2 + Bytes.toNumber [low, high]
      if room < packed + size then packed
      else if 0 < packed && exceeds limit (packed + size) then packed
      else countRecords room limit records (packed + size) ((low :: high :: rest).drop size)
  | _, packed, _ => packed

/-- The bytes of whole records that one read of a directory delivers. -/
def packRecords (listing : Bytes) (room : Nat) (limit : Option Nat) : Except Refusal Nat :=
  let packed := countRecords room limit listing.length 0 listing
  if packed = 0 && !listing.isEmpty then .error .roomTooSmall else .ok packed

/-- Reads from the queue of a stream: stalls and empty chunks in front of the data are used up,
but a stall ends a read that has a deadline. What does not fit of a chunk stays in the queue. -/
def readQueue (room : Nat) (wait : Option Duration) : List Chunk → Delivery × List Chunk
  | [] => (⟨[], .ok 0⟩, [])
  | .stall :: rest =>
      if wait.isSome then (⟨[], .error .timedOut⟩, rest) else readQueue room wait rest
  | .data [] :: rest => readQueue room wait rest
  | .data bytes :: rest =>
      let taken := bytes.take room
      let left := bytes.drop room
      (⟨taken, .ok taken.length⟩, if left.isEmpty then rest else .data left :: rest)

def setOffset (tree : Tree) (fid : UInt32) (opened : OpenFile) (offset : Nat) : Tree :=
  { tree with openFiles := Table.insert fid { opened with offset := offset } tree.openFiles }

def refusedRead (refusal : Refusal) : Delivery := ⟨[], .error refusal⟩

/-- Reads from the node of an open file into a buffer with some room. The read of a directory breaks
off, without an answer, where the file is past the end of its listing, or where the records at the
front are said to be longer than what is left of the listing. -/
def readNode (tree : Tree) (fid : UInt32) (opened : OpenFile) (node : Node) (room : Nat)
    (wait : Option Duration) : Option Delivery × Tree :=
  match node.content with
  | .directory =>
      match Bytes.behind? opened.listing opened.offset with
      | none => (none, tree)
      | some rest =>
          match packRecords rest room tree.limits.mostRead with
          | .error refusal => (some (refusedRead refusal), tree)
          | .ok count =>
              match Bytes.front? rest count with
              | none => (none, tree)
              | some bytes =>
                  (some ⟨bytes, .ok count⟩, tree.setOffset fid opened (opened.offset + count))
  | .file bytes =>
      let taken := (bytes.drop opened.offset).take (capped tree.limits.mostRead room)
      (some ⟨taken, .ok taken.length⟩, tree.setOffset fid opened (opened.offset + taken.length))
  | .stream queue =>
      let (delivery, rest) := readQueue (capped tree.limits.mostRead room) wait queue
      (some delivery, tree.setContent opened.path node (.stream rest))

def countRead (tree : Tree) : Tree :=
  { tree with ledger := { tree.ledger with reads := tree.ledger.reads + 1 } }

def countWrite (tree : Tree) : Tree :=
  { tree with ledger := { tree.ledger with writes := tree.ledger.writes + 1 } }

/-- Reads through an open file. A read that breaks off has been counted all the same. -/
def readFrom (tree : Tree) (fid : UInt32) (room : Nat) (wait : Option Duration) :
    Option Delivery × Tree :=
  let tree := tree.countRead
  if exceeds tree.limits.failAfterReads tree.ledger.reads then (some (refusedRead .faulty), tree)
  else
    match Table.find? fid tree.openFiles with
    | none => (some (refusedRead .unknownHandle), tree)
    | some opened =>
        if opened.mode.isReadable then
          match tree.find? opened.path with
          | none => (some (refusedRead .notFound), tree)
          | some node => tree.readNode fid opened node room wait
        else (some (refusedRead .notForReading), tree)

/-- Contents with some data written at an offset. A gap in front of the data is filled with
zeros. -/
def writtenAt (contents : Bytes) (offset : Nat) (data : Bytes) : Bytes :=
  contents.take offset ++ Bytes.zeros (offset - contents.length) ++ data ++
    contents.drop (offset + data.length)

def writeTo (tree : Tree) (fid : UInt32) (data : Bytes) : Except Refusal Nat × Tree :=
  let tree := tree.countWrite
  if exceeds tree.limits.failAfterWrites tree.ledger.writes then (.error .faulty, tree)
  else
    match Table.find? fid tree.openFiles with
    | none => (.error .unknownHandle, tree)
    | some opened =>
        if opened.mode.isWritable then
          match tree.find? opened.path with
          | none => (.error .notFound, tree)
          | some node =>
              let taken := data.take (capped tree.limits.mostWritten data.length)
              let node := { node with changeTime := tree.now }
              match node.content with
              | .directory => (.error .directoryThere, tree)
              | .file contents =>
                  let written := .file (writtenAt contents opened.offset taken)
                  (.ok taken.length,
                    (tree.setContent opened.path node written).setOffset fid opened
                      (opened.offset + taken.length))
              | .stream queue =>
                  (.ok taken.length,
                    tree.setContent opened.path node (.stream (queue ++ [.data taken])))
        else (.error .notForWriting, tree)

def removeAt (tree : Tree) (path : Path) : Except Refusal Unit × Tree :=
  if path = .root then (.error .rootStays, tree)
  else
    match tree.find? path with
    | none => (.error .notFound, tree)
    | some node =>
        if node.isDirectory && tree.nodes.any fun entry => entry.1.parent? = some path then
          (.error .notEmpty, tree)
        else (.ok (), { tree with nodes := Table.erase path tree.nodes })

/-- Closes an open file. A handle that is not of an open file is passed over. -/
def closeFid (tree : Tree) (fid : UInt32) : Tree :=
  match Table.find? fid tree.openFiles with
  | none => tree
  | some _ =>
      { tree with
        openFiles := Table.erase fid tree.openFiles
        ledger := { tree.ledger with closes := tree.ledger.closes + 1 } }

def mounted (tree : Tree) : Tree :=
  { tree with ledger := { tree.ledger with mounts := tree.ledger.mounts + 1 } }

def unmounted (tree : Tree) : Tree :=
  { tree with ledger := { tree.ledger with unmounts := tree.ledger.unmounts + 1 } }

/-- A tree as a server for clients of which no read breaks off. The empty delivery of one that does
break off stands for none. -/
def server : Server Tree where
  answer
    | .openFile path mode, tree => tree.openAt (.ofText path) mode
    | .createFile path permissions mode, tree => tree.createAt (.ofText path) permissions mode
    | .readFrom handle buffer wait, tree =>
        let read := tree.readFrom handle.fid buffer.length wait
        (read.1.getD ⟨[], .ok 0⟩, read.2)
    | .writeTo handle data, tree => tree.writeTo handle.fid data
    | .removeFile path, tree => tree.removeAt (.ofText path)
    | .statFile path, tree =>
        match tree.stat? path with
        | some stat => (.ok stat.encode, tree)
        | none => (.error .notFound, tree)
    | .closeFile handle, tree => ((), tree.closeFid handle.fid)
    | .unmount, tree => ((), tree.unmounted)

/-- What a tree answers to a request, unless it breaks off. Whoever asked goes no further then. -/
def reply? (tree : Tree) (request : Request) : Option request.Reply :=
  match request with
  | .readFrom handle buffer wait => (tree.readFrom handle.fid buffer.length wait).1
  | other => some (server.answer other tree).1

end Tree

end RemoteTree
