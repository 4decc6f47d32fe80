import RemoteTree.Proofs.Table
import RemoteTree.Tree.Service

/-!
# Trees up to their transfers

A settled tree has the widest limits and no transfers on its ledger, and has its streams cut into
single bytes. Two trees that settle in the same way hold the same, whatever transfers brought them
there. Whatever does not transfer bytes goes past settling.
-/

set_option autoImplicit false

namespace RemoteTree

namespace Chunk

/-- A chunk cut into single bytes. -/
def pieces : Chunk → List Chunk
  | .data bytes => bytes.map fun byte => .data [byte]
  | .stall => [.stall]

def settledQueue (queue : List Chunk) : List Chunk := queue.flatMap pieces

@[simp] theorem settledQueue_cons (chunk : Chunk) (rest : List Chunk) :
    settledQueue (chunk :: rest) = chunk.pieces ++ settledQueue rest := rfl

@[simp] theorem settledQueue_append (first rest : List Chunk) :
    settledQueue (first ++ rest) = settledQueue first ++ settledQueue rest :=
  List.flatMap_append

theorem pieces_append (first rest : Bytes) :
    pieces (.data (first ++ rest)) = pieces (.data first) ++ pieces (.data rest) :=
  List.map_append

private theorem settledQueue_pieces (chunk : Chunk) : settledQueue chunk.pieces = chunk.pieces := by
  cases chunk with
  | stall => rfl
  | data bytes =>
      simp only [settledQueue, pieces, List.flatMap_map, List.map_cons, List.map_nil]
      exact List.map_eq_flatMap.symm

@[simp] theorem settledQueue_settledQueue (queue : List Chunk) :
    settledQueue (settledQueue queue) = settledQueue queue := by
  induction queue with
  | nil => rfl
  | cons chunk rest ih =>
      rw [settledQueue_cons, settledQueue_append, settledQueue_pieces, ih]

end Chunk

def Content.settled : Content → Content
  | .stream queue => .stream (Chunk.settledQueue queue)
  | content => content

/-- A node with its stream cut into single bytes. -/
def Node.settled (node : Node) : Node := { node with content := node.content.settled }

@[simp] theorem Node.isDirectory_settled (node : Node) :
    node.settled.isDirectory = node.isDirectory := by
  obtain ⟨identity, mode, changeTime, content⟩ := node
  cases content <;> rfl

@[simp] theorem Node.settled_settled (node : Node) : node.settled.settled = node.settled := by
  obtain ⟨identity, mode, changeTime, content⟩ := node
  cases content <;> simp [settled, Content.settled]

/-- Limits under which transfers are as large as a client honours. -/
def Limits.widest : Limits := { iounit := largestTransferSize }

def Handle.widened (handle : Handle) : Handle := { handle with iounit := largestTransferSize }

@[simp] theorem Handle.isDirectory_widened (handle : Handle) :
    handle.widened.isDirectory = handle.isDirectory := rfl

namespace Tree

/-- A tree with the widest limits, no transfers, and its streams cut into single bytes. -/
def settled (tree : Tree) : Tree :=
  { tree with
    nodes := Table.mapValues Node.settled tree.nodes
    limits := .widest
    ledger := { tree.ledger with reads := 0, writes := 0 } }

@[simp] theorem settled_settled (tree : Tree) : tree.settled.settled = tree.settled := by
  simp [settled, Table.mapValues, Function.comp_def]

@[simp] theorem find?_settled (tree : Tree) (path : Path) :
    tree.settled.find? path = (tree.find? path).map Node.settled :=
  Table.find?_mapValues ..

@[simp] theorem hasDirectory_settled (tree : Tree) (path : Path) :
    tree.settled.hasDirectory path = tree.hasDirectory path := by
  unfold hasDirectory
  rw [find?_settled]
  cases tree.find? path with
  | none => rfl
  | some node => exact node.isDirectory_settled

@[simp] theorem statOf_settled (tree : Tree) (path : Path) (node : Node) :
    tree.settled.statOf path node.settled = tree.statOf path node := by
  obtain ⟨identity, mode, changeTime, content⟩ := node
  cases content <;> rfl

@[simp] theorem stat?_settled (tree : Tree) (path : String) :
    tree.settled.stat? path = tree.stat? path := by
  unfold stat?
  rw [find?_settled]
  cases tree.find? (.ofText path) with
  | none => rfl
  | some node => exact congrArg some (tree.statOf_settled _ node)

theorem childrenOf_settled (tree : Tree) (directory : Path) :
    tree.settled.childrenOf directory =
      (tree.childrenOf directory).map fun entry => (entry.1, entry.2.settled) := by
  simp only [childrenOf, settled, Table.mapValues, List.filter_map]
  refine (List.map_mergeSort ?_).symm
  exact fun _ _ _ _ => rfl

@[simp] theorem listing_settled (tree : Tree) (directory : Path) :
    tree.settled.listing directory = tree.listing directory := by
  simp only [listing, childrenOf_settled, List.flatMap_map, statOf_settled]

/-! ## What goes past settling -/

private theorem place_settled (tree : Tree) (path : Path) (mode : UInt32) (content : Content) :
    (tree.place path mode content).settled = tree.settled.place path mode content.settled := by
  unfold place
  rw [find?_settled]
  cases tree.find? path with
  | none =>
      simp only [settled, Option.map_none, ← Table.insert_mapValues]
      rfl
  | some old =>
      simp only [settled, Option.map_some, ← Table.insert_mapValues]
      rfl

private theorem insert_settled (tree : Tree) (path : Path) (mode : UInt32) (content : Content) :
    (tree.insert path mode content).settled = tree.settled.insert path mode content.settled := by
  induction path generalizing tree mode content with
  | root => exact tree.place_settled .root mode content
  | child parent name ih =>
      unfold insert
      dsimp only
      rw [place_settled, hasDirectory_settled]
      split
      · rfl
      · rw [ih]
        rfl

theorem issue_settled (tree : Tree) (path : Path) (mode : OpenMode) :
    (tree.issue path mode).2.settled = (tree.settled.issue path mode).2 := by
  simp only [issue, hasDirectory_settled, listing_settled]
  rfl

theorem setContent_settled (tree : Tree) (path : Path) (node : Node) (content : Content) :
    (tree.setContent path node content).settled =
      tree.settled.setContent path node content.settled := by
  simp only [setContent, settled, ← Table.insert_mapValues]
  rfl

theorem closeFid_settled (tree : Tree) (fid : UInt32) :
    (tree.closeFid fid).settled = tree.settled.closeFid fid := by
  unfold closeFid
  rw [show tree.settled.openFiles = tree.openFiles from rfl]
  split
  · rfl
  · rfl

theorem removeAt_settled (tree : Tree) (path : Path) :
    (tree.settled.removeAt path).1 = (tree.removeAt path).1 ∧
      (tree.settled.removeAt path).2 = (tree.removeAt path).2.settled := by
  have children : (tree.settled.nodes.any fun entry => entry.1.parent? = some path) =
      tree.nodes.any fun entry => entry.1.parent? = some path := by
    simp only [settled, Table.mapValues, List.any_map]
    rfl
  unfold removeAt
  rw [find?_settled, children]
  split
  · exact ⟨rfl, rfl⟩
  · cases tree.find? path with
    | none => exact ⟨rfl, rfl⟩
    | some node =>
        simp only [Option.map_some, Node.isDirectory_settled]
        split
        · exact ⟨rfl, rfl⟩
        · exact ⟨rfl, by simp [settled]⟩

private theorem issued_settled (tree : Tree) (path : Path) (mode : OpenMode) :
    (tree.settled.issue path mode).1 = (tree.issue path mode).1.widened ∧
      (tree.settled.issue path mode).2 = (tree.issue path mode).2.settled := by
  refine ⟨?_, (tree.issue_settled path mode).symm⟩
  simp only [issue, hasDirectory_settled]
  rfl

theorem openAt_settled (tree : Tree) (path : Path) (mode : OpenMode) :
    (tree.settled.openAt path mode).1 = (tree.openAt path mode).1.map Handle.widened ∧
      (tree.settled.openAt path mode).2 = (tree.openAt path mode).2.settled := by
  unfold openAt
  rw [find?_settled]
  cases tree.find? path with
  | none => exact ⟨rfl, rfl⟩
  | some node =>
      simp only [Option.map_some, Node.isDirectory_settled]
      split
      · exact ⟨rfl, rfl⟩
      · exact (issued_settled tree path mode).imp_left (congrArg Except.ok)

theorem createAt_settled (tree : Tree) (path : Path) (permissions : UInt32) (mode : OpenMode) :
    (tree.settled.createAt path permissions mode).1 =
        (tree.createAt path permissions mode).1.map Handle.widened ∧
      (tree.settled.createAt path permissions mode).2 =
        (tree.createAt path permissions mode).2.settled := by
  unfold createAt
  simp only [find?_settled, Option.isSome_map]
  split
  · exact ⟨rfl, rfl⟩
  · cases path.parent? with
    | none => exact ⟨rfl, rfl⟩
    | some parent =>
        dsimp only
        cases tree.find? parent with
        | none => exact ⟨rfl, rfl⟩
        | some directory =>
            simp only [Option.map_some, Node.isDirectory_settled]
            split
            · rw [show tree.settled.createsDirectories = tree.createsDirectories from rfl]
              split
              · have made := tree.insert_settled path
                  (directoryMode ||| permissions &&& permissionBits) .directory
                rw [show Content.directory = Content.directory.settled from rfl, ← made]
                exact (issued_settled _ path mode).imp_left (congrArg Except.ok)
              · have made := tree.insert_settled path (permissions &&& permissionBits) (.file [])
                rw [show Content.file [] = (Content.file []).settled from rfl, ← made]
                exact (issued_settled _ path mode).imp_left (congrArg Except.ok)
            · exact ⟨rfl, rfl⟩

/-! ## Closing -/

/-- Closing an open file forgets where in it its client was. -/
theorem closeFid_setOffset {tree : Tree} {fid : UInt32} {opened : OpenFile}
    (found : Table.find? fid tree.openFiles = some opened) (offset : Nat) :
    (tree.setOffset fid opened offset).closeFid fid = tree.closeFid fid := by
  have moved : Table.find? fid (tree.setOffset fid opened offset).openFiles =
      some { opened with offset := offset } := (Table.find?_insert ..).trans (if_pos rfl)
  unfold closeFid
  rw [found, moved]
  simp [setOffset]

@[simp] theorem hasDirectory_closeFid (tree : Tree) (fid : UInt32) (path : Path) :
    (tree.closeFid fid).hasDirectory path = tree.hasDirectory path := by
  unfold closeFid
  split <;> rfl

/-- Two trees that settle in the same way once an open file is closed. -/
def SameClosed (fid : UInt32) (first second : Tree) : Prop :=
  (first.closeFid fid).settled = (second.closeFid fid).settled

theorem SameClosed.hasDirectory {fid : UInt32} {first second : Tree}
    (same : SameClosed fid first second) (path : Path) :
    first.hasDirectory path = second.hasDirectory path := by
  have closed := congrArg (fun tree : Tree => tree.hasDirectory path) same
  simpa only [hasDirectory_settled, hasDirectory_closeFid] using closed

end Tree

end RemoteTree
