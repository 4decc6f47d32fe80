import RemoteTree.Proofs.Client.Rounds
import RemoteTree.Proofs.Tree.Deliveries
import RemoteTree.Proofs.Tree.History
import RemoteTree.Proofs.Tree.Settled

/-!
# Writing all of some data

However many writes it takes to write all of some data, they come to one write of all of it.
-/

set_option autoImplicit false

namespace RemoteTree

/-- Limits under which no transfer fails, and each moves something. -/
structure Limits.Fair (limits : Limits) : Prop where
  reads : limits.failAfterReads = none
  writes : limits.failAfterWrites = none
  mostRead : limits.mostRead ≠ some 0
  mostWritten : limits.mostWritten ≠ some 0

theorem Limits.fair_widest : Limits.widest.Fair := ⟨rfl, rfl, nofun, nofun⟩

/-- A node after some data has been written at an offset. -/
def Node.written (node : Node) (now : UInt32) (offset : Nat) (data : Bytes) : Node :=
  { node with
    changeTime := now
    content :=
      match node.content with
      | .directory => .directory
      | .file contents => .file (Tree.writtenAt contents offset data)
      | .stream queue => .stream (queue ++ [.data data]) }

/-- An open file after some bytes have been written. Streams have no offset. -/
def OpenFile.past (opened : OpenFile) (node : Node) (count : Nat) : OpenFile :=
  match node.content with
  | .file _ => { opened with offset := opened.offset + count }
  | _ => opened

namespace Tree

theorem capped_pos {limit : Option Nat} (some : limit ≠ some 0) {count : Nat} (more : 0 < count) :
    0 < capped limit count := by
  unfold capped
  split
  · next most =>
    have : most ≠ 0 := fun zero => some (by rw [zero])
    omega
  · exact more

theorem writtenAt_writtenAt (contents : Bytes) (offset : Nat) (first rest : Bytes) :
    writtenAt (writtenAt contents offset first) (offset + first.length) rest =
      writtenAt contents offset (first ++ rest) := by
  generalize frontIs : contents.take offset ++ Bytes.zeros (offset - contents.length) = front
  have size : front.length = offset := by
    rw [← frontIs, Bytes.zeros, List.length_append, List.length_take, List.length_replicate]
    omega
  have once (data : Bytes) : writtenAt contents offset data =
      (front ++ data) ++ contents.drop (offset + data.length) := by
    rw [writtenAt, frontIs]
  have reached : (front ++ first).length = offset + first.length := by
    rw [List.length_append, size]
  have behind : (offset + first.length - ((front ++ first) ++
      contents.drop (offset + first.length)).length) = 0 := by
    rw [List.length_append, reached]
    omega
  rw [once first, once (first ++ rest), writtenAt, behind, ← reached, List.take_left,
    List.drop_append, List.drop_of_length_le (Nat.le_add_right _ _), Nat.add_sub_cancel_left,
    List.drop_drop, reached, List.length_append]
  simp [Bytes.zeros, Nat.add_assoc]

end Tree

namespace OpenFile

@[simp] theorem path_past (opened : OpenFile) (node : Node) (count : Nat) :
    (opened.past node count).path = opened.path := by
  unfold past
  split <;> rfl

@[simp] theorem mode_past (opened : OpenFile) (node : Node) (count : Nat) :
    (opened.past node count).mode = opened.mode := by
  unfold past
  split <;> rfl

private theorem past_past (opened : OpenFile) (node : Node) (now : UInt32) (offset first rest : Nat)
    (data : Bytes) :
    (opened.past node first).past (node.written now offset data) rest =
      opened.past node (first + rest) := by
  obtain ⟨identity, mode, changeTime, content⟩ := node
  cases content with
  | directory => rfl
  | file contents => simp [past, Node.written, Nat.add_assoc]
  | stream queue => rfl

@[simp] theorem past_settled (opened : OpenFile) (node : Node) (count : Nat) :
    opened.past node.settled count = opened.past node count := by
  obtain ⟨identity, mode, changeTime, content⟩ := node
  cases content <;> rfl

end OpenFile

namespace Node

@[simp] theorem isDirectory_written (node : Node) (now : UInt32) (offset : Nat) (data : Bytes) :
    (node.written now offset data).isDirectory = node.isDirectory := by
  obtain ⟨identity, mode, changeTime, content⟩ := node
  cases content <;> rfl

/-- Two writes in a row come to one, up to how a stream is cut. -/
theorem written_written (node : Node) (now : UInt32) (opened : OpenFile) (first rest : Bytes) :
    ((node.written now opened.offset first).written now (opened.past node first.length).offset
      rest).settled = (node.written now opened.offset (first ++ rest)).settled := by
  obtain ⟨identity, mode, changeTime, content⟩ := node
  cases content with
  | directory => rfl
  | file contents => simp [written, settled, OpenFile.past, Tree.writtenAt_writtenAt]
  | stream queue => simp [written, settled, Content.settled, Chunk.pieces_append]

private theorem written_settled (node : Node) (now : UInt32) (offset : Nat) (data : Bytes) :
    (node.settled.written now offset data).settled = (node.written now offset data).settled := by
  obtain ⟨identity, mode, changeTime, content⟩ := node
  cases content <;> simp [written, settled, Content.settled]

end Node

namespace Tree

/-- What is open for writing under a number, and the node it leads to. -/
structure Writes (tree : Tree) (fid : UInt32) (opened : OpenFile) (node : Node) : Prop where
  found : Table.find? fid tree.openFiles = some opened
  writable : opened.mode.isWritable = true
  there : tree.find? opened.path = some node
  plain : node.isDirectory = false

/-- The tree after one write of all of some data. -/
def put (tree : Tree) (fid : UInt32) (opened : OpenFile) (node : Node) (data : Bytes) : Tree :=
  { tree with
    nodes := Table.insert opened.path (node.written tree.now opened.offset data) tree.nodes
    openFiles := Table.insert fid (opened.past node data.length) tree.openFiles }

variable {tree : Tree} {fid : UInt32} {opened : OpenFile} {node : Node}

/-- A write that does not come after too many puts as much of the data as the limits allow. -/
theorem Writes.writeTo (writes : tree.Writes fid opened node)
    (allowed : exceeds tree.limits.failAfterWrites (tree.ledger.writes + 1) = false)
    (data : Bytes) :
    let taken := data.take (capped tree.limits.mostWritten data.length)
    tree.writeTo fid data = (.ok taken.length, tree.countWrite.put fid opened node taken) := by
  obtain ⟨found, writable, there, plain⟩ := writes
  have sound : exceeds tree.countWrite.limits.failAfterWrites tree.countWrite.ledger.writes =
      false := allowed
  have known : Table.find? fid tree.countWrite.openFiles = some opened := found
  have reached : tree.countWrite.find? opened.path = some node := there
  simp only [Tree.writeTo, sound, known, reached, writable, Bool.false_eq_true, ↓reduceIte]
  obtain ⟨identity, mode, changeTime, content⟩ := node
  cases content with
  | directory => cases plain
  | file contents => rfl
  | stream queue =>
      have kept := Table.insert_of_find? found
      simp only [put, OpenFile.past, countWrite, kept]
      rfl

theorem Writes.countWrite (writes : tree.Writes fid opened node) :
    tree.countWrite.Writes fid opened node :=
  ⟨writes.found, writes.writable, writes.there, writes.plain⟩

theorem Writes.put (writes : tree.Writes fid opened node) (data : Bytes) :
    (tree.put fid opened node data).Writes fid (opened.past node data.length)
      (node.written tree.now opened.offset data) := by
  refine ⟨(Table.find?_insert ..).trans (if_pos rfl), ?_, ?_, ?_⟩
  · rw [OpenFile.mode_past, writes.writable]
  · rw [OpenFile.path_past]
    exact (Table.find?_insert ..).trans (if_pos rfl)
  · rw [Node.isDirectory_written, writes.plain]

theorem Writes.settled (writes : tree.Writes fid opened node) :
    tree.settled.Writes fid opened node.settled := by
  refine ⟨writes.found, writes.writable, ?_, by rw [Node.isDirectory_settled, writes.plain]⟩
  rw [find?_settled, writes.there, Option.map_some]

private theorem settled_put (tree : Tree) (fid : UInt32) (opened : OpenFile) (node : Node)
    (data : Bytes) :
    (tree.put fid opened node data).settled =
      { tree.settled with
        nodes := Table.insert opened.path (node.written tree.now opened.offset data).settled
          tree.settled.nodes
        openFiles := Table.insert fid (opened.past node data.length) tree.openFiles } := by
  simp only [put, settled, ← Table.insert_mapValues]

private theorem put_put (tree : Tree) (fid : UInt32) (opened : OpenFile) (node : Node)
    (first rest : Bytes) :
    ((tree.put fid opened node first).put fid (opened.past node first.length)
      (node.written tree.now opened.offset first) rest).settled =
        (tree.put fid opened node (first ++ rest)).settled := by
  rw [settled_put, settled_put, settled_put, OpenFile.path_past, OpenFile.past_past]
  simp only [put, Node.written_written, Table.insert_insert, List.length_append]

/-- A write goes past settling. -/
theorem put_settled (tree : Tree) (fid : UInt32) (opened : OpenFile) (node : Node) (data : Bytes) :
    (tree.settled.put fid opened node.settled data).settled =
      (tree.put fid opened node data).settled := by
  rw [settled_put, settled_put, settled_settled, OpenFile.past_settled]
  simp only [settled, Node.written_settled]

private theorem countWrite_put (tree : Tree) (fid : UInt32) (opened : OpenFile) (node : Node)
    (data : Bytes) :
    (tree.countWrite.put fid opened node data).settled = (tree.put fid opened node data).settled :=
  rfl

end Tree

namespace Client

variable {tree : Tree} {handle : Handle} {opened : OpenFile} {node : Node} {data : Bytes}

theorem round_of_writes (writes : tree.Writes handle.fid opened node)
    (allowed : Tree.exceeds tree.limits.failAfterWrites (tree.ledger.writes + 1) = false)
    (moving : tree.limits.mostWritten ≠ some 0) (some : data ≠ []) :
    let taken := data.take (Tree.capped tree.limits.mostWritten data.length)
    Round Tree.server tree ⟨.writeTo handle data, .ok taken.length⟩ (.moved taken)
      (tree.countWrite.put handle.fid opened node taken) := by
  intro taken
  have positive := Tree.capped_pos moving (List.length_pos_of_ne_nil some)
  have size : taken.length = Tree.capped tree.limits.mostWritten data.length :=
    List.length_take_of_le (Tree.capped_le _ _)
  have moves := Transfer.ofClaim_moved (Nat.ne_of_gt positive) (Tree.capped_le _ data.length)
  rw [← size] at moves
  exact ⟨writes.writeTo allowed data, congrArg Option.some (moves.trans (by rw [size]))⟩

/-- The rounds that write all of some data come to one write of it. -/
theorem WriteRounds.settled {path : String} {log : List Exchange}
    {ran : Except ClientError Unit × Tree}
    (rounds : WriteRounds Tree.server handle path data tree log ran)
    (writes : tree.Writes handle.fid opened node) (fair : tree.limits.Fair) (some : data ≠ []) :
    ran.1 = .ok () ∧ ran.2.settled = (tree.put handle.fid opened node data).settled := by
  have allowed (tree : Tree) (fair : tree.limits.Fair) :
      Tree.exceeds tree.limits.failAfterWrites (tree.ledger.writes + 1) = false := by
    rw [fair.writes, Tree.exceeds]
  -- The tree stays one that writes, and its limits stay fair.
  induction rounds generalizing opened node with
  | nothing tree => exact absurd rfl some
  | last _ round still =>
      obtain ⟨moves, -⟩ := round.unique
        (round_of_writes writes (allowed _ fair) fair.mostWritten some)
      exact absurd moves (still _)
  | @next data bytes left tree middle reply log ran round split rounds ih =>
      obtain ⟨moves, rfl⟩ := round.unique
        (round_of_writes writes (allowed _ fair) fair.mostWritten some)
      rw [← Transfer.moved.inj moves] at rounds ih
      cases left with
      | nil =>
          obtain ⟨-, rfl⟩ := rounds.of_nil
          rw [← split, List.append_nil]
          exact ⟨rfl, Tree.countWrite_put ..⟩
      | cons byte further =>
          obtain ⟨succeeds, ends⟩ :=
            ih (writes.countWrite.put bytes) fair (List.cons_ne_nil byte further)
          have once := tree.countWrite.put_put handle.fid opened node bytes (byte :: further)
          rw [split, Tree.countWrite_put] at once
          exact ⟨succeeds, ends.trans once⟩

end Client

end RemoteTree
