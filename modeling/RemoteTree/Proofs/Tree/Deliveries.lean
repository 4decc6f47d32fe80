import RemoteTree.Proofs.Client.Alike
import RemoteTree.Proofs.Tree.Packing

/-!
# What a tree hands out and delivers

What is open after a tree has given out a handle, and the reader that is started on it. A read of a
tree never claims more bytes than there is room for, and without faults it is the node of the open
file that delivers.
-/

set_option autoImplicit false

namespace RemoteTree

namespace Tree

/-! ## Opening -/

theorem find?_issue (tree : Tree) (path : Path) (mode : OpenMode) :
    Table.find? (tree.issue path mode).1.fid (tree.issue path mode).2.openFiles =
      some ⟨path, mode, 0, if tree.hasDirectory path then tree.listing path else []⟩ :=
  (Table.find?_insert ..).trans (if_pos rfl)

end Tree

/-- A reader is started on whatever there is at a path, if its buffer is allowed. -/
theorem Connection.run_openReader (connection : Connection) {tree : Tree} {text : String}
    {node : Node} (found : tree.find? (.ofText text) = some node) {Reader : Type}
    (start : Handle → String → Reader)
    (fits : Client.fits connection.bufferLimit
      (tree.issue (.ofText text) .read).1.transferSize = true) :
    (connection.openReader text start).run Tree.server tree =
      (.ok (start (tree.issue (.ofText text) .read).1 text),
        (tree.issue (.ofText text) .read).2) := by
  have opened : tree.openAt (.ofText text) .read =
      (.ok (tree.issue (.ofText text) .read).1, (tree.issue (.ofText text) .read).2) := by
    simp [Tree.openAt, found, OpenMode.isWritable]
  simp only [openReader, withOpened, Client.run, Tree.server, opened, fits, ↓reduceIte]

namespace Tree

/-! ## Reading -/

/-- Does a delivery claim no more than there is room for? -/
def Fits (delivery : Delivery) (room : Nat) : Prop :=
  ∀ count, delivery.claimed = .ok count → count ≤ room

private theorem fits_refusal (received : Bytes) (refusal : Refusal) (room : Nat) :
    Fits ⟨received, .error refusal⟩ room := fun _ claimed => by cases claimed

theorem fits_ok {received : Bytes} {count room : Nat} (within : count ≤ room) :
    Fits ⟨received, .ok count⟩ room := fun _ claimed => by cases claimed; exact within

theorem capped_le (limit : Option Nat) (count : Nat) : capped limit count ≤ count := by
  unfold capped
  split
  · exact Nat.min_le_left _ _
  · exact Nat.le_refl _

private theorem fits_readQueue (room : Nat) (wait : Option Duration) (queue : List Chunk) :
    Fits (readQueue room wait queue).1 room := by
  fun_induction readQueue room wait queue with
  | case1 => exact fits_ok (Nat.zero_le _)
  | case2 => exact fits_refusal _ _ _
  | case3 _ _ ih => exact ih
  | case4 _ ih => exact ih
  | case5 bytes rest => exact fits_ok (List.length_take_le room bytes)

private theorem fits_readNode {tree : Tree} {fid : UInt32} {opened : OpenFile} {node : Node}
    {room : Nat} {wait : Option Duration} {delivery : Delivery}
    (answered : (tree.readNode fid opened node room wait).1 = some delivery) :
    Fits delivery room := by
  unfold readNode at answered
  split at answered
  · split at answered
    · cases answered
    · split at answered
      · cases answered
        exact fits_refusal _ _ _
      · next packed =>
        split at answered
        · cases answered
        · cases answered
          exact fits_ok (packRecords_le packed)
  · cases answered
    exact fits_ok (Nat.le_trans (List.length_take_le _ _) (capped_le _ _))
  · cases answered
    intro count claimed
    exact Nat.le_trans (fits_readQueue _ wait _ count claimed) (capped_le _ _)

theorem fits_readFrom {tree : Tree} {fid : UInt32} {room : Nat} {wait : Option Duration}
    {delivery : Delivery} (answered : (tree.readFrom fid room wait).1 = some delivery) :
    Fits delivery room := by
  unfold readFrom at answered
  dsimp only at answered
  split at answered
  · cases answered
    exact fits_refusal _ _ _
  · split at answered
    · cases answered
      exact fits_refusal _ _ _
    · split at answered
      · split at answered
        · cases answered
          exact fits_refusal _ _ _
        · exact fits_readNode answered
      · cases answered
        exact fits_refusal _ _ _

/-- As a server a tree stays within the buffers of its reads. -/
theorem server_staysWithin : server.StaysWithin := by
  intro handle buffer wait tree count claimed
  cases answered : (tree.readFrom handle.fid buffer.length wait).1 with
  | none =>
    simp only [server, answered, Option.getD_none] at claimed
    cases claimed
    exact Nat.zero_le _
  | some delivery =>
    simp only [server, answered, Option.getD_some] at claimed
    exact fits_readFrom answered count claimed

/-- Where a read does not break off its delivery is the answer of the tree as a server. -/
theorem answer_readFrom {tree after : Tree} {handle : Handle} {buffer : Bytes}
    {wait : Option Duration} {delivery : Delivery}
    (read : tree.readFrom handle.fid buffer.length wait = (some delivery, after)) :
    server.answer (.readFrom handle buffer wait) tree = (delivery, after) := by
  simp only [server, read, Option.getD_some]

/-- Without faults a read through an open file gets to the node. -/
theorem readFrom_eq_readNode {tree : Tree} {fid : UInt32} {opened : OpenFile} {node : Node}
    (reliable : tree.limits.failAfterReads = none)
    (found : Table.find? fid tree.openFiles = some opened)
    (readable : opened.mode.isReadable = true) (there : tree.find? opened.path = some node)
    (room : Nat) (wait : Option Duration) :
    tree.readFrom fid room wait = tree.countRead.readNode fid opened node room wait := by
  have trusted : tree.countRead.limits.failAfterReads = none := reliable
  have known : Table.find? fid tree.countRead.openFiles = some opened := found
  have reached : tree.countRead.find? opened.path = some node := there
  simp only [readFrom, trusted, known, reached, readable, exceeds, Bool.false_eq_true, ↓reduceIte]

theorem exists_directory {tree : Tree} {path : Path} (directory : tree.hasDirectory path = true) :
    ∃ node, tree.find? path = some node ∧ node.content = .directory := by
  unfold hasDirectory at directory
  split at directory
  · next node found =>
    refine ⟨node, found, ?_⟩
    unfold Node.isDirectory at directory
    split at directory
    · next holds => exact holds
    · cases directory
  · cases directory

/-- Without faults a read of an open directory packs records of what lies ahead in its listing. -/
theorem readFrom_directory {tree : Tree} {fid : UInt32} {opened : OpenFile} {ahead : Bytes}
    (reliable : tree.limits.failAfterReads = none)
    (found : Table.find? fid tree.openFiles = some opened)
    (readable : opened.mode.isReadable = true) (still : tree.hasDirectory opened.path = true)
    (listing : opened.listing.behind? opened.offset = some ahead) (room : Nat)
    (wait : Option Duration) :
    tree.readFrom fid room wait =
      match packRecords ahead room tree.limits.mostRead with
      | .error refusal => (some (refusedRead refusal), tree.countRead)
      | .ok count =>
        match ahead.front? count with
        | none => (none, tree.countRead)
        | some bytes => (some ⟨bytes, .ok count⟩,
            tree.countRead.setOffset fid opened (opened.offset + count)) := by
  obtain ⟨node, there, content⟩ := exists_directory still
  rw [readFrom_eq_readNode reliable found readable there, readNode]
  simp only [content, listing]
  rfl

/-- A read that packs records which are all there delivers them and gets behind them. -/
theorem readFrom_packed {tree : Tree} {fid : UInt32} {opened : OpenFile} {now later : Bytes}
    {room : Nat} (reliable : tree.limits.failAfterReads = none)
    (found : Table.find? fid tree.openFiles = some opened)
    (readable : opened.mode.isReadable = true) (still : tree.hasDirectory opened.path = true)
    (listing : opened.listing.behind? opened.offset = some (now ++ later))
    (packed : packRecords (now ++ later) room tree.limits.mostRead = .ok now.length)
    (wait : Option Duration) :
    tree.readFrom fid room wait = (some ⟨now, .ok now.length⟩,
      tree.countRead.setOffset fid opened (opened.offset + now.length)) := by
  rw [readFrom_directory reliable found readable still listing, packed]
  simp only [Bytes.front?_append]

end Tree

end RemoteTree
