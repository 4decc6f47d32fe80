import RemoteTree.Proofs.Tree.Writing

/-!
# Reading a file at once

However many reads it takes to read a file or a stream, they bring the bytes that lie ahead, and
leave of a stream what lies behind them.
-/

set_option autoImplicit false

namespace RemoteTree

namespace Chunk

/-- The bytes that a number of pieces hold, and the pieces behind them. Stalls in front of a byte
are used up with it. -/
def drain : Nat → List Chunk → Bytes × List Chunk
  | 0, ahead => ([], ahead)
  | _ + 1, [] => ([], [])
  | count + 1, .stall :: rest => drain (count + 1) rest
  | count + 1, .data bytes :: rest => (bytes ++ (drain count rest).1, (drain count rest).2)

@[simp] theorem drain_zero (ahead : List Chunk) : drain 0 ahead = ([], ahead) := by
  cases ahead <;> rfl

private theorem drain_pieces (bytes : Bytes) (ahead : List Chunk) {count : Nat}
    (within : bytes.length ≤ count) :
    drain count (pieces (.data bytes) ++ ahead) =
      (bytes ++ (drain (count - bytes.length) ahead).1,
        (drain (count - bytes.length) ahead).2) := by
  induction bytes generalizing count with
  | nil => rfl
  | cons byte rest ih =>
      obtain ⟨count, rfl⟩ := Nat.exists_eq_add_of_le' (Nat.le_trans (Nat.le_add_left 1 _) within)
      have fewer : rest.length ≤ count := Nat.le_of_succ_le_succ within
      have same : count + 1 - (rest.length + 1) = count - rest.length := by omega
      have inner := ih fewer
      simp only [pieces, List.map_cons, List.cons_append, drain, List.length_cons, same] at inner ⊢
      rw [inner]
      rfl

/-- A read that delivers some bytes of what lies ahead leaves what lies behind them; one that
delivers nothing finds and leaves nothing. -/
structure Serves (ahead : List Chunk) (delivered : Bytes) (left : List Chunk) : Prop where
  some : delivered ≠ [] → ∀ count, delivered.length ≤ count →
    drain count ahead =
      (delivered ++ (drain (count - delivered.length) left).1,
        (drain (count - delivered.length) left).2)
  none : delivered = [] → left = [] ∧ ∀ count, 0 < count → drain count ahead = ([], [])

theorem Serves.stall {ahead left : List Chunk} {delivered : Bytes}
    (serves : Serves ahead delivered left) : Serves (.stall :: ahead) delivered left := by
  have skip {count : Nat} (more : 0 < count) : drain count (.stall :: ahead) = drain count ahead := by
    obtain ⟨count, rfl⟩ := Nat.exists_eq_add_of_le' more
    rfl
  refine ⟨fun some count within => ?_, fun none => ?_⟩
  · rw [skip (Nat.lt_of_lt_of_le (List.length_pos_iff.mpr some) within)]
    exact serves.some some count within
  · obtain ⟨ended, nothing⟩ := serves.none none
    exact ⟨ended, fun count more => by rw [skip more, nothing count more]⟩

/-- Some bytes in front are served in part. -/
theorem serves_take {room : Nat} (some : 0 < room) {bytes : Bytes} (more : bytes ≠ [])
    (behind : List Chunk) :
    Serves (pieces (.data bytes) ++ behind) (bytes.take room)
      (pieces (.data (bytes.drop room)) ++ behind) := by
  refine ⟨fun _ count within => ?_, fun none => ?_⟩
  · rw [← drain_pieces _ _ within, ← List.append_assoc, ← pieces_append, List.take_append_drop]
  · rcases List.take_eq_nil_iff.mp none with zero | empty
    · omega
    · exact absurd empty more

private theorem serves_nothing : Serves [] [] [] :=
  ⟨fun some => (some rfl).elim, fun _ => ⟨rfl, fun count more => by
    obtain ⟨count, rfl⟩ := Nat.exists_eq_add_of_le' more
    rfl⟩⟩

private theorem serves_bytes {room : Nat} (some : 0 < room) (bytes : Bytes) :
    Serves (pieces (.data bytes)) (bytes.take room)
      (pieces (.data (bytes.drop (bytes.take room).length))) := by
  rw [Bytes.drop_length_take]
  by_cases more : bytes = []
  · subst more
    simpa [pieces] using serves_nothing
  · simpa using serves_take some more []

end Chunk

namespace Tree

open Chunk (pieces settledQueue drain Serves)

/-- A read of a stream without a deadline. -/
theorem serves_readQueue {room : Nat} (some : 0 < room) (queue : List Chunk) :
    ∃ delivered, (readQueue room none queue).1 = ⟨delivered, .ok delivered.length⟩ ∧
      delivered.length ≤ room ∧
      Serves (settledQueue queue) delivered (settledQueue (readQueue room none queue).2) := by
  generalize waitIs : (none : Option Duration) = wait
  fun_induction readQueue room wait queue with
  | case1 => exact ⟨[], rfl, Nat.zero_le _, Chunk.serves_nothing⟩
  | case2 rest waits =>
      subst waitIs
      cases waits
  | case3 rest waits ih =>
      obtain ⟨delivered, delivery, fits, serves⟩ := ih
      exact ⟨delivered, delivery, fits, serves.stall⟩
  | case4 rest ih => exact ih
  | case5 bytes rest more taken left =>
      refine ⟨taken, rfl, List.length_take_le room bytes, ?_⟩
      have behind : settledQueue (if left.isEmpty then rest else .data left :: rest) =
          pieces (.data left) ++ settledQueue rest := by
        split
        · next empty => rw [List.isEmpty_iff.mp empty]; rfl
        · rfl
      rw [behind]
      exact Chunk.serves_take some (fun none => more none) (settledQueue rest)

/-- What is open for reading under a number, and the node it leads to. -/
structure Reads (tree : Tree) (fid : UInt32) (opened : OpenFile) (node : Node) : Prop where
  found : Table.find? fid tree.openFiles = some opened
  readable : opened.mode.isReadable = true
  there : tree.find? opened.path = some node
  plain : node.isDirectory = false

/-- What lies ahead of an open file, in single bytes. -/
def ahead (opened : OpenFile) (node : Node) : List Chunk :=
  match node.content with
  | .directory => []
  | .file bytes => pieces (.data (bytes.drop opened.offset))
  | .stream queue => settledQueue queue

/-- The tree once an open file is closed after reads that leave something ahead. -/
def leaving (tree : Tree) (fid : UInt32) (opened : OpenFile) (node : Node)
    (left : List Chunk) : Tree :=
  match node.content with
  | .stream _ => ((tree.setContent opened.path node (.stream left)).closeFid fid).settled
  | _ => (tree.closeFid fid).settled

variable {tree : Tree} {fid : UInt32} {opened : OpenFile} {node : Node}

theorem Reads.settled (reads : tree.Reads fid opened node) :
    tree.settled.Reads fid opened node.settled := by
  refine ⟨reads.found, reads.readable, ?_, by rw [Node.isDirectory_settled, reads.plain]⟩
  rw [find?_settled, reads.there, Option.map_some]

@[simp] theorem ahead_settled (opened : OpenFile) (node : Node) :
    ahead opened node.settled = ahead opened node := by
  obtain ⟨identity, mode, changeTime, content⟩ := node
  cases content with
  | directory => rfl
  | file => rfl
  | stream queue => exact Chunk.settledQueue_settledQueue queue

@[simp] theorem leaving_settled (tree : Tree) (fid : UInt32) (opened : OpenFile) (node : Node)
    (left : List Chunk) :
    tree.settled.leaving fid opened node.settled left = tree.leaving fid opened node left := by
  obtain ⟨identity, mode, changeTime, content⟩ := node
  cases content with
  | directory => simp only [leaving, Node.settled, Content.settled, closeFid_settled, settled_settled]
  | file => simp only [leaving, Node.settled, Content.settled, closeFid_settled, settled_settled]
  | stream queue =>
      simp only [leaving, Node.settled, Content.settled, closeFid_settled, setContent_settled,
        settled_settled]
      rfl

/-- What is left when an open file is closed. -/
theorem Reads.closed (reads : tree.Reads fid opened node) :
    (tree.closeFid fid).settled = tree.leaving fid opened node (ahead opened node) := by
  obtain ⟨identity, mode, changeTime, content⟩ := node
  cases content with
  | directory => rfl
  | file => rfl
  | stream queue =>
      have same := Table.insert_of_find? ((find?_settled tree opened.path).trans
        (congrArg (Option.map Node.settled) reads.there))
      have kept : tree.settled.setContent opened.path ⟨identity, mode, changeTime, .stream queue⟩
          (.stream (settledQueue queue)) = tree.settled := by
        rw [setContent]
        exact congrArg (fun nodes => { tree.settled with nodes := nodes }) same
      simp only [leaving, ahead, closeFid_settled, setContent_settled, Content.settled,
        Chunk.settledQueue_settledQueue, kept]

/-- What one read does: it brings some of what lies ahead, and leaves the rest. -/
def Brings (tree : Tree) (fid : UInt32) (opened : OpenFile) (node : Node) (room : Nat)
    (result : Option Delivery × Tree) : Prop :=
  ∃ delivered moved next, result.1 = some ⟨delivered, .ok delivered.length⟩ ∧
    delivered.length ≤ room ∧ result.2.limits = tree.limits ∧ result.2.Reads fid moved next ∧
    Serves (ahead opened node) delivered (ahead moved next) ∧
    ∀ left, result.2.leaving fid moved next left = tree.leaving fid opened node left

private theorem Reads.brings_file {bytes : Bytes} (reads : tree.Reads fid opened node)
    (holds : node.content = .file bytes) {room most : Nat} (some : 0 < most) (within : most ≤ room) :
    tree.Brings fid opened node room
      (Option.some ⟨(bytes.drop opened.offset).take most,
        .ok ((bytes.drop opened.offset).take most).length⟩,
        tree.countRead.setOffset fid opened
          (opened.offset + ((bytes.drop opened.offset).take most).length)) := by
  have serves := Chunk.serves_bytes some (bytes.drop opened.offset)
  have fits := List.length_take_le most (bytes.drop opened.offset)
  generalize (bytes.drop opened.offset).take most = taken at serves fits ⊢
  obtain ⟨identity, mode, changeTime, content⟩ := node
  cases holds
  refine ⟨taken, { opened with offset := opened.offset + taken.length },
    ⟨identity, mode, changeTime, .file bytes⟩, rfl, Nat.le_trans fits within, rfl, ?_, ?_, ?_⟩
  · exact ⟨(Table.find?_insert ..).trans (if_pos rfl), reads.readable, reads.there, rfl⟩
  · simpa only [ahead, List.drop_drop] using serves
  · intro left
    have found : Table.find? fid tree.countRead.openFiles = Option.some opened := reads.found
    simp only [leaving, closeFid_setOffset found, closeFid_settled]
    rfl

private theorem Reads.brings_stream {queue : List Chunk} (reads : tree.Reads fid opened node)
    (holds : node.content = .stream queue) {room most : Nat} (some : 0 < most)
    (within : most ≤ room) :
    tree.Brings fid opened node room
      (Option.some (readQueue most none queue).1,
        tree.countRead.setContent opened.path node (.stream (readQueue most none queue).2)) := by
  obtain ⟨identity, mode, changeTime, content⟩ := node
  cases holds
  obtain ⟨delivered, delivery, fits, serves⟩ := serves_readQueue some queue
  refine ⟨delivered, opened,
    ⟨identity, mode, changeTime, .stream (readQueue most none queue).2⟩,
    congrArg Option.some delivery, Nat.le_trans fits within, rfl, ?_, serves, ?_⟩
  · exact ⟨reads.found, reads.readable, (Table.find?_insert ..).trans (if_pos rfl), rfl⟩
  · intro left
    simp only [leaving, closeFid_settled, setContent_settled]
    simp only [setContent, Table.insert_insert]
    rfl

/-- With fair limits a read through an open file brings some of what lies ahead. -/
theorem Reads.brings (reads : tree.Reads fid opened node) (fair : tree.limits.Fair) {room : Nat}
    (some : 0 < room) : tree.Brings fid opened node room (tree.readFrom fid room none) := by
  have positive := capped_pos fair.mostRead some
  have within := capped_le tree.limits.mostRead room
  rw [readFrom_eq_readNode fair.reads reads.found reads.readable reads.there]
  unfold readNode
  split
  · next holds =>
    have plain := reads.plain
    simp [Node.isDirectory, holds] at plain
  · next holds => exact reads.brings_file holds positive within
  · next holds => exact reads.brings_stream holds positive within

end Tree

namespace Client

open Chunk (drain Serves)

variable {tree : Tree} {handle : Handle} {opened : OpenFile} {node : Node}

/-- What a read through an open file comes to: it moves some of what lies ahead, or it moves nothing
since there is nothing. -/
theorem exists_of_round (reads : tree.Reads handle.fid opened node) (fair : tree.limits.Fair)
    {tail : Bytes} (some : tail ≠ []) {delivery : Delivery} {transfer : Transfer} {left : Tree}
    (round : Round Tree.server tree (readInto handle tail delivery) transfer left) :
    ∃ delivered moved next, transfer = (if delivered = [] then .nothing else .moved delivered) ∧
      left.limits = tree.limits ∧ left.Reads handle.fid moved next ∧
      Serves (Tree.ahead opened node) delivered (Tree.ahead moved next) ∧
      ∀ behind, left.leaving handle.fid moved next behind =
        tree.leaving handle.fid opened node behind := by
  have room : 0 < (tail.take handle.transferSize).length := by
    rw [List.length_take]
    exact Nat.lt_min.mpr ⟨handle.transferSize_pos, List.length_pos_iff.mpr some⟩
  obtain ⟨delivered, moved, next, brought, fits, limits, after, serves, leaving⟩ :=
    reads.brings fair room
  have known : Round Tree.server tree (readInto handle tail ⟨delivered, .ok delivered.length⟩)
      (if delivered = [] then .nothing else .moved delivered)
      (tree.readFrom handle.fid (tail.take handle.transferSize).length none).2 := by
    refine ⟨Tree.answer_readFrom (Prod.ext brought rfl), ?_⟩
    split
    · next none =>
      subst none
      rfl
    · next more => exact Exchange.transfer?_of_received more fits handle none
  obtain ⟨rfl, rfl⟩ := round.unique known
  exact ⟨delivered, moved, next, rfl, limits, after, serves, leaving⟩

/-- What is collected when some bytes are held: the bytes that lie ahead, up to a limit. -/
structure Drained (tree : Tree) (handle : Handle) (opened : OpenFile) (node : Node) (held : Bytes)
    (ran : Except ClientError Bytes × Tree) : Prop where
  result : ran.1 = .ok (held ++ (drain (readLimit - held.length) (Tree.ahead opened node)).1)
  left : (ran.2.closeFid handle.fid).settled = tree.leaving handle.fid opened node
    (drain (readLimit - held.length) (Tree.ahead opened node)).2

namespace Drained

variable {held bytes tail : Bytes} {delivery : Delivery} {transfer : Transfer} {left : Tree}
  {ran : Except ClientError Bytes × Tree}

private theorem last (reads : tree.Reads handle.fid opened node) (fair : tree.limits.Fair)
    (some : tail ≠ []) (below : held.length < readLimit)
    (round : Round Tree.server tree (readInto handle tail delivery) transfer left)
    (still : ∀ bytes, transfer ≠ .moved bytes) (path : String) :
    Drained tree handle opened node held (resultOfReads handle path held (.some transfer), left) := by
  obtain ⟨delivered, moved, next, rfl, -, after, serves, leaving⟩ :=
    exists_of_round reads fair some round
  by_cases none : delivered = []
  · obtain ⟨ended, nothing⟩ := serves.none none
    have closed := after.closed
    rw [leaving, ended] at closed
    have drained := nothing (readLimit - held.length) (Nat.sub_pos_of_lt below)
    rw [if_pos none]
    exact ⟨by rw [drained, List.append_nil]; rfl, by rw [drained, closed]⟩
  · exact absurd (if_neg none) (still delivered)

/-- When a read has moved some bytes, the limit is reached or it goes on with what it left. -/
theorem cons (reads : tree.Reads handle.fid opened node) (fair : tree.limits.Fair)
    (some : tail ≠ []) (within : held.length + bytes.length ≤ readLimit)
    (round : Round Tree.server tree (readInto handle tail delivery) (.moved bytes) left)
    (goesOn : ∀ moved next, left.limits = tree.limits → left.Reads handle.fid moved next →
      Drained left handle moved next (held ++ bytes) ran) :
    Drained tree handle opened node held ran := by
  obtain ⟨delivered, moved, next, moves, limits, after, serves, leaving⟩ :=
    exists_of_round reads fair some round
  split at moves
  · cases moves
  · next more =>
    cases moves
    obtain ⟨result, closed⟩ := goesOn moved next limits after
    have served := serves.some more (readLimit - held.length) (by omega)
    rw [List.length_append, Nat.sub_add_eq] at result closed
    refine ⟨?_, ?_⟩
    · rw [result, served, List.append_assoc]
    · rw [closed, leaving, served]

private theorem full (reads : tree.Reads handle.fid opened node)
    (reached : held.length = readLimit) :
    Drained tree handle opened node held (.ok held, tree) := by
  have none : readLimit - held.length = 0 := by omega
  refine ⟨?_, ?_⟩
  · rw [none, Chunk.drain_zero, List.append_nil]
  · rw [none, Chunk.drain_zero, reads.closed]

end Drained

/-- The rounds that read a file at once bring the bytes that lie ahead. -/
theorem ReadRounds.drained {path : String} {held tail : Bytes} {log : List Exchange}
    {ran : Except ClientError Bytes × Tree}
    (rounds : ReadRounds Tree.server handle path none held tail tree log ran)
    (reads : tree.Reads handle.fid opened node) (fair : tree.limits.Fair) (some : tail ≠ [])
    (within : held.length + tail.length ≤ readLimit) :
    Drained tree handle opened node held ran := by
  -- The tree stays one that reads, and its limits stay fair.
  induction rounds generalizing opened node with
  | last round still =>
      have more := List.length_pos_of_ne_nil some
      exact .last reads fair some (by omega) round still path
  | filled round whole full =>
      rw [List.length_append] at full
      refine .cons reads fair some (by omega) round fun moved next limits after => ?_
      exact .full after (by rw [List.length_append]; omega)
  | bursts round whole small refused => cases refused
  | next round left more _ ih =>
      refine .cons reads fair some (by omega) round fun moved next limits after => ?_
      exact ih after (limits ▸ fair) more (by rw [List.length_append]; omega)
  | @grow held tail bytes tree middle delivery log ran round whole small grows _ ih =>
      have zeros : (Bytes.zeros (readLimit - (held ++ bytes).length)).length =
          readLimit - (held ++ bytes).length := List.length_replicate
      refine .cons reads fair some (by omega) round fun moved next limits after => ?_
      exact ih after (limits ▸ fair) (List.ne_nil_of_length_pos (by omega)) (by omega)

theorem readCapped_drained (reads : tree.Reads handle.fid opened node) (fair : tree.limits.Fair)
    (path : String) :
    Drained tree handle opened node [] ((readCapped handle path none).run Tree.server tree) :=
  (readCapped_rounds Tree.server path rfl tree).drained reads fair (start_ne_nil handle)
    (length_start_le handle)

end Client

end RemoteTree
