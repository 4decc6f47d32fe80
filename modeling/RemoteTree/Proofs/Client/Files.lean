import RemoteTree.Proofs.Client.Deeds
import RemoteTree.Proofs.Client.Transfer
import RemoteTree.Proofs.Tree.Overwriting

/-!
# Plain files of a tree

What reading and writing a plain file at once come to on a tree, with the budget for buffers and
the faults that the tree injects.
-/

set_option autoImplicit false

namespace RemoteTree

namespace Tree

variable {tree : Tree} {path : Path} {node : Node}

/-! ## Opening -/

def opening (tree : Tree) (path : Path) (mode : OpenMode) : Tree :=
  { tree with
    nextFid := tree.nextFid + 1
    openFiles := Table.insert tree.nextFid ⟨path, mode, 0, []⟩ tree.openFiles
    ledger := { tree.ledger with opens := tree.ledger.opens + 1 } }

/-- The handle that a tree gives out next, if it is for a plain file. -/
def nextHandle (tree : Tree) : Handle := ⟨tree.nextFid, tree.limits.iounit, 0⟩

@[simp] theorem isDirectory_nextHandle (tree : Tree) : tree.nextHandle.isDirectory = false := by
  simp [nextHandle, Handle.isDirectory]

theorem issue_plain (found : tree.find? path = some node) (plain : node.isDirectory = false)
    (mode : OpenMode) :
    tree.issue path mode = (tree.nextHandle, tree.opening path mode) := by
  have other : tree.hasDirectory path = false := by
    rw [hasDirectory, found]
    exact plain
  rw [issue, other]
  rfl

private theorem openAt_plain (found : tree.find? path = some node)
    (plain : node.isDirectory = false) (mode : OpenMode) :
    tree.openAt path mode = (.ok tree.nextHandle, tree.opening path mode) := by
  rw [openAt, found]
  dsimp only
  rw [plain, issue_plain found plain]
  rfl

/-- The tree once an empty file has been made at a path where there was nothing. -/
def withNew (tree : Tree) (path : Path) : Tree :=
  { tree with
    lastIdentity := tree.lastIdentity + 1
    nodes := Table.insert path ⟨tree.lastIdentity + 1, 0o777, tree.now, .file []⟩ tree.nodes }

private theorem find?_withNew (tree : Tree) (path : Path) :
    (tree.withNew path).find? path =
      some ⟨tree.lastIdentity + 1, 0o777, tree.now, .file []⟩ :=
  (Table.find?_insert ..).trans (if_pos rfl)

private theorem insert_missing {parent : Path} (missing : tree.find? path = none)
    (within : path.parent? = some parent) (there : tree.hasDirectory parent = true) :
    tree.insert path 0o777 (.file []) = tree.withNew path := by
  cases path with
  | root => cases within
  | child directory name =>
      cases within
      rw [insert, if_pos there, place, missing]
      rfl

private theorem createAt_missing {parent : Path} (missing : tree.find? path = none)
    (within : path.parent? = some parent) (there : tree.hasDirectory parent = true)
    (files : tree.createsDirectories = false) (mode : OpenMode) :
    tree.createAt path Connection.createPermissions mode =
      (.ok tree.nextHandle, (tree.withNew path).opening path mode) := by
  obtain ⟨directory, found, content⟩ := exists_directory there
  have isDirectory : directory.isDirectory = true := by rw [Node.isDirectory, content]
  have plain : (Connection.createPermissions &&& directoryMode != 0) = false := by decide
  have kept : Connection.createPermissions &&& permissionBits = 0o777 := by decide
  have issued := issue_plain (tree.find?_withNew path) rfl mode
  simp only [createAt, missing, within, found, isDirectory, plain, files, kept,
    insert_missing missing within there, issued, Option.isSome_none, Bool.or_self,
    Bool.false_eq_true, ↓reduceIte]
  rfl

theorem find?_opening (tree : Tree) (path : Path) (mode : OpenMode) :
    Table.find? tree.nextFid (tree.opening path mode).openFiles = some ⟨path, mode, 0, []⟩ :=
  (Table.find?_insert ..).trans (if_pos rfl)

end Tree

/-! ## Reading -/

namespace Tree

variable {tree : Tree} {fid : UInt32} {opened : OpenFile} {node : Node} {bytes : Bytes}

theorem Reads.readFrom_file (reads : tree.Reads fid opened node)
    (reliable : tree.limits.failAfterReads = none) (holds : node.content = .file bytes)
    (room : Nat) :
    let taken := (bytes.drop opened.offset).take (capped tree.limits.mostRead room)
    ∃ after, tree.readFrom fid room none = (some ⟨taken, .ok taken.length⟩, after) ∧
      after.limits = tree.limits ∧
      after.Reads fid { opened with offset := opened.offset + taken.length } node := by
  intro taken
  refine ⟨tree.countRead.setOffset fid opened (opened.offset + taken.length), ?_, rfl, ?_⟩
  · rw [readFrom_eq_readNode reliable reads.found reads.readable reads.there, readNode]
    simp only [holds]
    rfl
  · exact ⟨(Table.find?_insert ..).trans (if_pos rfl), reads.readable, reads.there, reads.plain⟩

end Tree

/-- Are the exchanges reads that draw on some bytes? What they move is the front of these, and all
of them if the last read found nothing more. -/
structure Draws (source : Bytes) (log : List Exchange) : Prop where
  front : moved log <+: source
  whole : ending log = some .nothing → moved log = source
  smooth : ∀ transfer, ending log = some transfer →
    transfer = .nothing ∨ ∃ bytes, transfer = .moved bytes

namespace Draws

variable {source taken rest buffer : Bytes} {handle : Handle} {log : List Exchange}

private theorem nil (source : Bytes) : Draws source [] := ⟨List.nil_prefix, nofun, nofun⟩

/-- A read that brings the front of a source, and nothing only if there is nothing more. -/
theorem cons (fits : taken.length ≤ buffer.length) (more : taken = [] → rest = [])
    (later : Draws rest log) :
    Draws (taken ++ rest) (⟨.readFrom handle buffer none, ⟨taken, .ok taken.length⟩⟩ :: log) := by
  generalize exchangeIs :
    (⟨.readFrom handle buffer none, ⟨taken, .ok taken.length⟩⟩ : Exchange) = exchange
  have comes : taken = [] ∧ exchange.transfer? = some .nothing ∨
      exchange.transfer? = some (.moved taken) := by
    rw [← exchangeIs]
    by_cases none : taken = []
    · subst none
      exact .inl ⟨rfl, rfl⟩
    · exact .inr (Exchange.transfer?_of_received none fits handle .none)
  have moves : exchange.moved = taken := by
    rw [← exchangeIs]
    exact Exchange.moved_of_received fits handle none
  have all : moved (exchange :: log) = taken ++ moved log := by rw [moved_cons, moves]
  have front : moved (exchange :: log) <+: taken ++ rest := by
    rw [all]
    exact (List.prefix_append_right_inj taken).mpr later.front
  -- Only the last read tells whether the source is at its end.
  cases log with
  | nil =>
      refine ⟨front, fun ended => ?_, fun transfer ended => ?_⟩
      · rw [ending_singleton] at ended
        rcases comes with ⟨none, -⟩ | comes
        · rw [all, none, more none]
          rfl
        · cases ended.symm.trans comes
      · rw [ending_singleton] at ended
        rcases comes with ⟨-, comes⟩ | comes
        · exact .inl (Option.some.inj (ended.symm.trans comes))
        · exact .inr ⟨taken, Option.some.inj (ended.symm.trans comes)⟩
  | cons next log =>
      have ends := ending_cons exchange (List.cons_ne_nil next log)
      refine ⟨front, fun ended => ?_, ?_⟩
      · rw [all, later.whole (ends ▸ ended)]
      · rw [ends]
        exact later.smooth

end Draws

namespace Client

variable {Result : Type}

/-- A program that only reads a plain file draws on what comes next in the file. -/
theorem draws_of_reads_file (program : Client Result) {tree : Tree} {handle : Handle}
    {opened : OpenFile} {node : Node} {bytes : Bytes} (reads : tree.Reads handle.fid opened node)
    (holds : node.content = .file bytes) (reliable : tree.limits.failAfterReads = none)
    (moving : tree.limits.mostRead ≠ some 0)
    (only : ∀ exchange ∈ program.exchanges Tree.server tree,
      ∃ buffer : Bytes, 0 < buffer.length ∧ exchange.request = .readFrom handle buffer none) :
    Draws (bytes.drop opened.offset) (program.exchanges Tree.server tree) := by
  induction program generalizing tree opened with
  | done result => exact .nil _
  | ask request next ih =>
      obtain ⟨⟨buffer, some, rfl⟩, others⟩ := List.forall_mem_cons.mp only
      obtain ⟨after, answered, limits, later⟩ := reads.readFrom_file reliable holds buffer.length
      have within := Tree.capped_le tree.limits.mostRead buffer.length
      have positive := Tree.capped_pos moving some
      generalize Tree.capped tree.limits.mostRead buffer.length = most
        at answered within positive later
      have split := List.take_append_drop most (bytes.drop opened.offset)
      have fits := List.length_take_le most (bytes.drop opened.offset)
      have ended : (bytes.drop opened.offset).take most = [] →
          (bytes.drop opened.offset).drop most = [] := fun none => by
        rw [(List.take_eq_nil_iff.mp none).resolve_left (Nat.ne_of_gt positive), List.drop_nil]
      rw [← Bytes.drop_length_take (bytes.drop opened.offset), List.drop_drop] at split ended
      generalize (bytes.drop opened.offset).take most = taken at answered later split fits ended
      have reply : Tree.server.answer (.readFrom handle buffer none) tree =
          (⟨taken, .ok taken.length⟩, after) := Tree.answer_readFrom answered
      simp only [exchanges, reply] at others ⊢
      rw [← split]
      exact .cons (Nat.le_trans fits within) ended
        (ih _ later (limits ▸ reliable) (limits ▸ moving) others)

variable {State : Type}

private theorem readCapped_of_reads_file {tree : Tree} {handle : Handle} {opened : OpenFile}
    {node : Node} {bytes : Bytes} {limit : Option Nat} (reads : tree.Reads handle.fid opened node)
    (holds : node.content = .file bytes) (reliable : tree.limits.failAfterReads = none)
    (moving : tree.limits.mostRead ≠ some 0) (path : String)
    (budget : fits limit (min handle.transferSize readLimit) = true)
    (growth : handle.transferSize ≤ (bytes.drop opened.offset).length →
      fits limit readLimit = true) :
    ((readCapped handle path limit).run Tree.server tree).1 =
      .ok ((bytes.drop opened.offset).take readLimit) := by
  have collected := readCapped_of_fits path budget Tree.server tree
  have draws : Draws (bytes.drop opened.offset) _ :=
    draws_of_reads_file (readCapped handle path limit) reads holds reliable moving
      fun exchange member => by
        obtain ⟨before, after, split⟩ := List.append_of_mem member
        obtain ⟨buffer, request, some, -⟩ := collected.course.due before exchange after split
        exact ⟨buffer, some, request⟩
  rw [collected.decided, List.nil_append]
  have within := collected.within
  have full := collected.full
  rw [List.nil_append] at within full
  have front := draws.front
  cases ends : ending ((readCapped handle path limit).exchanges Tree.server tree) with
  | none => exact absurd ends collected.ended
  | some transfer =>
      rcases draws.smooth transfer ends with rfl | ⟨last, rfl⟩
      · have whole := draws.whole ends
        rw [whole] at within ⊢
        rw [resultOfReads, List.take_of_length_le within]
      · rcases full last ends with full | ⟨-, refused, size⟩
        · rw [resultOfReads, if_pos full, ← full, ← List.prefix_iff_eq_take.mp front]
        · -- The buffer has been filled, so the file is long enough for it to have to grow.
          have reached := growth (size ▸ front.length_le)
          rw [refused] at reached
          cases reached

structure ReadAtOnce (handle : Handle) (path : String) (limit : Option Nat) (log : List Exchange)
    (result : Except ClientError Bytes) : Prop where
  refused :
    log = [] ∧ result = .error (.allocate path (min handle.transferSize readLimit)) ↔
      fits limit (min handle.transferSize readLimit) = false
  course : Course (Asks handle limit) log
  decided : result = resultOfReads handle path (moved log) (ending log)
  whole : ∀ bytes, result = .ok bytes ↔
    bytes = moved log ∧ (ending log = some .nothing ∨ bytes.length = readLimit)
  bursts : log ≠ [] ∧ result = .error (.allocate path readLimit) ↔ Bursts handle limit (moved log)
  within : (moved log).length ≤ readLimit
  few : log.length ≤ readLimit

namespace ReadAtOnce

variable {handle : Handle} {limit : Option Nat} {log : List Exchange}
  {result : Except ClientError Bytes}

private theorem of_refused (refused : fits limit (min handle.transferSize readLimit) = false)
    (path : String) :
    ReadAtOnce handle path limit []
      (.error (.allocate path (min handle.transferSize readLimit))) := by
  constructor
  · exact iff_of_true ⟨rfl, rfl⟩ refused
  · exact .nil _
  · rfl
  · refine fun bytes => iff_of_false nofun ?_
    rintro ⟨rfl, ended | full⟩
    · cases ended
    · cases full
  · refine iff_of_false (fun never => never.1 rfl) ?_
    rintro ⟨-, -, empty⟩
    exact absurd empty (Nat.ne_of_lt handle.transferSize_pos)
  · exact Nat.zero_le _
  · exact Nat.zero_le _

private theorem of_collected {path : String} (collected : Collected handle path limit [] log result)
    (budget : fits limit (min handle.transferSize readLimit) = true) :
    ReadAtOnce handle path limit log result := by
  have few := collected.few
  rw [List.length_nil, Nat.zero_add] at few
  constructor
  · refine iff_of_false (fun never => collected.some never.1) fun refused => ?_
    cases budget.symm.trans refused
  · exact collected.course
  · exact collected.decided
  · exact collected.ok_iff
  · exact (and_iff_right collected.some).trans collected.allocate_iff
  · exact collected.within
  · exact few

end ReadAtOnce

private theorem readCapped_readAtOnce (server : Server State) (state : State) (handle : Handle)
    (path : String) (limit : Option Nat) :
    ReadAtOnce handle path limit ((readCapped handle path limit).exchanges server state)
      ((readCapped handle path limit).run server state).1 := by
  cases budget : fits limit (min handle.transferSize readLimit) with
  | false =>
      rw [readCapped_of_not_fits path budget]
      exact .of_refused budget path
  | true => exact .of_collected (readCapped_of_fits path budget server state) budget

private theorem read_run {connection : Connection} {tree : Tree} {text : String} {node : Node}
    {contents : Bytes} (found : tree.find? (.ofText text) = some node)
    (holds : node.content = .file contents) (reliable : tree.limits.failAfterReads = none)
    (moving : tree.limits.mostRead ≠ some 0)
    (budget : fits connection.bufferLimit (min tree.nextHandle.transferSize readLimit) = true)
    (growth : tree.nextHandle.transferSize ≤ contents.length →
      fits connection.bufferLimit readLimit = true) :
    ((connection.read text).run Tree.server tree).1 = .ok (contents.take readLimit) := by
  have plain : node.isDirectory = false := by rw [Node.isDirectory, holds]
  have reads : (tree.opening (.ofText text) .read).Reads tree.nextHandle.fid _ node :=
    ⟨tree.find?_opening (.ofText text) .read, rfl, found, plain⟩
  have brings := readCapped_of_reads_file reads holds reliable moving text budget growth
  have answered : Tree.server.answer (.openFile text .read) tree =
    (.ok tree.nextHandle, tree.opening (.ofText text) .read) := Tree.openAt_plain found plain .read
  rw [Connection.read, Connection.withOpened, run, answered]
  dsimp only
  rw [run_closing]
  exact brings

/-- Reading a file at once, whatever a server answers and however large a buffer may be. It fails
before any read exactly if the first buffer is too large. Each read asks for what there is room for,
and what has been moved is returned exactly if an empty answer came or the limit is reached.
Otherwise the last read decides how it fails, or the buffer may not grow. An answer that counts its
bytes moves these. Of a plain file of a tree come the first bytes, up to the limit. -/
theorem readCapped_collects (server : Server State) (state : State) (handle : Handle)
    (path : String) (limit : Option Nat) :
    ReadAtOnce handle path limit ((readCapped handle path limit).exchanges server state)
      ((readCapped handle path limit).run server state).1 ∧
    (∀ (buffer received : Bytes), received.length ≤ buffer.length →
      Exchange.moved ⟨.readFrom handle buffer none, ⟨received, .ok received.length⟩⟩ = received) ∧
    ∀ (connection : Connection) (tree : Tree) (text : String) (node : Node) (contents : Bytes),
      let size := tree.nextHandle.transferSize
      tree.find? (.ofText text) = some node → node.content = .file contents →
      tree.limits.failAfterReads = none → tree.limits.mostRead ≠ some 0 →
      fits connection.bufferLimit (min size readLimit) = true →
      (size ≤ contents.length → fits connection.bufferLimit readLimit = true) →
      ((connection.read text).run Tree.server tree).1 = .ok (contents.take readLimit) := by
  refine ⟨readCapped_readAtOnce server state handle path limit, ?_, ?_⟩
  · intro buffer received fits
    exact Exchange.moved_of_received fits handle none
  · intro connection tree text node contents size found holds reliable moving budget growth
    exact read_run found holds reliable moving budget growth

/-- A file that is longer than the transfers, which bring one byte each. -/
theorem readCapped_collects_of_small_reads :
    let tree := (Tree.empty { iounit := 2, mostRead := some 1 } 7).addFile "/a" [1, 2, 3]
    let connection : Connection := ⟨"mem!test", some 4096⟩
    ∃ node, tree.find? (.ofText "/a") = some node ∧ node.content = .file [1, 2, 3] ∧
      tree.limits.failAfterReads = none ∧ tree.limits.mostRead ≠ some 0 ∧
      fits connection.bufferLimit readLimit = true ∧
      ((connection.read "/a").run Tree.server tree).1 = .ok [1, 2, 3] := by
  intro tree connection
  have found : tree.find? (.ofText "/a") = some ⟨2, 0o644, 7, .file [1, 2, 3]⟩ := by
    decide +kernel
  have collects := readCapped_collects Tree.server tree ⟨0, 0, 0⟩ "/a" none
  refine ⟨_, found, rfl, rfl, nofun, rfl, ?_⟩
  exact collects.2.2 connection tree "/a" _ [1, 2, 3] found rfl rfl nofun rfl fun _ => rfl

end Client

/-! ## Writing -/

namespace Tree

/-- The tree once a plain file has been opened, written to and closed. Of the writes some number was
accepted, and the file holds some contents then. -/
def rewritten (tree : Tree) (path : Path) (node : Node) (accepted calls : Nat) (contents : Bytes) :
    Tree :=
  { tree with
    nodes := Table.insert path
      { node with
        changeTime := if accepted = 0 then node.changeTime else tree.now
        content := .file contents }
      tree.nodes
    nextFid := tree.nextFid + 1
    openFiles := Table.erase tree.nextFid tree.openFiles
    ledger := { tree.ledger with
      opens := tree.ledger.opens + 1
      closes := tree.ledger.closes + 1
      writes := tree.ledger.writes + calls } }

variable {tree : Tree} {path : Path} {node : Node} {old : Bytes}

private theorem closeFid_of_find? {fid : UInt32} {opened : OpenFile}
    (found : Table.find? fid tree.openFiles = some opened) :
    tree.closeFid fid =
      { tree with
        openFiles := Table.erase fid tree.openFiles
        ledger := { tree.ledger with closes := tree.ledger.closes + 1 } } := by
  rw [closeFid, found]

private theorem closeFid_wrote (found : tree.find? path = some node)
    (holds : node.content = .file old)
    (mode : OpenMode) {accepted : Nat} {data : Bytes} (nothing : accepted = 0 → data = [])
    (calls : Nat) :
    ((tree.opening path mode).wrote tree.nextFid ⟨path, mode, 0, []⟩ node accepted calls
        data).closeFid tree.nextFid =
      tree.rewritten path node accepted calls (data ++ old.drop data.length) := by
  obtain ⟨identity, permissions, changeTime, content⟩ := node
  cases holds
  rw [wrote]
  split
  · next zero =>
    have same := Table.insert_of_find? found
    have there : Table.find? tree.nextFid ((tree.opening path mode).countWrites calls).openFiles =
      some _ := tree.find?_opening path mode
    rw [closeFid_of_find? there, nothing zero]
    simp [rewritten, countWrites, opening, zero, same]
  · next some =>
    have there (opened : OpenFile) (node : Node) :
        Table.find? tree.nextFid
          (((tree.opening path mode).put tree.nextFid opened node data).countWrites
            calls).openFiles =
        Option.some (opened.past node data.length) := (Table.find?_insert ..).trans (if_pos rfl)
    rw [closeFid_of_find? (there ..)]
    simp [rewritten, countWrites, opening, put, some, OpenFile.past, Node.written, writtenAt,
      Bytes.zeros]

private theorem find?_rewritten_of_ne {other : Path} (apart : other ≠ path) (accepted calls : Nat)
    (contents : Bytes) :
    (tree.rewritten path node accepted calls contents).find? other = tree.find? other :=
  (Table.find?_insert ..).trans (if_neg apart.symm)

end Tree

/-- How a program goes that opens a plain file, offers it all of some data and closes it. With as
many writes allowed as it takes, the data lie over what the file held. With fewer the write after
them fails, and what they took stays. The file is in the tree that the first exchange finds or
makes. -/
structure Rewrites (program : Client (Except ClientError Unit)) (start : Tree) (first : Exchange)
    (tree : Tree) (text : String) (node : Node) (old data : Bytes) : Prop where
  whole :
    Tree.exceeds tree.writesAllowed (writesNeeded tree.limits.mostWritten data.length) = false →
    let needed := writesNeeded tree.limits.mostWritten data.length
    program.run Tree.server start =
      (.ok (), tree.rewritten (.ofText text) node needed needed (data ++ old.drop data.length))
  part : ∀ allowed, tree.writesAllowed = some allowed →
    allowed < writesNeeded tree.limits.mostWritten data.length →
    let count := bytesTaken tree.limits.mostWritten allowed data.length
    program.run Tree.server start =
      (.error (.write text (.failed "i/o error" (some 5))),
        tree.rewritten (.ofText text) node allowed (allowed + 1)
          (data.take count ++ old.drop count))
  exchanges : ∃ writes,
    program.exchanges Tree.server start =
      first :: (writes ++ [⟨.closeFile tree.nextHandle, ()⟩]) ∧
    writes.length = Tree.capped (tree.writesAllowed.map (· + 1))
      (writesNeeded tree.limits.mostWritten data.length) ∧
    ∀ exchange ∈ writes, ∃ left, exchange.request = .writeTo tree.nextHandle left
  elsewhere : ∀ other, other ≠ .ofText text →
    (program.run Tree.server start).2.find? other = start.find? other

namespace Client

section

variable {tree : Tree} {text : String} {node : Node} {old : Bytes}

private theorem overwritten_of_opening (found : tree.find? (.ofText text) = some node)
    (holds : node.content = .file old) (moving : tree.limits.mostWritten ≠ some 0) (data : Bytes) :
    Overwritten (tree.opening (.ofText text) .write) tree.nextHandle ⟨.ofText text, .write, 0, []⟩
      node text data
      ((writeAll tree.nextHandle text data).exchanges Tree.server
        (tree.opening (.ofText text) .write))
      ((writeAll tree.nextHandle text data).run Tree.server
        (tree.opening (.ofText text) .write)) := by
  have plain : node.isDirectory = false := by rw [Node.isDirectory, holds]
  have writes : (tree.opening (.ofText text) .write).Writes tree.nextHandle.fid _ node :=
    ⟨tree.find?_opening (.ofText text) .write, rfl, found, plain⟩
  exact (writeAll_rounds Tree.server tree.nextHandle text data _).overwritten writes holds moving

private theorem closing_writeAll_run (found : tree.find? (.ofText text) = some node)
    (holds : node.content = .file old) (moving : tree.limits.mostWritten ≠ some 0) (data : Bytes) :
    let needed := writesNeeded tree.limits.mostWritten data.length
    let accepted := Tree.capped tree.writesAllowed needed
    let calls := Tree.capped (tree.writesAllowed.map (· + 1)) needed
    let count := bytesTaken tree.limits.mostWritten accepted data.length
    (Connection.closing tree.nextHandle (writeAll tree.nextHandle text data)).run Tree.server
        (tree.opening (.ofText text) .write) =
      (resultOfOverwriting text tree.writesAllowed needed,
        tree.rewritten (.ofText text) node accepted calls (data.take count ++ old.drop count)) := by
  intro needed accepted calls count
  obtain ⟨result, made, after⟩ := overwritten_of_opening found holds moving data
  have size : (data.take count).length = count :=
    List.length_take_of_le (bytesTaken_le tree.limits.mostWritten accepted data.length)
  have nothing : accepted = 0 → data.take count = [] := fun zero => by
    unfold count
    rw [zero, bytesTaken_zero, List.take_zero]
  have closed := Tree.closeFid_wrote found holds .write nothing calls
  rw [size] at closed
  rw [run_closing]
  refine Prod.ext result ?_
  rw [← closed]
  dsimp only at after ⊢
  rw [after, made]
  rfl

end

end Client

namespace Connection

open Client (writeAll)

private theorem rewrites_of_opening {program : Client (Except ClientError Unit)} {start tree : Tree}
    {first : Exchange} {text : String} {node : Node} {old data : Bytes}
    (found : tree.find? (.ofText text) = some node) (holds : node.content = .file old)
    (moving : tree.limits.mostWritten ≠ some 0)
    (runs : program.run Tree.server start =
      (closing tree.nextHandle (writeAll tree.nextHandle text data)).run Tree.server
        (tree.opening (.ofText text) .write))
    (asks : program.exchanges Tree.server start =
      first :: (closing tree.nextHandle (writeAll tree.nextHandle text data)).exchanges Tree.server
        (tree.opening (.ofText text) .write))
    (elsewhere : ∀ other, other ≠ .ofText text → tree.find? other = start.find? other) :
    Rewrites program start first tree text node old data := by
  rw [Client.closing_writeAll_run found holds moving data] at runs
  constructor
  · intro enough needed
    obtain ⟨accepted, calls⟩ := Tree.capped_of_enough enough
    rw [runs, Client.resultOfOverwriting, accepted, calls, bytesTaken_needed moving,
      List.take_length]
    simp only [enough, Bool.false_eq_true, ↓reduceIte, needed]
  · intro allowed spent fewer count
    have short : Tree.exceeds (some allowed) (writesNeeded tree.limits.mostWritten data.length) =
      true := decide_eq_true fewer
    have accepted : Tree.capped (some allowed) (writesNeeded tree.limits.mostWritten data.length) =
      allowed := Nat.min_eq_right (Nat.le_of_lt fewer)
    have calls : Tree.capped (some (allowed + 1))
      (writesNeeded tree.limits.mostWritten data.length) = allowed + 1 := Nat.min_eq_right fewer
    rw [spent, Option.map_some, Client.resultOfOverwriting, short, accepted, calls] at runs
    exact runs
  · refine ⟨(writeAll tree.nextHandle text data).exchanges Tree.server
        (tree.opening (.ofText text) .write),
      ?_, (Client.overwritten_of_opening found holds moving data).calls, fun exchange member => ?_⟩
    · rw [asks, closing, Client.exchanges_andThen]
      rfl
    · obtain ⟨before, behind, split⟩ := List.append_of_mem member
      have offered := (Client.writeAll_rounds Tree.server tree.nextHandle text data
        (tree.opening (.ofText text) .write)).offered
      obtain ⟨left, -, -, request⟩ := offered.course.due before exchange behind split
      exact ⟨left, request⟩
  · intro other apart
    rw [runs]
    exact (Tree.find?_rewritten_of_ne apart ..).trans (elsewhere other apart)

/-- Writing to a plain file, and creating one in a directory that is there, with or without enough
writes allowed. A file that is created is empty before it is written to, and it stays when writing
fails. -/
theorem write_leaves (connection : Connection) (tree : Tree) (text : String) (data : Bytes)
    (moving : tree.limits.mostWritten ≠ some 0) :
    (∀ node old, tree.find? (.ofText text) = some node → node.content = .file old →
      Rewrites (connection.write text data) tree ⟨.openFile text .write, .ok tree.nextHandle⟩ tree
        text node old data) ∧
    ∀ parent, tree.find? (.ofText text) = none → (Path.ofText text).parent? = some parent →
      tree.hasDirectory parent = true → tree.createsDirectories = false →
      Rewrites (connection.create text (some data)) tree
        ⟨.createFile text createPermissions .write, .ok tree.nextHandle⟩
        (tree.withNew (.ofText text)) text ⟨tree.lastIdentity + 1, 0o777, tree.now, .file []⟩ []
        data := by
  constructor
  · intro node old found holds
    have plain : node.isDirectory = false := by rw [Node.isDirectory, holds]
    have answered : Tree.server.answer (.openFile text .write) tree =
      (.ok tree.nextHandle, tree.opening (.ofText text) .write) :=
        Tree.openAt_plain found plain .write
    refine rewrites_of_opening found holds moving ?_ ?_ fun _ _ => rfl
    · rw [write, withOpened, Client.run, answered]
    · rw [write, withOpened, Client.exchanges, answered]
  · intro parent missing within there files
    have answered : Tree.server.answer (.createFile text createPermissions .write) tree =
        (.ok tree.nextHandle, (tree.withNew (.ofText text)).opening (.ofText text) .write) :=
      Tree.createAt_missing missing within there files .write
    have writing : (if data.isEmpty || tree.nextHandle.isDirectory then .done (.ok ())
        else writeAll tree.nextHandle text data) = writeAll tree.nextHandle text data := by
      cases data with
      | nil => rfl
      | cons byte rest => simp
    refine rewrites_of_opening (tree.find?_withNew _) rfl moving ?_ ?_ fun other apart => ?_
    · rw [create, Client.run, answered]
      dsimp only
      rw [Option.getD_some, writing]
      rfl
    · rw [create, Client.exchanges, answered]
      dsimp only
      rw [Option.getD_some, writing]
      rfl
    · exact (Table.find?_insert ..).trans (if_neg apart.symm)

/-- A write that fails after one of the two calls that it takes, and a file that is created without
any call left. -/
theorem write_leaves_of_faults :
    let tree := (Tree.empty { mostWritten := some 2, failAfterWrites := some 1 } 7).addFile "/a"
      [9, 8, 7, 6]
    let spent : Tree := { tree with now := 8, ledger := { tree.ledger with writes := 1 } }
    let connection : Connection := ⟨"mem!test", none⟩
    tree.limits.mostWritten ≠ some 0 ∧
      ((connection.write "/a" [1, 2, 3]).run Tree.server tree).1 =
        .error (.write "/a" (.failed "i/o error" (some 5))) ∧
      ((connection.write "/a" [1, 2, 3]).run Tree.server tree).2.contents? "/a" =
        some [1, 2, 7, 6] ∧
      ((connection.create "/b" (some [1])).run Tree.server spent).2.contents? "/b" = some [] := by
  intro tree spent connection
  have moving : tree.limits.mostWritten ≠ some 0 := nofun
  have found : tree.find? (.ofText "/a") = some ⟨2, 0o644, 7, .file [9, 8, 7, 6]⟩ := by
    decide +kernel
  have missing : spent.find? (.ofText "/b") = none := by decide +kernel
  have within : (Path.ofText "/b").parent? = some .root := by decide +kernel
  have wrote := (write_leaves connection tree "/a" [1, 2, 3] moving).1 _ _ found rfl
  have created := (write_leaves connection spent "/b" [1] moving).2 .root missing within
    (by decide +kernel) rfl
  have half := wrote.part 1 rfl (by decide)
  have bare := created.part 0 rfl (by decide)
  refine ⟨moving, congrArg Prod.fst half, ?_, ?_⟩
  · rw [half]
    decide +kernel
  · rw [bare]
    decide +kernel

end Connection

end RemoteTree
