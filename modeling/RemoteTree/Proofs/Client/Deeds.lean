import RemoteTree.Proofs.Client.Directory
import RemoteTree.Proofs.Tree.Reading

/-!
# Deeds and the limits of transfers

A deed is an operation of a client from its beginning to its end. What deeds find and what they
leave behind does not depend on the transfers that the tree allows: every deed comes to the same
on a tree as on the settled tree, whose limits are the widest.
-/

set_option autoImplicit false

namespace RemoteTree

/-- An operation from its beginning to its end. -/
inductive Deed where
  | write (path : String) (data : Bytes)
  | create (path : String) (data : Option Bytes)
  | remove (path : String)
  | stat (path : String)
  | read (path : String)
  /-- Reads a directory up to some number of entries. With more than there are, it is read to its
  end. -/
  | list (path : String) (most : Nat)

/-- What a deed finds. -/
inductive Finding where
  | nothing (result : Except ClientError Unit)
  | stat (result : Except ClientError Stat)
  | bytes (result : Except ClientError Bytes)
  /-- The entries of a directory, and whether these are all. -/
  | entries (result : Except ClientError (List (Except ClientError Stat) × Bool))

/-- Is a deed one that the limits of the tree allow? A file is read at once, a directory entry by
entry, and every entry fits into a transfer. -/
def Deed.Admissible (tree : Tree) : Deed → Prop
  | .read path => ∀ node ∈ tree.find? (.ofText path), node.isDirectory = false
  | .list path _ => ∀ node ∈ tree.find? (.ofText path), node.isDirectory = true ∧
      ∀ entry ∈ tree.nodes, entry.1.parent? = some (.ofText path) →
        (tree.statOf entry.1 entry.2).encode.length ≤
          Handle.transferSize ⟨tree.nextFid, tree.limits.iounit, directoryKind⟩
  | _ => True

instance Deed.decidableAdmissible (tree : Tree) : (deed : Deed) → Decidable (deed.Admissible tree)
  | .read path => inferInstanceAs
      (Decidable (∀ node ∈ tree.find? (.ofText path), node.isDirectory = false))
  | .list path _ => inferInstanceAs
      (Decidable (∀ node ∈ tree.find? (.ofText path), node.isDirectory = true ∧
        ∀ entry ∈ tree.nodes, entry.1.parent? = some (.ofText path) →
          (tree.statOf entry.1 entry.2).encode.length ≤
            Handle.transferSize ⟨tree.nextFid, tree.limits.iounit, directoryKind⟩))
  | .write _ _ => .isTrue trivial
  | .create _ _ => .isTrue trivial
  | .remove _ => .isTrue trivial
  | .stat _ => .isTrue trivial

namespace Connection

/-- Opens a directory, reads some of its entries and closes it. -/
def list (connection : Connection) (path : String) (most : Nat) :
    Client (Except ClientError (List (Except ClientError Stat) × Bool)) :=
  (connection.openDirectory path).andThen fun opened =>
    match opened with
    | .error error => .done (.error error)
    | .ok reader =>
        (reader.take most).andThen fun (entries, reader) =>
          .ask (.closeFile reader.handle) fun _ => .done (.ok (entries, reader.finished))

def perform (connection : Connection) : Deed → Client Finding
  | .write path data => (connection.write path data).andThen fun result => .done (.nothing result)
  | .create path data =>
      (connection.create path data).andThen fun result => .done (.nothing result)
  | .remove path => (connection.remove path).andThen fun result => .done (.nothing result)
  | .stat path => (connection.stat path).andThen fun result => .done (.stat result)
  | .read path => (connection.read path).andThen fun result => .done (.bytes result)
  | .list path most =>
      (connection.list path most).andThen fun result => .done (.entries result)

def performAll (connection : Connection) : List Deed → Client (List Finding)
  | [] => .done []
  | deed :: rest =>
      (connection.perform deed).andThen fun finding =>
        (connection.performAll rest).andThen fun findings => .done (finding :: findings)

/-- Is each of some deeds admissible when its turn comes? -/
def Admits (connection : Connection) : List Deed → Tree → Prop
  | [], _ => True
  | deed :: rest, tree => deed.Admissible tree ∧
      connection.Admits rest ((connection.perform deed).run Tree.server tree).2

end Connection

instance Connection.decidableAdmits (connection : Connection) :
    (deeds : List Deed) → (tree : Tree) → Decidable (connection.Admits deeds tree)
  | [], _ => .isTrue trivial
  | deed :: rest, tree =>
      have := connection.decidableAdmits rest ((connection.perform deed).run Tree.server tree).2
      inferInstanceAs (Decidable (_ ∧ _))

/-! ## Opening -/

namespace Tree

private theorem openAt_ok {tree after : Tree} {path : Path} {mode : OpenMode} {handle : Handle}
    (opens : tree.openAt path mode = (.ok handle, after)) :
    ∃ node, tree.find? path = some node ∧ (node.isDirectory && mode.isWritable) = false ∧
      tree.issue path mode = (handle, after) := by
  unfold openAt at opens
  split at opens
  · cases opens
  · next node found =>
    split at opens
    · cases opens
    · next allowed =>
      cases opens
      exact ⟨node, found, by simpa using allowed, rfl⟩

private theorem createAt_ok {tree after : Tree} {path : Path} {permissions : UInt32}
    {mode : OpenMode}
    {handle : Handle} (creates : tree.createAt path permissions mode = (.ok handle, after)) :
    ∃ (made : Tree) (node : Node), made.find? path = some node ∧
      made.issue path mode = (handle, after) := by
  have issued {made : Tree} (there : (made.find? path).isSome)
      (issues : (Except.ok (made.issue path mode).1, (made.issue path mode).2) =
        ((.ok handle, after) : Except Refusal Handle × Tree)) :
      ∃ (made : Tree) (node : Node), made.find? path = some node ∧
        made.issue path mode = (handle, after) := by
    obtain ⟨node, found⟩ := Option.isSome_iff_exists.mp there
    cases issues
    exact ⟨made, node, found, rfl⟩
  unfold createAt at creates
  split at creates
  · cases creates
  · split at creates
    · cases creates
    · split at creates
      · cases creates
      · split at creates
        · dsimp only at creates
          split at creates
          · exact issued (isSome_find?_insert ..) creates
          · exact issued (isSome_find?_insert ..) creates
        · cases creates

@[simp] theorem childStats_settled (tree : Tree) (directory : Path) :
    tree.settled.childStats directory = tree.childStats directory := by
  simp only [childStats, childrenOf_settled, List.map_map, Function.comp_def, statOf_settled]

variable {tree after : Tree} {path : Path} {node : Node} {handle : Handle}

private theorem isDirectory_issue {mode : OpenMode}
    (issues : tree.issue path mode = (handle, after))
    (found : tree.find? path = some node) : handle.isDirectory = node.isDirectory := by
  have same : tree.hasDirectory path = node.isDirectory := by
    unfold hasDirectory
    rw [found]
  cases issues
  cases kind : node.isDirectory with
  | false => simp [Handle.isDirectory, same, kind]
  | true => simp [Handle.isDirectory, same, kind, directoryKind]

private theorem writes_issue (issues : tree.issue path .write = (handle, after))
    (found : tree.find? path = some node) (plain : node.isDirectory = false) :
    ∃ opened, after.Writes handle.fid opened node := by
  cases issues
  exact ⟨_, (Table.find?_insert ..).trans (if_pos rfl), rfl, found, plain⟩

private theorem reads_issue (issues : tree.issue path .read = (handle, after))
    (found : tree.find? path = some node) (plain : node.isDirectory = false) :
    ∃ opened, after.Reads handle.fid opened node := by
  cases issues
  exact ⟨_, (Table.find?_insert ..).trans (if_pos rfl), rfl, found, plain⟩

end Tree

/-! ## Deeds on settled trees -/

namespace Client

variable {Result Other : Type}

/-- Does a program come to the same on a tree as another on the settled tree? -/
def Settles (program widest : Client Result) (tree : Tree) : Prop :=
  (widest.run Tree.server tree.settled).1 = (program.run Tree.server tree).1 ∧
    (widest.run Tree.server tree.settled).2.settled = (program.run Tree.server tree).2.settled

variable {program widest : Client Result} {tree : Tree}

private theorem Settles.andThen_done (settles : Settles program widest tree)
    (next : Result → Other) : Settles (program.andThen fun result => .done (next result))
      (widest.andThen fun result => .done (next result)) tree := by
  unfold Settles
  rw [run_andThen, run_andThen]
  exact ⟨congrArg next settles.1, settles.2⟩

private theorem settles_done (result : Result) (tree : Tree) :
    Settles (.done result) (.done result) tree := ⟨rfl, tree.settled_settled⟩

theorem run_closing (handle : Handle) (program : Client Result) (tree : Tree) :
    (Connection.closing handle program).run Tree.server tree =
      ((program.run Tree.server tree).1,
        (program.run Tree.server tree).2.closeFid handle.fid) := by
  rw [Connection.closing, run_andThen]
  rfl

theorem Settles.closing (settles : Settles program widest tree) (handle : Handle) :
    Settles (Connection.closing handle program) (Connection.closing handle.widened widest) tree := by
  unfold Settles
  rw [run_closing, run_closing]
  refine ⟨settles.1, ?_⟩
  rw [Tree.closeFid_settled, settles.2, ← Tree.closeFid_settled]
  rfl

private theorem settles_withOpened {path : String} {mode : OpenMode}
    {next : Handle → Client (Except ClientError Result)}
    (each : ∀ handle after, tree.openAt (.ofText path) mode = (.ok handle, after) →
      Settles (next handle) (next handle.widened) after) :
    Settles (Connection.withOpened path mode next) (Connection.withOpened path mode next) tree := by
  obtain ⟨reply, left⟩ := tree.openAt_settled (.ofText path) mode
  unfold Settles
  simp only [Connection.withOpened, run, Tree.server]
  rw [reply, left]
  generalize tree.openAt (.ofText path) mode = opened at each ⊢
  obtain ⟨reply, after⟩ := opened
  cases reply with
  | error refusal => exact ⟨rfl, after.settled_settled⟩
  | ok handle => exact each handle after rfl

private theorem settles_writeAll {handle : Handle} {opened : OpenFile} {node : Node}
    (writes : tree.Writes handle.fid opened node) (fair : tree.limits.Fair) (path : String)
    (data : Bytes) :
    Settles (writeAll handle path data) (writeAll handle.widened path data) tree := by
  by_cases some : data = []
  · subst some
    exact settles_done _ tree
  · have settled : tree.settled.Writes handle.widened.fid opened node.settled := writes.settled
    obtain ⟨succeeds, ends⟩ :=
      (writeAll_rounds Tree.server handle path data tree).settled writes fair some
    obtain ⟨succeedsWidely, endsWidely⟩ :=
      (writeAll_rounds Tree.server handle.widened path data tree.settled).settled settled
        Limits.fair_widest some
    unfold Settles
    exact ⟨succeedsWidely.trans succeeds.symm,
      by rw [endsWidely, ends]; exact tree.put_settled handle.fid opened node data⟩

private theorem settles_readCapped {handle : Handle} {opened : OpenFile} {node : Node}
    (reads : tree.Reads handle.fid opened node) (fair : tree.limits.Fair) (path : String) :
    Settles (Connection.closing handle (readCapped handle path none))
      (Connection.closing handle.widened (readCapped handle.widened path none)) tree := by
  obtain ⟨result, left⟩ := readCapped_drained reads fair path
  have settled : tree.settled.Reads handle.widened.fid opened node.settled := reads.settled
  obtain ⟨resultWidely, leftWidely⟩ := readCapped_drained settled Limits.fair_widest path
  rw [Tree.ahead_settled] at resultWidely leftWidely
  unfold Settles
  rw [run_closing, run_closing]
  refine ⟨resultWidely.trans result.symm, ?_⟩
  exact leftWidely.trans ((Tree.leaving_settled ..).trans left.symm)

end Client

namespace Connection

open Client (Settles)

variable {tree : Tree}

private theorem settles_write (connection : Connection) (fair : tree.limits.Fair) (path : String)
    (data : Bytes) :
    Settles (connection.write path data) (connection.write path data) tree := by
  refine Client.settles_withOpened fun handle after opens => ?_
  obtain ⟨node, found, allowed, issues⟩ := Tree.openAt_ok opens
  obtain ⟨opened, writes⟩ := Tree.writes_issue issues found (by simpa [OpenMode.isWritable] using allowed)
  have limits : after.limits = tree.limits := by cases issues; rfl
  exact (Client.settles_writeAll writes (limits ▸ fair) path data).closing handle

private theorem settles_create (connection : Connection) (fair : tree.limits.Fair) (path : String)
    (data : Option Bytes) :
    Settles (connection.create path data) (connection.create path data) tree := by
  obtain ⟨reply, left⟩ := tree.createAt_settled (.ofText path) createPermissions .write
  unfold Settles
  simp only [create, Client.run, Tree.server]
  rw [reply, left]
  generalize answer : tree.createAt (.ofText path) createPermissions .write = created
  obtain ⟨reply, after⟩ := created
  cases reply with
  | error refusal => exact ⟨rfl, after.settled_settled⟩
  | ok handle =>
      obtain ⟨made, node, found, issues⟩ := Tree.createAt_ok answer
      have kind := Tree.isDirectory_issue issues found
      have edits : Tree.Edits (fun _ => True) tree _ :=
        tree.createAt_edits (Path.proper_ofText path) createPermissions .write
      rw [answer] at edits
      refine Settles.closing (?_ : Settles _ _ after) handle
      rw [Handle.isDirectory_widened]
      split
      · exact Client.settles_done _ after
      · next plain =>
        rw [Bool.or_eq_true, not_or, kind, Bool.not_eq_true, Bool.not_eq_true] at plain
        obtain ⟨opened, writes⟩ := Tree.writes_issue issues found plain.2
        exact Client.settles_writeAll writes (edits.limits ▸ fair) path _

private theorem settles_remove (connection : Connection) (path : String) :
    Settles (connection.remove path) (connection.remove path) tree := by
  obtain ⟨reply, left⟩ := tree.removeAt_settled (.ofText path)
  unfold Settles
  simp only [remove, Client.run, Tree.server]
  rw [reply, left]
  exact ⟨rfl, Tree.settled_settled _⟩

private theorem settles_stat (connection : Connection) (path : String) :
    Settles (connection.stat path) (connection.stat path) tree := by
  have answer : Tree.server.answer (.statFile path) tree.settled =
      ((Tree.server.answer (.statFile path) tree).1, tree.settled) ∧
      (Tree.server.answer (.statFile path) tree).2 = tree := by
    simp only [Tree.server, Tree.stat?_settled]
    split <;> exact ⟨rfl, rfl⟩
  unfold Settles
  simp only [stat, Client.run, answer]
  generalize (Tree.server.answer (.statFile path) tree).1 = reply
  cases reply with
  | error refusal => exact ⟨rfl, tree.settled_settled⟩
  | ok raw => exact ⟨rfl, tree.settled_settled⟩

private theorem settles_read (connection : Connection) (unlimited : connection.bufferLimit = none)
    (fair : tree.limits.Fair) {path : String} (admissible : (Deed.read path).Admissible tree) :
    Settles (connection.read path) (connection.read path) tree := by
  refine Client.settles_withOpened fun handle after opens => ?_
  obtain ⟨node, found, _, issues⟩ := Tree.openAt_ok opens
  obtain ⟨opened, reads⟩ := Tree.reads_issue issues found (admissible node found)
  have limits : after.limits = tree.limits := by cases issues; rfl
  rw [unlimited]
  exact Client.settles_readCapped reads (limits ▸ fair) path

/-- A directory yields the records of its children, up to the number asked for. -/
theorem list_run (connection : Connection) (unlimited : connection.bufferLimit = none)
    (reliable : tree.limits.failAfterReads = none) {path : String}
    (directory : tree.hasDirectory (.ofText path) = true)
    (fit : ∀ stat ∈ tree.childStats (.ofText path), stat.encode.length ≤
      Handle.transferSize ⟨tree.nextFid, tree.limits.iounit, directoryKind⟩) (most : Nat) :
    ∃ after, (connection.list path most).run Tree.server tree =
        (.ok (((tree.childStats (.ofText path)).take most).map .ok,
          decide ((tree.childStats (.ofText path)).length < most)), after) ∧
      after.settled = ((tree.issue (.ofText path) .read).2.closeFid tree.nextFid).settled := by
  obtain ⟨reader, ran, fid, live, remaining⟩ :=
    connection.openDirectory_remaining unlimited directory fit
  obtain ⟨last, after, took, handle, finished, same⟩ :=
    remaining.loop reliable directory most []
  rw [live, Bool.false_or] at finished
  refine ⟨after.closeFid tree.nextFid, ?_, fid ▸ same⟩
  rw [list, Client.run_andThen, ran]
  dsimp only
  rw [Client.run_andThen, DirectoryReader.take, took]
  simp only [Client.run, Tree.server, handle, fid, finished, List.reverse_nil, List.nil_append]

private theorem list_missing (connection : Connection) {path : String}
    (missing : tree.find? (.ofText path) = none) (most : Nat) :
    (connection.list path most).run Tree.server tree =
      (.error (.openFile path .notFound), tree) := by
  have refused : tree.openAt (.ofText path) .read = (.error .notFound, tree) := by
    unfold Tree.openAt
    rw [missing]
  simp only [list, openDirectory, openReader, withOpened, Client.run_andThen, Client.run,
    Tree.server, refused]

private theorem settles_list (connection : Connection) (unlimited : connection.bufferLimit = none)
    (fair : tree.limits.Fair) {path : String} {most : Nat}
    (admissible : (Deed.list path most).Admissible tree) :
    Settles (connection.list path most) (connection.list path most) tree := by
  unfold Settles
  cases there : tree.find? (.ofText path) with
  | none =>
      have missing : tree.settled.find? (.ofText path) = none := by
        rw [Tree.find?_settled, there, Option.map_none]
      rw [connection.list_missing there, connection.list_missing missing]
      exact ⟨rfl, tree.settled_settled⟩
  | some node =>
      obtain ⟨kind, sizes⟩ := admissible node there
      have fit : ∀ stat ∈ tree.childStats (.ofText path), stat.encode.length ≤
          Handle.transferSize ⟨tree.nextFid, tree.limits.iounit, directoryKind⟩ := by
        intro stat listed
        obtain ⟨entry, child, rfl⟩ := List.mem_map.mp listed
        obtain ⟨member, inside⟩ := List.mem_filter.mp (List.mem_mergeSort.mp child)
        exact sizes entry member (of_decide_eq_true inside)
      have directory : tree.hasDirectory (.ofText path) = true := by
        unfold Tree.hasDirectory
        rw [there]
        exact kind
      have settledDirectory : tree.settled.hasDirectory (.ofText path) = true := by
        rw [Tree.hasDirectory_settled, directory]
      have settledFit : ∀ stat ∈ tree.settled.childStats (.ofText path), stat.encode.length ≤
          Handle.transferSize ⟨tree.settled.nextFid, tree.settled.limits.iounit, directoryKind⟩ := by
        rw [Tree.childStats_settled]
        intro stat listed
        exact Nat.le_trans (fit stat listed) (Handle.transferSize_le _)
      obtain ⟨after, ran, ends⟩ := connection.list_run unlimited fair.reads directory fit most
      obtain ⟨widely, ranWidely, endsWidely⟩ :=
        connection.list_run unlimited rfl settledDirectory settledFit most
      rw [ran, ranWidely, ends, endsWidely, Tree.childStats_settled]
      refine ⟨rfl, ?_⟩
      rw [Tree.closeFid_settled, Tree.closeFid_settled, ← Tree.issue_settled,
        Tree.settled_settled]
      rfl

/-- Every admissible deed comes to the same on a tree as on the settled tree. -/
theorem settles_perform (connection : Connection) (unlimited : connection.bufferLimit = none)
    (fair : tree.limits.Fair) {deed : Deed} (admissible : deed.Admissible tree) :
    Settles (connection.perform deed) (connection.perform deed) tree := by
  cases deed with
  | write path data => exact (connection.settles_write fair path data).andThen_done Finding.nothing
  | create path data => exact (connection.settles_create fair path data).andThen_done Finding.nothing
  | remove path => exact (connection.settles_remove path).andThen_done Finding.nothing
  | stat path => exact (connection.settles_stat path).andThen_done Finding.stat
  | read path => exact (connection.settles_read unlimited fair admissible).andThen_done Finding.bytes
  | list path most =>
      exact (connection.settles_list unlimited fair admissible).andThen_done Finding.entries

end Connection

/-! ## Runs of deeds -/

/-- Two trees that settle in the same way, each with limits under which transfers get on. -/
structure Tree.Matches (left right : Tree) : Prop where
  settled : left.settled = right.settled
  left : left.limits.Fair
  right : right.limits.Fair

namespace Connection

variable {left right : Tree}

/-- A deed finds the same on trees that match, and leaves trees that match. -/
theorem perform_matches (connection : Connection) (unlimited : connection.bufferLimit = none)
    (same : left.Matches right) {deed : Deed} (admissibleLeft : deed.Admissible left)
    (admissibleRight : deed.Admissible right) :
    ∃ finding leftAfter rightAfter,
      (connection.perform deed).run Tree.server left = (finding, leftAfter) ∧
      (connection.perform deed).run Tree.server right = (finding, rightAfter) ∧
      leftAfter.Matches rightAfter := by
  have onLeft := connection.settles_perform unlimited same.left admissibleLeft
  have onRight := connection.settles_perform unlimited same.right admissibleRight
  unfold Client.Settles at onLeft onRight
  rw [same.settled] at onLeft
  have leftLimits := (Tree.run_edits (connection.perform deed) left).limits
  have rightLimits := (Tree.run_edits (connection.perform deed) right).limits
  generalize (connection.perform deed).run Tree.server left = ranLeft at onLeft leftLimits ⊢
  generalize (connection.perform deed).run Tree.server right = ranRight at onRight rightLimits ⊢
  refine ⟨ranLeft.1, ranLeft.2, ranRight.2, rfl,
    Prod.ext (onRight.1.symm.trans onLeft.1) rfl, onLeft.2.symm.trans onRight.2, ?_, ?_⟩
  · rw [leftLimits]
    exact same.left
  · rw [rightLimits]
    exact same.right

private theorem performAll_matches (connection : Connection)
    (unlimited : connection.bufferLimit = none)
    (deeds : List Deed) (same : left.Matches right) (admitsLeft : connection.Admits deeds left)
    (admitsRight : connection.Admits deeds right) :
    ∃ findings leftAfter rightAfter,
      (connection.performAll deeds).run Tree.server left = (findings, leftAfter) ∧
      (connection.performAll deeds).run Tree.server right = (findings, rightAfter) ∧
      leftAfter.Matches rightAfter := by
  induction deeds generalizing left right with
  | nil => exact ⟨[], left, right, rfl, rfl, same⟩
  | cons deed rest ih =>
      obtain ⟨admissibleLeft, restLeft⟩ := admitsLeft
      obtain ⟨admissibleRight, restRight⟩ := admitsRight
      obtain ⟨finding, leftNext, rightNext, ranLeft, ranRight, next⟩ :=
        connection.perform_matches unlimited same admissibleLeft admissibleRight
      rw [ranLeft] at restLeft
      rw [ranRight] at restRight
      obtain ⟨findings, leftAfter, rightAfter, goneLeft, goneRight, after⟩ :=
        ih next restLeft restRight
      refine ⟨finding :: findings, leftAfter, rightAfter, ?_, ?_, after⟩
      · simp only [performAll, Client.run_andThen, ranLeft, goneLeft, Client.run]
      · simp only [performAll, Client.run_andThen, ranRight, goneRight, Client.run]

/-- The limits of transfers do not show. From one tree under two limits, without faults and with
transfers that move something, deeds find the same one by one. The trees that they leave differ in
their limits, in the transfers counted and in how streams are cut, and in nothing else. -/
theorem limits_unobservable (connection : Connection) (unlimited : connection.bufferLimit = none)
    {first second : Limits} (fairFirst : first.Fair) (fairSecond : second.Fair) (tree : Tree)
    (deeds : List Deed) (admitsFirst : connection.Admits deeds { tree with limits := first })
    (admitsSecond : connection.Admits deeds { tree with limits := second }) :
    ∃ findings firstAfter secondAfter,
      (connection.performAll deeds).run Tree.server { tree with limits := first } =
        (findings, firstAfter) ∧
      (connection.performAll deeds).run Tree.server { tree with limits := second } =
        (findings, secondAfter) ∧
      firstAfter.settled = secondAfter.settled := by
  have same : Tree.Matches { tree with limits := first } { tree with limits := second } :=
    ⟨rfl, fairFirst, fairSecond⟩
  obtain ⟨findings, firstAfter, secondAfter, ranFirst, ranSecond, after⟩ :=
    connection.performAll_matches unlimited deeds same admitsFirst admitsSecond
  exact ⟨findings, firstAfter, secondAfter, ranFirst, ranSecond, after.settled⟩

/-- Writing, reading a stream, creating and listing, with transfers of different sizes. -/
theorem limits_unobservable_of_small_transfers :
    let tree := ((Tree.empty {} 7).addFile "/d/a" [1, 2, 3]).addStream "/d/b"
      [.data [1, 2, 3, 4, 5], .stall, .data [6]]
    let deeds : List Deed :=
      [.write "/d/a" [4, 5], .read "/d/b", .create "/d/c" (some [1, 2, 3]), .list "/d" 9]
    let first : Limits := { iounit := 0, mostRead := some 4, mostWritten := some 1 }
    let second : Limits := { iounit := 100, mostWritten := some 2 }
    first.Fair ∧ second.Fair ∧
      Admits ⟨"mem!test", none⟩ deeds { tree with limits := first } ∧
      Admits ⟨"mem!test", none⟩ deeds { tree with limits := second } ∧
      ∃ findings firstAfter secondAfter,
        (performAll ⟨"mem!test", none⟩ deeds).run Tree.server { tree with limits := first } =
          (findings, firstAfter) ∧
        (performAll ⟨"mem!test", none⟩ deeds).run Tree.server { tree with limits := second } =
          (findings, secondAfter) ∧
        firstAfter.settled = secondAfter.settled := by
  intro tree deeds first second
  have fairFirst : first.Fair := ⟨rfl, rfl, by decide, by decide⟩
  have fairSecond : second.Fair := ⟨rfl, rfl, by decide, by decide⟩
  have admitsFirst : Admits ⟨"mem!test", none⟩ deeds { tree with limits := first } := by
    decide +kernel
  have admitsSecond : Admits ⟨"mem!test", none⟩ deeds { tree with limits := second } := by
    decide +kernel
  exact ⟨fairFirst, fairSecond, admitsFirst, admitsSecond,
    limits_unobservable ⟨"mem!test", none⟩ rfl fairFirst fairSecond tree deeds admitsFirst
      admitsSecond⟩

end Connection

end RemoteTree
