import RemoteTree.Proofs.Tree.Deliveries
import RemoteTree.Proofs.Tree.Listing
import RemoteTree.Proofs.Tree.Settled

/-!
# Reading a directory of a tree

A reader of a directory yields what the directory listed when it was opened, entry by entry, and
then nothing more. What happens to the tree between two steps does not show, as long as the
directory stays one.
-/

set_option autoImplicit false

namespace RemoteTree

namespace DirectoryReader

/-- A reader on the way through a directory: some records wait in its buffer, others on the
server. -/
structure OnTheWay (reader : DirectoryReader) (tree : Tree) (directory : Path)
    (now later : List Stat) : Prop where
  live : reader.finished = false
  pending : reader.pending = Stat.encodeAll now
  fit : ∀ stat ∈ now ++ later, stat.FitsIn reader.buffer.length
  opened : ∃ opened, Table.find? reader.handle.fid tree.openFiles = some opened ∧
    opened.path = directory ∧ opened.mode.isReadable = true ∧
    opened.listing.behind? opened.offset = some (Stat.encodeAll later)

private theorem decodePending_encodeAll {reader : DirectoryReader} {stat : Stat} {rest : List Stat}
    (pending : reader.pending = Stat.encodeAll (stat :: rest))
    (fits : stat.encodeBody.length ≤ Stat.largestSize) :
    reader.decodePending = (.ok stat, { reader with
      consumed := reader.consumed + stat.encode.length, pending := Stat.encodeAll rest }) := by
  rw [decodePending, pending, Stat.encodeAll_cons, Stat.decodeNext_encode fits]

theorem next_of_finished {reader : DirectoryReader} (finished : reader.finished = true) :
    reader.next = .done (none, reader) := by
  rw [next, if_pos finished]

variable {reader : DirectoryReader} {tree : Tree} {directory : Path}

/-- A record that waits in the buffer is yielded without a request. -/
theorem OnTheWay.next_pending {stat : Stat} {now later : List Stat}
    (way : reader.OnTheWay tree directory (stat :: now) later) :
    ∃ next, reader.next = .done (some (.ok stat), next) ∧ next.handle = reader.handle ∧
      next.OnTheWay tree directory now later := by
  obtain ⟨fits, others⟩ := List.forall_mem_cons.mp way.fit
  have some : (!reader.pending.isEmpty) = true := by
    rw [way.pending, Stat.encodeAll_cons]
    simp [stat.encode_ne_nil]
  refine ⟨{ reader with
    consumed := reader.consumed + stat.encode.length, pending := Stat.encodeAll now },
    ?_, rfl, way.live, rfl, others, way.opened⟩
  rw [next, if_neg (by simp [way.live]), if_pos some,
    decodePending_encodeAll way.pending fits.1]

theorem next_of_empty (live : reader.finished = false) (empty : reader.pending = []) :
    reader.next = .ask (.readFrom reader.handle reader.buffer none) fun delivery =>
      let buffer := Bytes.overlay delivery.received reader.buffer
      match delivery.claimed with
      | .error _ => .done (none, { reader with buffer := buffer, finished := true })
      | .ok 0 => .done (none, { reader with buffer := buffer, finished := true })
      | .ok count =>
          if buffer.length < count then
            .done (some (.error (.protocol reader.path (.overlongRead count buffer.length))),
              { reader with buffer := buffer, finished := true })
          else
            .done (some (decodePending { reader with
                buffer := buffer, consumed := 0, pending := buffer.take count }).1,
              (decodePending { reader with
                buffer := buffer, consumed := 0, pending := buffer.take count }).2) := by
  unfold next
  exact (if_neg (by simp [live])).trans (if_neg (by simp [empty]))

/-- The reads of a directory do not show once it is closed. -/
theorem sameClosed_setOffset {opened : OpenFile}
    (found : Table.find? reader.handle.fid tree.openFiles = some opened) (offset : Nat) :
    Tree.SameClosed reader.handle.fid
      (tree.countRead.setOffset reader.handle.fid opened offset) tree := by
  unfold Tree.SameClosed
  have counted : Table.find? reader.handle.fid tree.countRead.openFiles = some opened := found
  rw [Tree.closeFid_setOffset counted, Tree.closeFid_settled, Tree.closeFid_settled]
  rfl

/-- A read for a reader on its way delivers the records that are packed, and leaves the others. -/
theorem OnTheWay.read {now later : List Stat}
    (way : reader.OnTheWay tree directory [] (now ++ later))
    (reliable : tree.limits.failAfterReads = none) (still : tree.hasDirectory directory = true)
    (packed : Tree.packRecords (Stat.encodeAll (now ++ later)) reader.buffer.length
      tree.limits.mostRead = .ok (Stat.encodeAll now).length) :
    ∃ opened after, tree.readFrom reader.handle.fid reader.buffer.length none =
        (some ⟨Stat.encodeAll now, .ok (Stat.encodeAll now).length⟩, after) ∧
      Table.find? reader.handle.fid after.openFiles = some opened ∧ opened.path = directory ∧
      opened.mode.isReadable = true ∧
      opened.listing.behind? opened.offset = some (Stat.encodeAll later) ∧
      Tree.SameClosed reader.handle.fid after tree := by
  obtain ⟨opened, found, rfl, readable, listing⟩ := way.opened
  rw [Stat.encodeAll_append] at listing packed
  exact ⟨_, _, Tree.readFrom_packed reliable found readable still listing packed none,
    (Table.find?_insert ..).trans (if_pos rfl), rfl, readable, Bytes.behind?_add listing,
    sameClosed_setOffset found _⟩

/-- When all records have been yielded the next read ends the entries. -/
theorem OnTheWay.next_end (way : reader.OnTheWay tree directory [] [])
    (reliable : tree.limits.failAfterReads = none) (still : tree.hasDirectory directory = true) :
    ∃ next after, reader.next.run Tree.server tree = ((none, next), after) ∧
      next.handle = reader.handle ∧ next.finished = true ∧
      Tree.SameClosed reader.handle.fid after tree := by
  replace way : reader.OnTheWay tree directory [] ([] ++ []) := way
  obtain ⟨_, after, read, -, -, -, -, closed⟩ :=
    way.read reliable still (Tree.packRecords_nil _ _)
  rw [next_of_empty way.live way.pending]
  simp only [Client.run, Tree.answer_readFrom read, Stat.encodeAll_nil, List.length_nil]
  exact ⟨_, after, rfl, rfl, rfl, closed⟩

/-- When no record waits the next read brings some, and the first of them is yielded. -/
theorem OnTheWay.next_read {stat : Stat} {rest : List Stat}
    (way : reader.OnTheWay tree directory [] (stat :: rest))
    (reliable : tree.limits.failAfterReads = none) (still : tree.hasDirectory directory = true) :
    ∃ next after now later, rest = now ++ later ∧
      reader.next.run Tree.server tree = ((some (.ok stat), next), after) ∧
      next.handle = reader.handle ∧ next.OnTheWay after directory now later ∧
      Tree.SameClosed reader.handle.fid after tree := by
  obtain ⟨now, later, rfl, packed⟩ := Tree.packRecords_encodeAll tree.limits.mostRead way.fit
  rw [← List.cons_append] at way packed
  -- The read packs the records of `now` behind the first, and leaves those of `later`.
  obtain ⟨opened, after, read, opens⟩ := way.read reliable still packed
  generalize countIs : (Stat.encodeAll (stat :: now)).length = count at read packed
  have fits : count ≤ reader.buffer.length := Tree.packRecords_le packed
  have delivered : (Bytes.overlay (Stat.encodeAll (stat :: now)) reader.buffer).take count =
      Stat.encodeAll (stat :: now) := by
    rw [← countIs]
    exact Bytes.take_overlay (by rw [countIs]; exact fits)
  have some : count ≠ 0 := by
    have first := List.length_pos_of_ne_nil stat.encode_ne_nil
    rw [← countIs, Stat.encodeAll_cons, List.length_append]
    omega
  obtain ⟨size, rfl⟩ := Nat.exists_eq_succ_of_ne_zero some
  rw [next_of_empty way.live way.pending]
  simp only [Client.run, Tree.answer_readFrom read, Bytes.length_overlay,
    if_neg (Nat.not_lt.mpr fits), delivered]
  rw [decodePending_encodeAll rfl (way.fit stat List.mem_cons_self).1]
  obtain ⟨found, path, readable, listing, closed⟩ := opens
  refine ⟨_, after, now, later, rfl, rfl, rfl, ⟨way.live, rfl, fun other member => ?_,
    opened, found, path, readable, listing⟩, closed⟩
  rw [Bytes.length_overlay]
  exact way.fit other (List.mem_cons_of_mem stat member)

/-- The records that a reader has yet to yield. -/
def Remaining (reader : DirectoryReader) (tree : Tree) (directory : Path) (stats : List Stat) :
    Prop :=
  (∃ now later, stats = now ++ later ∧ reader.OnTheWay tree directory now later) ∨
    stats = [] ∧ reader.finished = true

/-- A step yields the first record that remains, or nothing and finishes if there is none. -/
theorem Remaining.next {stats : List Stat} (remaining : reader.Remaining tree directory stats)
    (reliable : tree.limits.failAfterReads = none) (still : tree.hasDirectory directory = true) :
    ∃ next after, reader.next.run Tree.server tree = ((stats.head?.map .ok, next), after) ∧
      next.handle = reader.handle ∧ next.Remaining after directory stats.tail ∧
      next.finished = (reader.finished || stats.isEmpty) ∧
      Tree.SameClosed reader.handle.fid after tree := by
  rcases remaining with ⟨now, later, rfl, way⟩ | ⟨rfl, finished⟩
  · cases now with
    | cons stat now =>
        obtain ⟨next, step, handle, following⟩ := way.next_pending
        refine ⟨next, tree, by rw [step]; rfl, handle, .inl ⟨now, later, rfl, following⟩, ?_, rfl⟩
        rw [following.live, way.live]
        rfl
    | nil =>
        cases later with
        | cons stat rest =>
            obtain ⟨next, after, now, later, rfl, step, handle, following, same⟩ :=
              way.next_read reliable still
            refine ⟨next, after, step, handle, .inl ⟨now, later, rfl, following⟩, ?_, same⟩
            rw [following.live, way.live]
            rfl
        | nil =>
            obtain ⟨next, after, step, handle, finished, same⟩ := way.next_end reliable still
            refine ⟨next, after, step, handle, .inr ⟨rfl, finished⟩, ?_, same⟩
            rw [finished, way.live]
            rfl
  · refine ⟨reader, tree, by rw [next_of_finished finished]; rfl, rfl, .inr ⟨rfl, finished⟩, ?_, rfl⟩
    rw [finished]
    rfl

/-- The next steps yield the first records that remain, and finish if there are fewer. -/
theorem Remaining.loop {stats : List Stat} (remaining : reader.Remaining tree directory stats)
    (reliable : tree.limits.failAfterReads = none) (still : tree.hasDirectory directory = true)
    (count : Nat) (entries : List (Except ClientError Stat)) :
    ∃ last after, (take.loop count entries reader).run Tree.server tree =
        ((entries.reverse ++ (stats.take count).map .ok, last), after) ∧
      last.handle = reader.handle ∧
      last.finished = (reader.finished || decide (stats.length < count)) ∧
      Tree.SameClosed reader.handle.fid after tree := by
  induction count generalizing reader tree stats entries with
  | zero => exact ⟨reader, tree, by simp [take.loop, Client.run], rfl, by simp, rfl⟩
  | succ count ih =>
      obtain ⟨next, after, step, handle, following, finished, same⟩ :=
        remaining.next reliable still
      have limits := (Tree.run_edits reader.next tree).limits
      rw [step] at limits
      simp only [take.loop, Client.run_andThen, step]
      cases stats with
      | nil => exact ⟨next, after, by simp [Client.run], handle, by simp [finished], same⟩
      | cons stat rest =>
          obtain ⟨last, ended, ran, kept, ends, closed⟩ :=
            ih following (by rw [limits]; exact reliable)
              ((same.hasDirectory directory).trans still) (.ok stat :: entries)
          refine ⟨last, ended, ?_, kept.trans handle, ?_, ?_⟩
          · simpa using ran
          · rw [ends, finished, List.isEmpty_cons, Bool.or_false]
            exact congrArg _ (decide_eq_decide.mpr Nat.succ_lt_succ_iff.symm)
          · rw [handle] at closed
            exact closed.trans same

private theorem Remaining.spared {stats : List Stat}
    (remaining : reader.Remaining tree directory stats)
    {after : Tree} (same : Table.find? reader.handle.fid after.openFiles =
      Table.find? reader.handle.fid tree.openFiles) :
    reader.Remaining after directory stats := by
  rcases remaining with ⟨now, later, split, way⟩ | ended
  · exact .inl ⟨now, later, split, way.live, way.pending, way.fit, by rw [same]; exact way.opened⟩
  · exact .inr ended

/-- The entries that the steps of a reader yield when, before each step, things happen to the tree
that do not go through the reader's open file and leave the directory one. -/
inductive Yields (directory : Path) :
    DirectoryReader → Tree → List (Option (Except ClientError Stat)) → Tree → Prop where
  | done (reader : DirectoryReader) (tree : Tree) : Yields directory reader tree [] tree
  | next {reader next : DirectoryReader} {tree after last : Tree}
      {entry : Option (Except ClientError Stat)} {entries : List (Option (Except ClientError Stat))}
      (changes : List Tree.Change)
      (apart : ∀ change ∈ changes, change.fid? ≠ some reader.handle.fid)
      (still : (tree.after changes).hasDirectory directory = true)
      (step : reader.next.run Tree.server (tree.after changes) = ((entry, next), after))
      (rest : Yields directory next after entries last) :
      Yields directory reader tree (entry :: entries) last

private theorem Yields.opens_le {entries : List (Option (Except ClientError Stat))} {last : Tree}
    (yields : Yields directory reader tree entries last) :
    tree.ledger.opens ≤ last.ledger.opens := by
  induction yields with
  | done => exact Nat.le_refl _
  | @next reader next tree after last entry entries changes apart still step rest ih =>
      have stepped := (Tree.run_edits reader.next (tree.after changes)).opens_le
      rw [step] at stepped
      exact Nat.le_trans (tree.after_edits changes).opens_le (Nat.le_trans stepped ih)

/-- The steps yield the records that remain, in order, and then nothing. The number of the open
file must not come round to another file meanwhile. -/
theorem Yields.eq_remaining {entries : List (Option (Except ClientError Stat))} {last : Tree}
    (yields : Yields directory reader tree entries last) {stats : List Stat}
    (remaining : reader.Remaining tree directory stats) {count : Nat}
    (fid : reader.handle.fid = UInt32.ofNat count) (issued : count ≤ tree.ledger.opens)
    (few : last.ledger.opens < count + UInt32.size) (numbered : tree.Numbered)
    (reliable : tree.limits.failAfterReads = none) :
    ∀ index < entries.length, entries[index]? = some (stats[index]?.map .ok) := by
  induction yields generalizing stats with
  | done => exact fun _ within => absurd within (Nat.not_lt_zero _)
  | @next reader next tree after last entry entries changes apart still step rest ih =>
      have edits := tree.after_edits changes
      have more := edits.opens_le
      have stepped := Tree.run_edits reader.next (tree.after changes)
      simp only [step] at stepped
      have between := rest.opens_le
      have further := stepped.opens_le
      -- What happens before the step leaves the reader's open file alone.
      have spared := edits.spares numbered issued (by omega) (by
        rintro ⟨change, member, named⟩
        exact apart change member (fid ▸ named))
      rw [← fid] at spared
      obtain ⟨following, left, ran, handle, rest, _, _⟩ :=
        (remaining.spared spared).next (edits.limits ▸ reliable) still
      rw [step] at ran
      cases ran
      have others := ih rest (handle ▸ fid) (by omega) few
        (stepped.numbered (edits.numbered numbered))
        (by rw [stepped.limits, edits.limits]; exact reliable)
      intro index within
      cases index with
      | zero => simp [List.head?_eq_getElem?]
      | succ index =>
          rw [List.getElem?_cons_succ, others index (Nat.lt_of_succ_lt_succ within),
            List.getElem?_tail]

end DirectoryReader

namespace Connection

/-- Opening a directory starts a reader on what the directory lists. -/
theorem openDirectory_remaining (connection : Connection)
    (unlimited : connection.bufferLimit = none) {tree : Tree} {path : String}
    (directory : tree.hasDirectory (.ofText path) = true)
    (fit : ∀ stat ∈ tree.childStats (.ofText path), stat.encode.length ≤
      Handle.transferSize ⟨tree.nextFid, tree.limits.iounit, directoryKind⟩) :
    ∃ reader, (connection.openDirectory path).run Tree.server tree =
        (.ok reader, (tree.issue (.ofText path) .read).2) ∧
      reader.handle.fid = tree.nextFid ∧ reader.finished = false ∧
      reader.Remaining (tree.issue (.ofText path) .read).2 (.ofText path)
        (tree.childStats (.ofText path)) := by
  obtain ⟨node, found, content⟩ := Tree.exists_directory directory
  have allowed : Client.fits connection.bufferLimit
      (tree.issue (.ofText path) .read).1.transferSize = true := by
    rw [unlimited]
    rfl
  have size : (DirectoryReader.start (tree.issue (.ofText path) .read).1 path).buffer.length =
      Handle.transferSize ⟨tree.nextFid, tree.limits.iounit, directoryKind⟩ :=
    (List.length_replicate ..).trans (Handle.transferSize_congr rfl)
  have opened := tree.find?_issue (.ofText path) .read
  rw [if_pos directory] at opened
  refine ⟨DirectoryReader.start (tree.issue (.ofText path) .read).1 path,
    connection.run_openReader found DirectoryReader.start allowed, rfl, rfl, .inl
      ⟨[], tree.childStats (.ofText path), rfl, rfl, rfl, ?_, _, opened, rfl, rfl,
        congrArg some (tree.listing_eq (.ofText path))⟩⟩
  intro stat member
  have room := fit stat member
  have most := Handle.transferSize_le ⟨tree.nextFid, tree.limits.iounit, directoryKind⟩
  have length := stat.length_encode
  rw [size]
  exact ⟨by unfold Stat.largestSize; omega, room⟩

/-- The record that the server has for a path arrives whole, if it fits into a message. -/
theorem run_stat (connection : Connection) {tree : Tree} {text : String} {stat : Stat}
    (there : tree.stat? text = some stat) (fits : stat.encodeBody.length ≤ Stat.largestSize) :
    (connection.stat text).run Tree.server tree = (.ok stat, tree) := by
  simp only [Connection.stat, Client.run, Tree.server, there, Stat.decode_encode fits]
  rfl

/-- Reading a directory to its end yields the record of every child as it was when the directory
was opened, once and in the order of the bytes of the names, and then nothing. What happens to the
tree between two steps does not show while the directory stays one. -/
theorem openDirectory_lists {tree : Tree} (reachable : tree.Reachable) (connection : Connection)
    (unlimited : connection.bufferLimit = none) (path : String)
    (directory : tree.hasDirectory (.ofText path) = true)
    (reliable : tree.limits.failAfterReads = none)
    (fit : ∀ name node, tree.find? (.child (.ofText path) name) = some node →
      (tree.statOf (.child (.ofText path) name) node).encode.length ≤
        Handle.transferSize ⟨tree.nextFid, tree.limits.iounit, directoryKind⟩) :
    ∃ (reader : DirectoryReader) (opened : Tree) (stats : List Stat),
      (connection.openDirectory path).run Tree.server tree = (.ok reader, opened) ∧
      (stats.map (·.name)).Pairwise (fun before after =>
        Utf8.ordered before after = true ∧ before ≠ after) ∧
      (∀ stat, stat ∈ stats ↔ ∃ name node,
        tree.find? (.child (.ofText path) name) = some node ∧
          stat = tree.statOf (.child (.ofText path) name) node) ∧
      (∀ stat ∈ stats, ∃ text, Path.ofText text = .child (.ofText path) stat.name ∧
        tree.stat? text = some stat ∧
        (connection.stat text).run Tree.server tree = (.ok stat, tree)) ∧
      ∀ entries last, DirectoryReader.Yields (.ofText path) reader opened entries last →
        last.ledger.opens < opened.ledger.opens + UInt32.size →
        ∀ index < entries.length, entries[index]? = some (stats[index]?.map .ok) := by
  have proper := reachable.proper
  have sized (stat : Stat) (listed : stat ∈ tree.childStats (.ofText path)) :
      stat.encode.length ≤
        Handle.transferSize ⟨tree.nextFid, tree.limits.iounit, directoryKind⟩ := by
    obtain ⟨name, node, found, rfl⟩ := proper.mem_childStats.mp listed
    exact fit name node found
  obtain ⟨reader, ran, fid, _, remaining⟩ :=
    connection.openDirectory_remaining unlimited directory sized
  obtain ⟨node, found, _⟩ := Tree.exists_directory directory
  have issue : Tree.Edit (fun _ => True) tree (tree.issue (.ofText path) .read).2 :=
    .issue tree found .read
  refine ⟨reader, _, tree.childStats (.ofText path), ran, proper.names_childStats _,
    fun stat => proper.mem_childStats, fun stat listed => ?_, fun entries last yields few => ?_⟩
  · obtain ⟨text, spelt, there⟩ := proper.stat?_child listed
    have size := sized stat listed
    have most := Handle.transferSize_le ⟨tree.nextFid, tree.limits.iounit, directoryKind⟩
    have length := stat.length_encode
    exact ⟨text, spelt, there, connection.run_stat there (by unfold Stat.largestSize; omega)⟩
  · exact yields.eq_remaining remaining (fid.trans reachable.numbered) (Nat.le_refl _) few
      (issue.numbered reachable.numbered) (by rw [issue.limits]; exact reliable)

/-- A directory of two files and a stream whose records are as long as the buffer, on a server that
allows reads of no length. -/
theorem openDirectory_lists_of_full_buffers :
    let tree := (((Tree.empty { iounit := 62, mostRead := some 0 } 7).addFile "/d/b"
      [1, 2]).addStream "/d/c" [.stall]).addFile "/d/a" []
    tree.Reachable ∧ tree.hasDirectory (.ofText "/d") = true ∧
      (∀ name node, tree.find? (.child (.ofText "/d") name) = some node →
        (tree.statOf (.child (.ofText "/d") name) node).encode.length ≤
          Handle.transferSize ⟨tree.nextFid, tree.limits.iounit, directoryKind⟩) ∧
      ∃ (reader : DirectoryReader) (opened : Tree) (stats : List Stat),
        (openDirectory ⟨"mem!test", none⟩ "/d").run Tree.server tree = (.ok reader, opened) ∧
        ∀ entries last, DirectoryReader.Yields (.ofText "/d") reader opened entries last →
          last.ledger.opens < opened.ledger.opens + UInt32.size →
          ∀ index < entries.length, entries[index]? = some (stats[index]?.map .ok) := by
  intro tree
  have reachable : tree.Reachable :=
    .change (.addFile "/d/a" []) (.change (.addStream "/d/c" [.stall])
      (.change (.addFile "/d/b" [1, 2]) (.empty { iounit := 62, mostRead := some 0 } 7)))
  have directory : tree.hasDirectory (.ofText "/d") = true := by decide +kernel
  have reliable : tree.limits.failAfterReads = none := by decide +kernel
  have sizes : ∀ entry ∈ tree.nodes, (tree.statOf entry.1 entry.2).encode.length ≤
      Handle.transferSize ⟨tree.nextFid, tree.limits.iounit, directoryKind⟩ := by
    decide +kernel
  have fit : ∀ name node, tree.find? (.child (.ofText "/d") name) = some node →
      (tree.statOf (.child (.ofText "/d") name) node).encode.length ≤
        Handle.transferSize ⟨tree.nextFid, tree.limits.iounit, directoryKind⟩ :=
    fun name node found => sizes (.child (.ofText "/d") name, node) (Tree.mem_nodes_of_find? found)
  obtain ⟨reader, opened, stats, ran, _, _, _, yields⟩ :=
    openDirectory_lists reachable ⟨"mem!test", none⟩ rfl "/d" directory reliable fit
  exact ⟨reachable, directory, fit, reader, opened, stats, ran, yields⟩

end Connection

end RemoteTree
