import RemoteTree.Proofs.Tree.History
import RemoteTree.Proofs.Tree.Queue

/-!
# Streams over histories

Whatever happens to a tree, in whatever order and through whatever open files, the bytes of a
stream are neither lost nor doubled nor put in another order, as long as the stream stays where it
is: what its reads bring and what then waits in its queue is what waited at first and what came in.
-/

set_option autoImplicit false

namespace RemoteTree

namespace Tree

open Chunk (Takes queued brought)

/-- The queue at a path, if a stream is there. -/
def queue? (tree : Tree) (path : Path) : Option (List Chunk) :=
  match tree.find? path with
  | some ⟨_, _, _, .stream queue⟩ => some queue
  | _ => none

def pathOf? (tree : Tree) (fid : UInt32) : Option Path :=
  (Table.find? fid tree.openFiles).map (·.path)

theorem pathOf?_eq {tree : Tree} {fid : UInt32} {opened : OpenFile}
    (found : Table.find? fid tree.openFiles = some opened) :
    tree.pathOf? fid = some opened.path := by
  rw [pathOf?, found]
  rfl

private theorem path_ne {tree : Tree} {path : Path} {fid : UInt32} {opened : OpenFile}
    (found : Table.find? fid tree.openFiles = some opened)
    (elsewhere : tree.pathOf? fid ≠ some path) : opened.path ≠ path := by
  rw [pathOf?_eq found] at elsewhere
  exact fun same => elsewhere (congrArg some same)

theorem queue?_eq_some {tree : Tree} {path : Path} {queue : List Chunk} :
    tree.queue? path = some queue ↔
      ∃ node, tree.find? path = some node ∧ node.content = .stream queue := by
  unfold queue?
  constructor
  · intro stream
    split at stream
    · next identity mode changeTime queue found =>
      cases stream
      exact ⟨_, found, rfl⟩
    · cases stream
  · rintro ⟨⟨identity, mode, changeTime, content⟩, found, rfl⟩
    rw [found]

private theorem queue?_congr {tree after : Tree} {path : Path}
    (same : after.find? path = tree.find? path) : after.queue? path = tree.queue? path := by
  unfold queue?
  rw [same]

theorem queue?_setContent (tree : Tree) (path : Path) (node : Node) (queue : List Chunk) :
    (tree.setContent path node (.stream queue)).queue? path = some queue := by
  rw [queue?_eq_some]
  exact ⟨_, (Table.find?_insert ..).trans (if_pos rfl), rfl⟩

theorem find?_setContent_of_ne (tree : Tree) {path other : Path} (apart : other ≠ path)
    (node : Node) (content : Content) :
    (tree.setContent other node content).find? path = tree.find? path :=
  (Table.find?_insert ..).trans (if_neg apart)

/-! ## Reads and writes -/

variable {tree : Tree} {path : Path} {queue : List Chunk} {fid : UInt32}

private theorem readNode_find?_of_ne {opened : OpenFile} (apart : opened.path ≠ path) (node : Node)
    (room : Nat) (wait : Option Duration) :
    (tree.readNode fid opened node room wait).2.find? path = tree.find? path := by
  unfold readNode
  split
  · split
    · rfl
    · split
      · rfl
      · split <;> rfl
  · rfl
  · exact find?_setContent_of_ne tree apart node _

theorem readFrom_find?_of_ne (elsewhere : tree.pathOf? fid ≠ some path) (room : Nat)
    (wait : Option Duration) :
    (tree.readFrom fid room wait).2.find? path = tree.find? path := by
  unfold readFrom
  dsimp only
  split
  · rfl
  · split
    · rfl
    · next opened found =>
      have apart := path_ne found elsewhere
      split
      · split
        · rfl
        · next node there => exact readNode_find?_of_ne apart node room wait
      · rfl

theorem writeTo_find?_of_ne (elsewhere : tree.pathOf? fid ≠ some path) (data : Bytes) :
    (tree.writeTo fid data).2.find? path = tree.find? path := by
  unfold writeTo
  dsimp only
  split
  · rfl
  · split
    · rfl
    · next opened found =>
      have apart := path_ne found elsewhere
      split
      · split
        · rfl
        · split
          · rfl
          · exact find?_setContent_of_ne _ apart _ _
          · exact find?_setContent_of_ne _ apart _ _
      · rfl

/-- A read of a stream does not break off. -/
theorem readFrom_takes (stream : tree.queue? path = some queue)
    (leads : tree.pathOf? fid = some path) (buffer : Bytes) (wait : Option Duration) :
    ∃ delivery after rest, tree.readFrom fid buffer.length wait = (some delivery, after) ∧
      after.queue? path = some rest ∧
      ((∃ message code, rest = queue ∧ delivery.outcome buffer = .error (.failed message code)) ∨
        Takes (capped tree.limits.mostRead buffer.length) wait queue (delivery.outcome buffer)
          rest) := by
  obtain ⟨opened, found, rfl⟩ := Option.map_eq_some_iff.mp leads
  obtain ⟨node, there, holds⟩ := queue?_eq_some.mp stream
  have known : Table.find? fid tree.countRead.openFiles = some opened := found
  have reached : tree.countRead.find? opened.path = some node := there
  unfold readFrom
  dsimp only
  split
  · exact ⟨_, _, queue, rfl, stream, .inl ⟨_, _, rfl, rfl⟩⟩
  · rw [known]
    dsimp only
    split
    · rw [reached]
      simp only [readNode, holds]
      refine ⟨_, _, _, rfl, queue?_setContent _ opened.path node _, .inr ?_⟩
      exact readQueue_takes (capped_le _ _) wait queue
    · exact ⟨_, _, queue, rfl, stream, .inl ⟨_, _, rfl, rfl⟩⟩

/-- The data that a write gets into a file. -/
def accepted (data : Bytes) : Except Refusal Nat → Bytes
  | .ok count => data.take count
  | .error _ => []

private theorem writeTo_queued (stream : tree.queue? path = some queue)
    (leads : tree.pathOf? fid = some path) (data : Bytes) :
    ∃ rest, (tree.writeTo fid data).2.queue? path = some rest ∧
      queued rest = queued queue ++ accepted data (tree.writeTo fid data).1 := by
  obtain ⟨opened, found, rfl⟩ := Option.map_eq_some_iff.mp leads
  obtain ⟨node, there, holds⟩ := queue?_eq_some.mp stream
  have known : Table.find? fid tree.countWrite.openFiles = some opened := found
  have reached : tree.countWrite.find? opened.path = some node := there
  have refused (refusal : Refusal) :
      queued queue = queued queue ++ accepted data (.error refusal) := (List.append_nil _).symm
  unfold writeTo
  dsimp only
  split
  · exact ⟨queue, stream, refused _⟩
  · rw [known]
    dsimp only
    split
    · rw [reached]
      simp only [holds]
      refine ⟨_, queue?_setContent _ opened.path _ _, ?_⟩
      rw [Chunk.queued_append]
      simp [accepted, Chunk.carried]
    · exact ⟨queue, stream, refused _⟩

/-! ## What else can happen -/

/-- Does putting something at a place put something at a path? Places above that are no
directories become directories. -/
def places (tree : Tree) (path : Path) : Path → Bool
  | .root => path = .root
  | .child parent name =>
      path = .child parent name || (!tree.hasDirectory parent && tree.places path parent)

theorem find?_place_of_ne (tree : Tree) {path place : Path} (apart : path ≠ place) (mode : UInt32)
    (content : Content) : (tree.place place mode content).find? path = tree.find? path := by
  obtain ⟨identity, found⟩ := find?_place tree place path mode content
  rw [found, if_neg apart.symm]

theorem find?_insert_of_not_places {place : Path} (spared : tree.places path place = false)
    (mode : UInt32) (content : Content) :
    (tree.insert place mode content).find? path = tree.find? path := by
  induction place generalizing mode content with
  | root => exact find?_place_of_ne tree (by simpa [places] using spared) mode content
  | child parent name ih =>
      simp only [places, Bool.or_eq_false_iff, decide_eq_false_iff_not, Bool.and_eq_false_imp,
        Bool.not_eq_true'] at spared
      obtain ⟨apart, above⟩ := spared
      unfold insert
      dsimp only
      rw [find?_place_of_ne _ apart]
      split
      · rfl
      · next bare => exact ih (above (by simpa using bare)) _ _

theorem openAt_find? (tree : Tree) (path target : Path) (mode : OpenMode) :
    (tree.openAt target mode).2.find? path = tree.find? path := by
  unfold openAt
  split
  · rfl
  · split <;> rfl

theorem createAt_find? {node : Node} (there : tree.find? path = some node) (target : Path)
    (permissions : UInt32) (mode : OpenMode) :
    (tree.createAt target permissions mode).2.find? path = tree.find? path := by
  unfold createAt
  split
  · rfl
  · next free =>
    have apart : path ≠ target := by
      rintro rfl
      exact free (by rw [there]; rfl)
    split
    · rfl
    · next parent above =>
      split
      · rfl
      · next directory found =>
        split
        · next isDirectory =>
          -- The directory that holds the new file is there, so nothing above it is placed.
          have spared : tree.places path target = false := by
            cases target with
            | root => cases above
            | child _ name =>
                cases above
                simp [places, apart, hasDirectory, found, isDirectory]
          dsimp only
          split
          · exact find?_insert_of_not_places spared _ _
          · exact find?_insert_of_not_places spared _ _
        · rfl

theorem removeAt_find? {target : Path}
    (spared : target = path → (tree.removeAt target).1 ≠ .ok ()) :
    (tree.removeAt target).2.find? path = tree.find? path := by
  unfold removeAt at spared ⊢
  split
  · rfl
  · next below =>
    rw [if_neg below] at spared
    split
    · rfl
    · next node found =>
      rw [found] at spared
      dsimp only at spared
      split
      · rfl
      · next bare =>
        rw [if_neg bare] at spared
        exact (Table.find?_erase ..).trans (if_neg fun same => spared same rfl)

theorem closeFid_find? (tree : Tree) (path : Path) (fid : UInt32) :
    (tree.closeFid fid).find? path = tree.find? path := by
  unfold closeFid
  split <;> rfl

private theorem push_queued (stream : tree.queue? path = some queue) (text : String)
    (chunk : Chunk) : ∃ rest, (tree.push text chunk).2.queue? path = some rest ∧
      queued rest = queued queue ++
        if .ofText text = path ∧ (tree.push text chunk).1 = true then chunk.carried else [] := by
  have untouched : queued queue = queued queue ++ [] := (List.append_nil _).symm
  by_cases same : .ofText text = path
  · subst same
    obtain ⟨node, there, holds⟩ := queue?_eq_some.mp stream
    have pushed : tree.push text chunk =
        (true, tree.setContent (.ofText text) node (.stream (queue ++ [chunk]))) := by
      rw [push, there]
      simp only [holds]
    rw [pushed]
    refine ⟨_, queue?_setContent tree _ node _, ?_⟩
    rw [if_pos ⟨rfl, rfl⟩, Chunk.queued_append]
    simp
  · refine ⟨queue, ?_, ?_⟩
    · rw [← stream]
      refine queue?_congr ?_
      unfold push
      split
      · split
        · exact find?_setContent_of_ne tree same _ _
        · rfl
      · rfl
    · rw [if_neg fun both => same both.1]
      exact untouched

namespace Change

/-- Does a change leave a path its node? All but removals and the calls that put something at a
place do. -/
def Spares (path : Path) (tree : Tree) : Change → Prop
  | .request (.removeFile text) =>
      Path.ofText text = path → (tree.removeAt (.ofText text)).1 ≠ .ok ()
  | .addDirectory text => tree.places path (.ofText text) = false
  | .addFile text _ => tree.places path (.ofText text) = false
  | .addStream text _ => tree.places path (.ofText text) = false
  | _ => True

/-- The bytes that a change reads at a path. A read that breaks off returns none. -/
def returned (path : Path) (tree : Tree) : Change → Bytes
  | .request (.readFrom handle buffer wait) =>
      if tree.pathOf? handle.fid = some path then
        match (tree.readFrom handle.fid buffer.length wait).1 with
        | some delivery => brought (delivery.outcome buffer)
        | none => []
      else []
  | _ => []

/-- The bytes that a change gets into a stream at a path. -/
def added (path : Path) (tree : Tree) : Change → Bytes
  | .request (.writeTo handle data) =>
      if tree.pathOf? handle.fid = some path then
        accepted data (server.answer (.writeTo handle data) tree).1
      else []
  | .push text chunk =>
      if .ofText text = path ∧ (tree.push text chunk).1 = true then chunk.carried else []
  | _ => []

theorem conserves (stream : tree.queue? path = some queue) {change : Change}
    (spares : change.Spares path tree) :
    ∃ rest, (change.apply tree).queue? path = some rest ∧
      change.returned path tree ++ queued rest = queued queue ++ change.added path tree := by
  -- Only reads and writes of the path and pushes touch the queue; the rest leaves the node alone.
  have still {after : Tree} (same : after.find? path = tree.find? path) :
      ∃ rest, after.queue? path = some rest ∧ [] ++ queued rest = queued queue ++ [] :=
    ⟨queue, (queue?_congr same).trans stream, by simp⟩
  obtain ⟨node, there, -⟩ := queue?_eq_some.mp stream
  cases change with
  | request request =>
      cases request with
      | openFile text mode => exact still (openAt_find? tree path _ mode)
      | createFile text permissions mode => exact still (createAt_find? there _ permissions mode)
      | readFrom handle buffer wait =>
          by_cases leads : tree.pathOf? handle.fid = some path
          · obtain ⟨delivery, after, rest, read, left, taken⟩ :=
              readFrom_takes stream leads buffer wait
            simp only [apply, returned, added, leads, server, read, List.append_nil, ↓reduceIte]
            refine ⟨rest, left, ?_⟩
            rcases taken with ⟨message, code, rfl, failed⟩ | takes
            · rw [failed]
              rfl
            · exact takes.conserves
          · simp only [returned, added, leads, ↓reduceIte]
            exact still (readFrom_find?_of_ne leads _ wait)
      | writeTo handle data =>
          by_cases leads : tree.pathOf? handle.fid = some path
          · obtain ⟨rest, left, grown⟩ := writeTo_queued stream leads data
            refine ⟨rest, left, ?_⟩
            simp only [returned, added, leads, server, List.nil_append, ↓reduceIte]
            exact grown
          · simp only [returned, added, leads, ↓reduceIte]
            exact still (writeTo_find?_of_ne leads data)
      | removeFile text => exact still (removeAt_find? spares)
      | statFile text =>
          refine still ?_
          simp only [apply, server]
          split <;> rfl
      | closeFile handle => exact still (closeFid_find? tree path handle.fid)
      | unmount => exact still rfl
  | mount => exact still rfl
  | addDirectory text => exact still (find?_insert_of_not_places spares _ _)
  | addFile text contents => exact still (find?_insert_of_not_places spares _ _)
  | addStream text queue => exact still (find?_insert_of_not_places spares _ _)
  | push text chunk => exact push_queued stream text chunk
  | setTime now => exact still rfl
  | setOwner owner => exact still rfl
  | createDirectories on => exact still rfl

end Change

/-! ## Histories -/

/-- What the changes of a history come to, one after the other. -/
def gather (piece : Tree → Change → Bytes) : Tree → List Change → Bytes
  | _, [] => []
  | tree, change :: rest => piece tree change ++ gather piece (change.apply tree) rest

/-- Is a path left its node by all changes of a history? -/
def Spared (path : Path) : Tree → List Change → Prop
  | _, [] => True
  | tree, change :: rest => change.Spares path tree ∧ Spared path (change.apply tree) rest

private theorem after_conserves {changes : List Change} (stream : tree.queue? path = some queue)
    (spared : Spared path tree changes) :
    ∃ rest, (tree.after changes).queue? path = some rest ∧
      gather (Change.returned path) tree changes ++ queued rest =
        queued queue ++ gather (Change.added path) tree changes := by
  induction changes generalizing tree queue with
  | nil => exact ⟨queue, stream, by simp [gather]⟩
  | cons change others ih =>
      obtain ⟨middle, between, first⟩ := change.conserves stream spared.1
      obtain ⟨rest, left, later⟩ := ih between spared.2
      refine ⟨rest, left, ?_⟩
      simp only [gather]
      calc
        _ = change.returned path tree ++ (queued middle ++
            gather (Change.added path) (change.apply tree) others) := by
          rw [List.append_assoc, later]
        _ = _ := by rw [← List.append_assoc, first, List.append_assoc]

theorem Spared.earlier {earlier later : List Change} (spared : Spared path tree (earlier ++ later)) :
    Spared path tree earlier := by
  induction earlier generalizing tree with
  | nil => trivial
  | cons change rest ih => exact ⟨spared.1, ih spared.2⟩

/-- Whatever happens to a tree, what the reads of a stream bring and what waits in its queue in the
end is what waited at first and what came in, in that order, as long as the stream is neither
removed nor replaced. Every single read of it is answered. It fails and leaves the queue alone, or
takes from it the front of one chunk or, with a deadline, one stall. A read elsewhere may break off,
which ends the run of its client; it brings nothing and leaves the queue alone as well. -/
theorem stream_conserved {tree : Tree} {path : Path} {queue : List Chunk}
    (stream : tree.queue? path = some queue) {changes : List Change}
    (spared : Spared path tree changes) :
    (∃ rest, (tree.after changes).queue? path = some rest ∧
      gather (Change.returned path) tree changes ++ queued rest =
        queued queue ++ gather (Change.added path) tree changes) ∧
    ∀ (earlier later : List Change) (handle : Handle) (buffer : Bytes) (wait : Option Duration),
      changes = earlier ++ .request (.readFrom handle buffer wait) :: later →
      (tree.after earlier).pathOf? handle.fid = some path →
      ∃ (before rest : List Chunk) (delivery : Delivery) (next : Tree),
        (tree.after earlier).queue? path = some before ∧
        (tree.after earlier).readFrom handle.fid buffer.length wait = (some delivery, next) ∧
        next.queue? path = some rest ∧
        ((∃ message code, rest = before ∧
            delivery.outcome buffer = .error (.failed message code)) ∨
          Takes (capped (tree.after earlier).limits.mostRead buffer.length) wait before
            (delivery.outcome buffer) rest) := by
  constructor
  · exact after_conserves stream spared
  · rintro earlier later handle buffer wait rfl leads
    obtain ⟨before, here, -⟩ := after_conserves stream spared.earlier
    obtain ⟨delivery, next, rest, read, left, taken⟩ := readFrom_takes here leads buffer wait
    exact ⟨before, rest, delivery, next, here, read, left, taken⟩

/-- Two open files take turns at reading a stream, one of them writes to it, a chunk is pushed, and
a file gives way to a directory, so that the next read through its handle breaks off. The third
read of the stream only takes the stall in front of it. -/
theorem stream_conserved_of_turns :
    let tree := (Tree.empty { mostWritten := some 2 } 7).addStream "/s"
      [.data [], .stall, .data [1, 2, 3], .stall, .data [4]]
    let first : Handle := ⟨1, tree.limits.iounit, 0⟩
    let second : Handle := ⟨2, tree.limits.iounit, 0⟩
    let other : Handle := ⟨3, tree.limits.iounit, 0⟩
    let wait : Option Duration := some (.seconds 1)
    let start : List Change :=
      [.request (.openFile "/s" .read), .request (.openFile "s" .readWrite),
        .request (.readFrom first [0, 0] none), .request (.writeTo second [5, 6, 7]),
        .addFile "/t" [9], .request (.openFile "/t" .read), .request (.readFrom other [0] none),
        .request (.removeFile "/t"), .addDirectory "/t"]
    let earlier : List Change := start ++ [.request (.readFrom other [0] none),
      .request (.readFrom second [0, 0, 0] wait)]
    let later : List Change :=
      [.push "/s" (.data [8]), .request (.readFrom second [] none), .request (.removeFile "/t")]
    let changes := earlier ++ .request (.readFrom first [0, 0] wait) :: later
    tree.queue? (.ofText "/s") = some [.data [], .stall, .data [1, 2, 3], .stall, .data [4]] ∧
      Spared (.ofText "/s") tree changes ∧
      ((tree.after start).reply? (.readFrom other [0] none)).isNone = true ∧
      (∃ rest, (tree.after changes).queue? (.ofText "/s") = some rest ∧
        [1, 2] ++ ([3] ++ queued rest) = [1, 2, 3, 4] ++ ([5, 6] ++ [8])) ∧
      (tree.after earlier).pathOf? first.fid = some (.ofText "/s") ∧
      ∃ before rest, (tree.after earlier).queue? (.ofText "/s") = some before ∧
        Takes 2 wait before (.error .timedOut) rest := by
  intro tree first second other wait start earlier later changes
  have stream : tree.queue? (.ofText "/s") =
      some [.data [], .stall, .data [1, 2, 3], .stall, .data [4]] := by decide +kernel
  have spared : Spared (.ofText "/s") tree changes := by
    refine ⟨trivial, trivial, trivial, trivial, ?_, trivial, trivial, ?_, ?_, trivial, trivial,
      trivial, trivial, trivial, ?_, trivial⟩
    · change places _ _ _ = false
      decide +kernel
    · intro same
      exact absurd same (by decide +kernel)
    · change places _ _ _ = false
      decide +kernel
    · intro same
      exact absurd same (by decide +kernel)
  have leads : (tree.after earlier).pathOf? first.fid = some (.ofText "/s") := by decide +kernel
  have returned : gather (Change.returned (.ofText "/s")) tree changes = [1, 2] ++ [3] := by
    decide +kernel
  have added : gather (Change.added (.ofText "/s")) tree changes = [5, 6] ++ [8] := by
    decide +kernel
  have expired : ((tree.after earlier).readFrom first.fid ([0, 0] : Bytes).length wait).1.map
      (·.outcome [0, 0]) = some (.error .timedOut) := by decide +kernel
  obtain ⟨⟨rest, left, conserved⟩, reads⟩ := stream_conserved stream spared
  obtain ⟨before, next, delivery, after, here, answered, -, taken⟩ :=
    reads earlier later first [0, 0] wait rfl leads
  rw [answered] at expired
  replace expired : delivery.outcome [0, 0] = .error .timedOut := Option.some.inj expired
  rw [expired, (tree.after_edits earlier).limits] at taken
  refine ⟨stream, spared, by decide +kernel, ⟨rest, left, ?_⟩, leads, before, next, here, ?_⟩
  · rw [returned, added] at conserved
    exact conserved
  · rcases taken with ⟨message, code, -, failed⟩ | takes
    · cases failed
    · exact takes

end Tree

end RemoteTree
