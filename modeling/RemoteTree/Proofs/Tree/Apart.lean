import RemoteTree.Proofs.Tree.OpenFiles
import RemoteTree.Proofs.Tree.Refused
import RemoteTree.Proofs.Tree.Stream

/-!
# Open files apart

All open files and all nodes are kept in one tree that its clients share. What is read through one of
the open files still depends on nothing but where it stands and what it reads from, which is the
contents of a plain file or what a directory held when it was opened: two histories that read the
same way through it and leave its node alone cannot be told apart by these reads.
-/

set_option autoImplicit false

namespace RemoteTree

/-- The bytes that a read brought. -/
def Delivery.bytes (delivery : Delivery) : Bytes :=
  match delivery.claimed with
  | .ok count => delivery.received.take count
  | .error _ => []

@[simp] theorem Delivery.bytes_ok (bytes : Bytes) :
    Delivery.bytes ⟨bytes, .ok bytes.length⟩ = bytes := List.take_length

namespace Tree

variable {tree : Tree} {fid : UInt32} {path : Path} {file : OpenFile} {node : Node}
  {source : Bytes}

/-! ## What reads deliver one after the other -/

/-- What a read delivers from a source, from an offset on. The read of a directory breaks off where
the offset or the records behind it are past the end. -/
def portion (limit : Option Nat) (isDirectory : Bool) (source : Bytes) (offset room : Nat) :
    Option Delivery :=
  if isDirectory then
    match source.behind? offset with
    | none => none
    | some rest =>
        match packRecords rest room limit with
        | .error refusal => some (refusedRead refusal)
        | .ok count => (rest.front? count).map fun bytes => ⟨bytes, .ok count⟩
  else
    let bytes := (source.drop offset).take (capped limit room)
    some ⟨bytes, .ok bytes.length⟩

/-- How far a read moves its file. -/
def distance (read : Option Delivery) : Nat := (read.elim [] Delivery.bytes).length

/-- What reads come to from a source, from an offset on, with one room after the other. -/
def serve (limit : Option Nat) (isDirectory : Bool) (source : Bytes) :
    Nat → List Nat → List (Option Delivery)
  | _, [] => []
  | offset, room :: rest =>
      let read := portion limit isDirectory source offset room
      read :: serve limit isDirectory source (offset + distance read) rest

private theorem portion_prefix (limit : Option Nat) (isDirectory : Bool) (source : Bytes)
    (offset room : Nat) :
    (portion limit isDirectory source offset room).elim [] Delivery.bytes <+:
      source.drop offset := by
  unfold portion
  split
  · split
    · exact List.nil_prefix
    · next rest behind =>
      obtain ⟨front, rfl, rfl⟩ := Bytes.behind?_eq_some_iff.mp behind
      split
      · exact List.nil_prefix
      · next count packed =>
        cases taken : rest.front? count with
        | none => exact List.nil_prefix
        | some bytes =>
            obtain ⟨begins, rfl⟩ := Bytes.front?_eq_some_iff.mp taken
            simpa only [Option.map_some, Option.elim_some, Delivery.bytes_ok, List.drop_left]
              using begins
  · simp only [Option.elim_some, Delivery.bytes_ok]
    exact List.take_prefix _ _

private theorem serve_prefix (limit : Option Nat) (isDirectory : Bool) (source : Bytes)
    (offset : Nat) (rooms : List Nat) :
    (serve limit isDirectory source offset rooms).reduceOption.flatMap Delivery.bytes <+:
      source.drop offset := by
  induction rooms generalizing offset with
  | nil => exact List.nil_prefix
  | cons room rest ih =>
      obtain ⟨behind, split⟩ := portion_prefix limit isDirectory source offset room
      unfold serve
      dsimp only
      generalize portion limit isDirectory source offset room = read at split
      have further := ih (offset + distance read)
      rw [← List.drop_drop, ← split, distance, List.drop_left] at further
      rw [← split]
      cases read with
      | none => exact further
      | some delivery =>
          rw [List.reduceOption_cons_of_some, List.flatMap_cons]
          exact (List.prefix_append_right_inj _).mpr further

/-- What is open for reading under a number, the plain file or directory that it leads to, and the
bytes that it is read from. -/
structure Offers (tree : Tree) (fid : UInt32) (file : OpenFile) (node : Node) (source : Bytes) :
    Prop where
  sound : tree.limits.failAfterReads = none
  found : Table.find? fid tree.openFiles = some file
  readable : file.mode.isReadable = true
  there : tree.find? file.path = some node
  holds : node.content = .file source ∨ node.content = .directory ∧ file.listing = source

private theorem Offers.ne_stream (offers : tree.Offers fid file node source) (queue : List Chunk) :
    node.content ≠ .stream queue := by
  intro stream
  cases offers.holds with
  | inl plain => cases plain.symm.trans stream
  | inr directory => cases directory.1.symm.trans stream

private theorem Offers.congr {after : Tree} (offers : tree.Offers fid file node source)
    (limits : after.limits = tree.limits)
    (files : Table.find? fid after.openFiles = Table.find? fid tree.openFiles)
    (nodes : after.find? file.path = tree.find? file.path) : after.Offers fid file node source where
  sound := by rw [limits, offers.sound]
  found := files.trans offers.found
  readable := offers.readable
  there := nodes.trans offers.there
  holds := offers.holds

private theorem Offers.seek (offers : tree.Offers fid file node source) (offset : Nat) :
    (tree.setOffset fid file offset).Offers fid { file with offset := offset } node source where
  sound := offers.sound
  found := (Table.find?_insert ..).trans (if_pos rfl)
  readable := offers.readable
  there := offers.there
  holds := offers.holds

private theorem Offers.read (offers : tree.Offers fid file node source) (room : Nat)
    (wait : Option Duration) :
    let read := portion tree.limits.mostRead node.isDirectory source file.offset room
    (tree.readFrom fid room wait).1 = read ∧
      (tree.readFrom fid room wait).2.Offers fid
        { file with offset := file.offset + distance read } node source := by
  have counted : tree.countRead.Offers fid file node source := offers.congr rfl rfl rfl
  have limits : tree.countRead.limits = tree.limits := rfl
  rw [readFrom_eq_readNode offers.sound offers.found offers.readable offers.there]
  cases offers.holds with
  | inl plain =>
      have kind : node.isDirectory = false := by simp [Node.isDirectory, plain]
      have moved : distance (portion tree.limits.mostRead false source file.offset room) =
          ((source.drop file.offset).take (capped tree.limits.mostRead room)).length := by
        simp only [distance, portion, Bool.false_eq_true, ↓reduceIte, Option.elim_some,
          Delivery.bytes_ok]
      rw [kind]
      dsimp only
      rw [moved]
      simp only [readNode, plain, limits]
      exact ⟨rfl, counted.seek _⟩
  | inr directory =>
      obtain ⟨directory, rfl⟩ := directory
      have kind : node.isDirectory = true := by simp [Node.isDirectory, directory]
      simp only [kind, readNode, directory, portion, limits, ↓reduceIte]
      cases file.listing.behind? file.offset with
      | none => exact ⟨rfl, counted⟩
      | some rest =>
          dsimp only
          cases packRecords rest room tree.limits.mostRead with
          | error refusal => exact ⟨rfl, counted⟩
          | ok count =>
              dsimp only
              cases taken : rest.front? count with
              | none => exact ⟨rfl, counted⟩
              | some bytes =>
                  obtain ⟨-, rfl⟩ := Bytes.front?_eq_some_iff.mp taken
                  have moved : distance (some ⟨bytes, .ok bytes.length⟩) = bytes.length := by
                    simp only [distance, Option.elim_some, Delivery.bytes_ok]
                  rw [Option.map_some, moved]
                  exact ⟨rfl, counted.seek _⟩

/-! ## What leaves a node alone -/

private theorem readFrom_find? (there : tree.find? path = some node)
    (still : ∀ queue, node.content ≠ .stream queue) (fid : UInt32) (room : Nat)
    (wait : Option Duration) : (tree.readFrom fid room wait).2.find? path = tree.find? path := by
  by_cases leads : tree.pathOf? fid = some path
  · obtain ⟨file, found, rfl⟩ := Option.map_eq_some_iff.mp leads
    have reached (tree : Tree) (file : OpenFile) :
        (tree.readNode fid file node room wait).2.nodes = tree.nodes := by
      unfold readNode
      split
      · split
        · rfl
        · split
          · rfl
          · split
            · rfl
            · rfl
      · rfl
      · next queue holds => exact absurd holds (still queue)
    have known : Table.find? fid tree.countRead.openFiles = some file := found
    unfold readFrom
    dsimp only
    split
    · rfl
    · rw [known]
      dsimp only
      split
      · split
        · rfl
        · next other here =>
          cases there.symm.trans here
          exact congrArg (Table.find? file.path) (reached _ file)
      · rfl
  · exact readFrom_find?_of_ne leads room wait

private theorem push_find? (there : tree.find? path = some node)
    (still : ∀ queue, node.content ≠ .stream queue) (text : String) (chunk : Chunk) :
    (tree.push text chunk).2.find? path = tree.find? path := by
  unfold push
  split
  · next other found =>
    split
    · next queue holds =>
      have apart : Path.ofText text ≠ path := by
        rintro rfl
        cases there.symm.trans found
        exact still queue holds
      exact find?_setContent_of_ne tree apart _ _
    · rfl
  · rfl

namespace Change

/-- Does no write of a change get to the node at a path? -/
def Unwritten (path : Path) (tree : Tree) : Change → Prop
  | .request (.writeTo handle data) =>
      tree.pathOf? handle.fid = some path →
        ∀ count, (server.answer (.writeTo handle data) tree).1 ≠ .ok count
  | _ => True

theorem find?_of_spared (there : tree.find? path = some node)
    (still : ∀ queue, node.content ≠ .stream queue) {change : Change}
    (spares : change.Spares path tree) (unwritten : change.Unwritten path tree) :
    (change.apply tree).find? path = tree.find? path := by
  cases change with
  | request request =>
      cases request with
      | openFile text mode => exact openAt_find? tree path _ mode
      | createFile text permissions mode => exact createAt_find? there _ permissions mode
      | readFrom handle buffer wait => exact readFrom_find? there still handle.fid _ wait
      | writeTo handle data =>
          by_cases leads : tree.pathOf? handle.fid = some path
          · cases answered : tree.writeTo handle.fid data with
            | mk reply after =>
                have same : (Change.request (.writeTo handle data)).apply tree = after :=
                  congrArg Prod.snd answered
                cases reply with
                | error refusal =>
                    rw [same, writeTo_refused answered]
                    rfl
                | ok count => exact absurd (congrArg Prod.fst answered) (unwritten leads count)
          · exact writeTo_find?_of_ne leads data
      | removeFile text => exact removeAt_find? spares
      | statFile text =>
          simp only [apply, server]
          split
          · rfl
          · rfl
      | closeFile handle => exact closeFid_find? tree path handle.fid
      | unmount => rfl
  | addDirectory text => exact find?_insert_of_not_places spares _ _
  | addFile text contents => exact find?_insert_of_not_places spares _ _
  | addStream text queue => exact find?_insert_of_not_places spares _ _
  | push text chunk => exact push_find? there still text chunk
  | _ => rfl

/-- A change that does not use an open file, and leaves the node at a path as it is. An open that
gives out the file's number anew does not leave it alone either. -/
structure Apart (fid : UInt32) (path : Path) (tree : Tree) (change : Change) : Prop where
  unnamed : change.fid? ≠ some fid
  unissued : ((change.exchange? tree).bind Exchange.opened?).map (·.fid) ≠ some fid
  spares : change.Spares path tree
  unwritten : change.Unwritten path tree

end Change

theorem Change.Apart.find?_openFiles {change : Change} (apart : change.Apart fid path tree) :
    Table.find? fid (change.apply tree).openFiles = Table.find? fid tree.openFiles := by
  apply (change_deals change tree).spares
  · intro handle named same
    apply apart.unnamed
    cases change with
    | request request =>
        obtain ⟨exchange, asked, names⟩ := Option.bind_eq_some_iff.mp named
        obtain ⟨reply, -, rfl⟩ := Option.map_eq_some_iff.mp asked
        exact congrArg (Option.map (·.fid)) names |>.trans (congrArg some same)
    | _ => cases named
  · intro handle brought same
    apply apart.unissued
    rw [brought, ← same]
    rfl

private theorem Offers.apart (offers : tree.Offers fid file node source) {change : Change}
    (apart : change.Apart fid file.path tree) :
    (change.apply tree).Offers fid file node source := by
  apply offers.congr
  · exact (change_edits change tree).limits
  · exact apart.find?_openFiles
  · exact Change.find?_of_spared offers.there offers.ne_stream apart.spares apart.unwritten

/-! ## Histories -/

/-- The room of a read through an open file, if a change is one. -/
def Change.room? (fid : UInt32) : Change → Option Nat
  | .request (.readFrom handle buffer _) => if handle.fid = fid then some buffer.length else none
  | _ => none

/-- What a read through an open file comes to, if a change is one: a delivery, unless it breaks
off. -/
def Change.result? (fid : UInt32) (tree : Tree) : Change → Option (Option Delivery)
  | .request (.readFrom handle buffer wait) =>
      if handle.fid = fid then some (tree.readFrom handle.fid buffer.length wait).1 else none
  | _ => none

def rooms (fid : UInt32) (changes : List Change) : List Nat := changes.filterMap (Change.room? fid)

/-- What the reads through an open file come to, one after the other. -/
def results (fid : UInt32) : Tree → List Change → List (Option Delivery)
  | _, [] => []
  | tree, change :: rest =>
      (change.result? fid tree).toList ++ results fid (change.apply tree) rest

/-- What the reads through an open file deliver, but for those that break off. -/
def deliveries (fid : UInt32) (tree : Tree) (changes : List Change) : List Delivery :=
  (results fid tree changes).reduceOption

/-- Is an open file only read, and its node left alone, by all changes of a history? -/
def OnlyRead (fid : UInt32) (path : Path) : Tree → List Change → Prop
  | _, [] => True
  | tree, change :: rest =>
      ((change.room? fid).isSome ∨ change.Apart fid path tree) ∧
        OnlyRead fid path (change.apply tree) rest

theorem Change.reads_or_not (fid : UInt32) (change : Change) :
    (∃ handle buffer wait, change = .request (.readFrom handle buffer wait) ∧ handle.fid = fid) ∨
      change.room? fid = none ∧ ∀ tree, change.result? fid tree = none := by
  cases change with
  | request request =>
      cases request with
      | readFrom handle buffer wait =>
          by_cases same : handle.fid = fid
          · exact .inl ⟨handle, buffer, wait, rfl, same⟩
          · right
            constructor
            · exact if_neg same
            · intro tree
              exact if_neg same
      | _ => exact .inr ⟨rfl, fun _ => rfl⟩
  | _ => exact .inr ⟨rfl, fun _ => rfl⟩

theorem Offers.results (offers : tree.Offers fid file node source) {changes : List Change}
    (only : OnlyRead fid file.path tree changes) :
    tree.results fid changes =
      serve tree.limits.mostRead node.isDirectory source file.offset (rooms fid changes) := by
  induction changes generalizing tree file with
  | nil => rfl
  | cons change rest ih =>
      obtain ⟨here, later⟩ := only
      have limits := (change_edits change tree).limits
      cases change.reads_or_not fid with
      | inl reads =>
          obtain ⟨handle, buffer, wait, rfl, rfl⟩ := reads
          obtain ⟨answered, next⟩ := offers.read buffer.length wait
          have room : rooms handle.fid (.request (.readFrom handle buffer wait) :: rest) =
              buffer.length :: rooms handle.fid rest := by
            simp [rooms, Change.room?]
          have come : tree.results handle.fid
                (.request (.readFrom handle buffer wait) :: rest) =
              (tree.readFrom handle.fid buffer.length wait).1 ::
                (tree.readFrom handle.fid buffer.length wait).2.results handle.fid rest := by
            simp only [Tree.results, Change.result?, ↓reduceIte]
            rfl
          replace limits : (tree.readFrom handle.fid buffer.length wait).2.limits = tree.limits :=
            limits
          rw [come, room, serve, ih next later, answered, limits]
      | inr others =>
          obtain ⟨room, result⟩ := others
          have apart : change.Apart fid file.path tree := by
            cases here with
            | inl read =>
                rw [room] at read
                cases read
            | inr apart => exact apart
          have same : rooms fid (change :: rest) = rooms fid rest := by
            simp [rooms, room]
          rw [same, Tree.results, result tree, Option.toList_none, List.nil_append,
            ih (offers.apart apart) later, limits]

/-- What a file that was opened at some time reads from now: the contents of the plain file at its
path, or what the directory there held when it was opened. -/
inductive ReadsFrom (opened tree : Tree) (path : Path) : Bytes → Prop where
  | file {node : Node} {bytes : Bytes} :
      tree.find? path = some node → node.content = .file bytes → ReadsFrom opened tree path bytes
  | directory :
      opened.hasDirectory path = true → tree.hasDirectory path = true →
      ReadsFrom opened tree path (opened.listing path)

/-- Two histories that go on from one tree, and in which the same is asked of a plain file or a
directory that was opened for reading before, in reads with buffers of the same sizes. Whatever else
is done in either of them, as long as the open file is used for these reads only and its node is
neither written nor taken away nor replaced: the reads have the same results, so that one which
breaks off in one history does so in the other, and what they bring is what lies ahead of the file,
from the front and without gaps. -/
theorem deliveries_apart {start opened : Tree} {request : Request} {reply : request.Reply}
    {handle : Handle} (answered : server.answer request start = (reply, opened))
    (brought : Exchange.opened? ⟨request, reply⟩ = some handle)
    (sound : start.limits.failAfterReads = none) {prior : List Change}
    (unissued : handle.fid ∉ issued (opened.exchanges prior)) {file : OpenFile}
    (found : Table.find? handle.fid (opened.after prior).openFiles = some file)
    (readable : file.mode.isReadable = true) {source : Bytes}
    (reads : ReadsFrom opened (opened.after prior) file.path source) {first second : List Change}
    (first_only : OnlyRead handle.fid file.path (opened.after prior) first)
    (second_only : OnlyRead handle.fid file.path (opened.after prior) second)
    (same : rooms handle.fid first = rooms handle.fid second) :
    (opened.after prior).results handle.fid first =
        (opened.after prior).results handle.fid second ∧
      ((opened.after prior).deliveries handle.fid first).flatMap Delivery.bytes <+:
        source.drop file.offset := by
  obtain ⟨put, there, listed⟩ := find?_of_opened answered brought
  obtain ⟨kept, earlier, moved⟩ := after_keeps unissued found
  cases there.symm.trans earlier
  have limits : (opened.after prior).limits = start.limits := by
    have edits := answer_edits start request
    rw [answered] at edits
    exact (opened.after_edits prior).limits.trans edits.limits
  have offers : ∃ node, (opened.after prior).Offers handle.fid file node source := by
    have sound : (opened.after prior).limits.failAfterReads = none := by
      rw [limits]
      exact sound
    cases reads with
    | @file node bytes holds plain => exact ⟨node, sound, found, readable, holds, .inl plain⟩
    | directory before now =>
        obtain ⟨node, holds, directory⟩ := exists_directory now
        have path : file.path = put.path := by rw [moved]
        have listing : file.listing = put.listing := by rw [moved]
        refine ⟨node, sound, found, readable, holds, .inr ⟨directory, ?_⟩⟩
        rw [path] at before ⊢
        rw [listing]
        exact listed before
  obtain ⟨node, offers⟩ := offers
  rw [deliveries, offers.results first_only, offers.results second_only, same]
  exact ⟨rfl, serve_prefix _ _ _ _ _⟩

/-- A file is read twice with nothing in between, or while another open file reads and is closed, a
write through it is refused, a read of what was a file and is a directory breaks off, and the
directory around the file gains and loses an entry. -/
theorem deliveries_apart_of_neighbours :
    let start := (Tree.empty { mostRead := some 3 } 7).addFile "/d/f" [1, 2, 3, 4, 5, 6, 7]
    let opened := (server.answer (.openFile "/d/f" .read) start).2
    let handle : Handle := ⟨1, start.limits.iounit, 0⟩
    let other : Handle := ⟨2, start.limits.iounit, 0⟩
    let third : Handle := ⟨3, start.limits.iounit, 0⟩
    let prior : List Change :=
      [.request (.openFile "d//f" .readWrite), .request (.writeTo other [8]),
        .request (.readFrom handle [0] none), .request (.createFile "/e" 0 .readWrite),
        .request (.writeTo third [4])]
    let first : List Change :=
      [.request (.readFrom handle [0, 0] none), .request (.readFrom handle [0, 0, 0, 0] none)]
    let second : List Change :=
      [.addFile "/d/g" [9], .request (.readFrom other [0, 0, 0] none),
        .request (.readFrom handle [5, 5] (some (.seconds 1))), .request (.closeFile other),
        .request (.writeTo other [6]), .request (.removeFile "/d/g"), .addDirectory "/e",
        .request (.readFrom third [0] none), .request (.readFrom handle [0, 0, 0, 0] none)]
    Exchange.opened? ⟨.openFile "/d/f" .read, (server.answer (.openFile "/d/f" .read) start).1⟩ =
        some handle ∧
      handle.fid ∉ issued (opened.exchanges prior) ∧
      OnlyRead handle.fid (.ofText "/d/f") (opened.after prior) first ∧
      OnlyRead handle.fid (.ofText "/d/f") (opened.after prior) second ∧
      ((opened.after prior).results third.fid second).map Option.isSome = [false] ∧
      (opened.after prior).results handle.fid first =
        (opened.after prior).results handle.fid second ∧
      ((opened.after prior).deliveries handle.fid first).flatMap Delivery.bytes <+:
        [2, 3, 4, 5, 6, 7] := by
  intro start opened handle other third prior first second
  have brought : Exchange.opened?
      ⟨.openFile "/d/f" .read, (server.answer (.openFile "/d/f" .read) start).1⟩ = some handle := by
    decide +kernel
  have unissued : handle.fid ∉ issued (opened.exchanges prior) := by decide +kernel
  have found : Table.find? handle.fid (opened.after prior).openFiles =
      some ⟨.ofText "/d/f", .read, 1, []⟩ := by decide +kernel
  have there : (opened.after prior).find? (.ofText "/d/f") =
      some ⟨3, 0o644, 7, .file [8, 2, 3, 4, 5, 6, 7]⟩ := by decide +kernel
  have first_only : OnlyRead handle.fid (.ofText "/d/f") (opened.after prior) first :=
    ⟨.inl rfl, .inl rfl, trivial⟩
  have second_only : OnlyRead handle.fid (.ofText "/d/f") (opened.after prior) second := by
    refine ⟨.inr ⟨?_, ?_, ?added, trivial⟩, .inr ⟨?_, ?_, trivial, trivial⟩, .inl rfl,
      .inr ⟨?_, ?_, trivial, trivial⟩, .inr ⟨?_, ?_, trivial, ?refused⟩,
      .inr ⟨?_, ?_, ?removed, trivial⟩, .inr ⟨?_, ?_, ?replaced, trivial⟩,
      .inr ⟨?_, ?_, trivial, trivial⟩, .inl rfl, trivial⟩
    case added =>
      change places _ _ _ = false
      decide +kernel
    case replaced =>
      change places _ _ _ = false
      decide +kernel
    case refused =>
      intro leads
      exact absurd leads (by decide +kernel)
    case removed =>
      intro same
      exact absurd same (by decide +kernel)
    all_goals decide +kernel
  obtain ⟨same, pieces⟩ := deliveries_apart rfl brought rfl unissued found rfl (.file there rfl)
    first_only second_only rfl
  exact ⟨brought, unissued, first_only, second_only, by decide +kernel, same, pieces⟩

end Tree

end RemoteTree
