import RemoteTree.Proofs.Client.Files
import RemoteTree.Proofs.Client.Following
import RemoteTree.Proofs.Client.Loops
import RemoteTree.Proofs.Text.Pieces

/-!
# Lines of a plain file

A reader of a plain file yields the lines of what each read brings of it until there is none. Put
together they are the text of the file without its newlines, but for the characters that two reads
cut in two.
-/

set_option autoImplicit false

namespace RemoteTree

namespace LineReader

open Chunk (cut cut_of_ne_nil cut_nil)

/-! ## Lines and their characters -/

/-- The lines of some bytes hold the characters that are read from the bytes, but for newlines. -/
theorem flatMap_linesIn (bytes : Bytes) :
    (linesIn bytes).flatMap String.toList = Utf8.withoutNewlines (Utf8.lossy bytes) := by
  induction size : bytes.length using Nat.strong_induction_on generalizing bytes with
  | _ size ih =>
    subst size
    by_cases empty : bytes = []
    · subst empty
      simp [Utf8.withoutNewlines]
    · have whole := List.takeWhile_append_dropWhile (p := (· != newline)) (l := bytes)
      have inside : newline ∉ bytes.takeWhile (· != newline) := fun member => by
        simpa using List.mem_takeWhile_imp member
      have stops := List.head?_dropWhile_not (· != newline) bytes
      rw [linesIn_of_ne_nil empty, List.flatMap_cons, Utf8.toList_decodeLossy]
      generalize bytes.takeWhile (· != newline) = piece at whole inside ⊢
      have pieceStays : Utf8.withoutNewlines (Utf8.lossy piece) = Utf8.lossy piece := by
        have none := Utf8.newline_not_mem_lossy inside
        rw [Utf8.withoutNewlines, List.filter_eq_self]
        intro character member
        simpa using ne_of_mem_of_not_mem member none
      cases rest : bytes.dropWhile (· != newline) with
      | nil =>
          rw [rest, List.append_nil] at whole
          subst whole
          rw [List.drop_of_length_le (Nat.le_succ _), linesIn_nil, List.flatMap_nil,
            List.append_nil, pieceStays]
      | cons stop behind =>
          rw [rest] at whole stops
          obtain rfl : stop = newline := by simpa using stops
          have shorter : behind.length < bytes.length := by
            rw [← whole, List.length_append, List.length_cons]
            omega
          rw [← whole, ← List.drop_drop, List.drop_left, List.drop_one, List.tail_cons,
            ih _ shorter behind rfl, Utf8.lossy_append_ascii piece (by decide) behind,
            Utf8.withoutNewlines_append, Utf8.withoutNewlines_cons, pieceStays]
          rfl

private theorem flatMap_linesIn_cut {room : Nat} (some : 0 < room) (characters : List Char) :
    ((cut room (Utf8.encodeChars characters)).flatMap linesIn).flatMap String.toList =
      Utf8.withoutNewlines (Utf8.pieced room 0 characters) := by
  rw [← Utf8.readCut_encodeChars some, ← Utf8.flatMap_cut some]
  induction cut room (Utf8.encodeChars characters) with
  | nil => rfl
  | cons window rest ih =>
      rw [List.flatMap_cons, List.flatMap_append, ih, flatMap_linesIn, List.flatMap_cons,
        Utf8.withoutNewlines_append]

/-! ## Steps -/

/-- A reader on the way through a plain file, and the lines that it has yet to yield. -/
structure OnFile (reader : LineReader) (tree : Tree) (bytes : Bytes) (lines : List String) :
    Prop where
  live : reader.finished = false
  room : 0 < reader.buffer.length
  reliable : tree.limits.failAfterReads = none
  moving : tree.limits.mostRead ≠ some 0
  reads : ∃ opened node, tree.Reads reader.handle.fid opened node ∧ node.content = .file bytes ∧
    lines = linesIn reader.pending ++
      (cut (Tree.capped tree.limits.mostRead reader.buffer.length)
        (bytes.drop opened.offset)).flatMap linesIn

/-- The lines that a file has left for a reader. After the end there are none. -/
def LeftOf (bytes : Bytes) (reader : LineReader) (tree : Tree) (lines : List String) : Prop :=
  reader.OnFile tree bytes lines ∨ reader.finished = true ∧ lines = []

variable {reader : LineReader} {tree : Tree} {bytes : Bytes} {lines : List String}

private theorem OnFile.next_pending (way : reader.OnFile tree bytes lines)
    (pending : reader.pending ≠ []) : ∃ text rest later, lines = text :: rest ∧
      reader.next.run Tree.server tree = ((some text, later), tree) ∧
      later.OnFile tree bytes rest := by
  obtain ⟨opened, node, reads, holds, rfl⟩ := way.reads
  obtain ⟨consumed, taken⟩ := reader.takeLine_eq
  rw [linesIn_of_ne_nil pending, next, advance_of_pending reader way.live pending, taken]
  exact ⟨_, _, _, rfl, rfl, way.live, way.room, way.reliable, way.moving, opened, node, reads, holds,
    rfl⟩

private theorem OnFile.next_empty (way : reader.OnFile tree bytes lines)
    (empty : reader.pending = []) :
    ∃ later after, reader.next.run Tree.server tree = ((lines.head?, later), after) ∧
      LeftOf bytes later after lines.tail := by
  obtain ⟨opened, node, reads, holds, rfl⟩ := way.reads
  obtain ⟨after, answered, limits, still⟩ :=
    reads.readFrom_file way.reliable holds reader.buffer.length
  have positive := Tree.capped_pos way.moving way.room
  have within := Tree.capped_le tree.limits.mostRead reader.buffer.length
  generalize roomIs : Tree.capped tree.limits.mostRead reader.buffer.length = room
    at answered still positive within ⊢
  have short : ((bytes.drop opened.offset).take room).length ≤ reader.buffer.length :=
    Nat.le_trans (List.length_take_le ..) within
  have ahead : bytes.drop (opened.offset + ((bytes.drop opened.offset).take room).length) =
      (bytes.drop opened.offset).drop room := by
    rw [← List.drop_drop, Bytes.drop_length_take]
  generalize takenIs : (bytes.drop opened.offset).take room = taken at answered still short ahead
  have brings : Delivery.outcome ⟨taken, .ok taken.length⟩ reader.buffer = .ok taken :=
    congrArg Except.ok (Bytes.take_overlay short)
  obtain ⟨arrives, front⟩ := arrival?_of_ok (Tree.fits_ok short) brings
  rw [empty, linesIn_nil, List.nil_append, next, advance_of_empty reader way.live empty]
  simp only [Deadline.waits, awaitWith, await, Client.andThen, Client.run,
    Tree.answer_readFrom answered, arrives]
  by_cases nothing : bytes.drop opened.offset = []
  · rw [nothing, List.take_nil] at takenIs
    subst takenIs
    rw [nothing, cut_nil]
    exact ⟨_, _, rfl, .inr ⟨rfl, rfl⟩⟩
  · have some : taken ≠ [] := by
      rw [← takenIs, ne_eq, List.take_eq_nil_iff, not_or]
      exact ⟨Nat.ne_of_gt positive, nothing⟩
    obtain ⟨consumed, line⟩ := takeLine_eq
      { reader with
        buffer := Bytes.overlay taken reader.buffer
        consumed := 0
        pending := (Bytes.overlay taken reader.buffer).take taken.length }
    rw [front] at line
    simp only [if_neg some, arrive, front, line, Client.run]
    rw [cut_of_ne_nil positive nothing, takenIs, List.flatMap_cons, linesIn_of_ne_nil some]
    refine ⟨_, _, rfl, .inl ⟨way.live, ?_, ?_, ?_, _, node, still, holds, ?_⟩⟩
    · rw [Bytes.length_overlay]
      exact way.room
    · rw [limits]
      exact way.reliable
    · rw [limits]
      exact way.moving
    · rw [limits, Bytes.length_overlay, roomIs, ahead]
      rfl

private theorem LeftOf.next (left : LeftOf bytes reader tree lines) :
    ∃ later after, reader.next.run Tree.server tree = ((lines.head?, later), after) ∧
      LeftOf bytes later after lines.tail := by
  rcases left with way | ⟨finished, rfl⟩
  · by_cases empty : reader.pending = []
    · exact way.next_empty empty
    · obtain ⟨text, rest, later, rfl, ran, following⟩ := way.next_pending empty
      exact ⟨later, tree, ran, .inl following⟩
  · rw [LineReader.next, advance_of_finished reader finished]
    exact ⟨_, _, rfl, .inr ⟨finished, rfl⟩⟩

/-- Taking a number of lines is the front of taking them until there is none. -/
theorem take_of_loops {State : Type} {server : Server State}
    {stage result : List String × LineReader}
    {state after : State} {log : List Exchange}
    (loops : Client.Loops server (Client.takeOnce LineReader.next) stage state log result after) :
    ∃ rest, result.1 = stage.1 ++ rest ∧ ∀ count,
      ((take.loop count stage.1.reverse stage.2).run server state).1.1 =
        stage.1 ++ rest.take count := by
  induction loops with
  | @ended stage state after result ran =>
      cases step : stage.2.next.run server state with
      | mk stepped left =>
        obtain ⟨item, later⟩ := stepped
        cases item with
        | some item => cases (Client.run_takeOnce_some step stage.1).symm.trans ran
        | none =>
            cases (Client.run_takeOnce_none step stage.1).symm.trans ran
            refine ⟨[], (List.append_nil _).symm, fun count => ?_⟩
            cases count with
            | zero => simp [take.loop, Client.run]
            | succ count => simp [take.loop, Client.run_andThen, step, Client.run]
  | @again stage next state middle after log result ran _ ih =>
      cases step : stage.2.next.run server state with
      | mk stepped left =>
        obtain ⟨item, later⟩ := stepped
        cases item with
        | none => cases (Client.run_takeOnce_none step stage.1).symm.trans ran
        | some item =>
            cases (Client.run_takeOnce_some step stage.1).symm.trans ran
            obtain ⟨rest, split, others⟩ := ih
            rw [List.append_assoc] at split
            refine ⟨item :: rest, split, fun count => ?_⟩
            cases count with
            | zero => simp [take.loop, Client.run]
            | succ count =>
                have later := others count
                rw [List.reverse_append, List.append_assoc] at later
                simp only [take.loop, Client.run_andThen, step, List.take_succ_cons]
                exact later

end LineReader

/-! ## Whole files -/

/-- The lines of a file that holds a text, taken until there is none. Together they are the text
without its newlines, except that a character that is cut at a multiple of what one read can bring
has become replacement characters; they are all of it exactly if no character is cut. -/
theorem Connection.openLines_plain (connection : Connection) {tree : Tree} {path text : String}
    {node : Node} (found : tree.find? (.ofText path) = some node)
    (holds : node.content = .file (Utf8.encode text))
    (reliable : tree.limits.failAfterReads = none) (moving : tree.limits.mostRead ≠ some 0)
    (fits : Client.fits connection.bufferLimit tree.nextHandle.transferSize = true) :
    let room := Tree.capped tree.limits.mostRead tree.nextHandle.transferSize
    ∃ (reader : LineReader) (opened : Tree) (lines : List String),
      (connection.openLines path).run Tree.server tree = (.ok reader, opened) ∧
      (∃ log last after, Client.Loops Tree.server (Client.takeOnce LineReader.next) ([], reader)
        opened log (lines, last) after) ∧
      (∀ count, ((reader.take count).run Tree.server opened).1.1 = lines.take count) ∧
      lines.flatMap String.toList = Utf8.withoutNewlines (Utf8.pieced room 0 text.toList) ∧
      (lines.flatMap String.toList = Utf8.withoutNewlines text.toList ↔
        Utf8.Uncut room 0 text.toList) := by
  intro room
  have plain : node.isDirectory = false := by rw [Node.isDirectory, holds]
  have issued := Tree.issue_plain found plain .read
  have ran := connection.run_openReader found LineReader.start (by rw [issued]; exact fits)
  rw [issued] at ran
  have size : (LineReader.start tree.nextHandle path).buffer.length =
      tree.nextHandle.transferSize := List.length_replicate ..
  have positive : 0 < room := Tree.capped_pos moving tree.nextHandle.transferSize_pos
  have left : LineReader.LeftOf (Utf8.encode text) (LineReader.start tree.nextHandle path)
      (tree.opening (.ofText path) .read)
      ((Chunk.cut room (Utf8.encode text)).flatMap LineReader.linesIn) := by
    refine .inl ⟨rfl, ?_, reliable, moving, _, node,
      ⟨tree.find?_opening (.ofText path) .read, rfl, found, plain⟩, holds, ?_⟩
    · rw [size]
      exact Handle.transferSize_pos _
    · rw [size]
      simp [LineReader.start, Tree.opening, room]
  obtain ⟨log, last, after, loops⟩ :=
    Client.takes_of_left (fun _ _ _ left => LineReader.LeftOf.next left) left []
  have together := LineReader.flatMap_linesIn_cut positive text.toList
  refine ⟨_, _, _, ran, ⟨log, last, after, loops⟩, fun count => ?_, together, ?_⟩
  · obtain ⟨rest, split, taken⟩ := LineReader.take_of_loops loops
    simp only [List.nil_append, List.reverse_nil] at split taken
    rw [List.nil_append, split]
    exact taken count
  · rw [← Utf8.withoutNewlines_pieced_iff, ← together]
    rfl

/-- Two lines with characters of two bytes, of which each read brings three bytes. -/
theorem Connection.openLines_plain_of_uncut_accents :
    let tree := (Tree.empty { iounit := 5, mostRead := some 3 } 7).addFile "/f"
      (Utf8.encode "né\né")
    let connection : Connection := ⟨"mem!test", none⟩
    ∃ node, tree.find? (.ofText "/f") = some node ∧ node.content = .file (Utf8.encode "né\né") ∧
      tree.limits.failAfterReads = none ∧ tree.limits.mostRead ≠ some 0 ∧
      Client.fits connection.bufferLimit tree.nextHandle.transferSize = true ∧
      ∃ (reader : LineReader) (opened : Tree) (lines : List String),
        (connection.openLines "/f").run Tree.server tree = (.ok reader, opened) ∧
        (∀ count, ((reader.take count).run Tree.server opened).1.1 = lines.take count) ∧
        lines.flatMap String.toList = "néé".toList := by
  intro tree connection
  have found : tree.find? (.ofText "/f") =
      some ⟨2, 0o644, 7, .file (Utf8.encode "né\né")⟩ := by decide +kernel
  obtain ⟨reader, opened, lines, ran, -, taken, together, -⟩ :=
    connection.openLines_plain found rfl rfl (by decide) rfl
  have whole : Utf8.withoutNewlines (Utf8.pieced 3 0 "né\né".toList) = "néé".toList := by
    decide +kernel
  exact ⟨_, found, rfl, rfl, by decide, rfl, reader, opened, lines, ran, taken,
    together.trans whole⟩

/-- A character of two bytes that arrives one byte at a time is lost. -/
theorem Connection.openLines_loses_cut_character :
    let tree := (Tree.empty { iounit := 1 } 7).addFile "/f" (Utf8.encode "é")
    let connection : Connection := ⟨"mem!test", none⟩
    tree.limits.failAfterReads = none ∧ tree.limits.mostRead ≠ some 0 ∧
      ∃ (reader : LineReader) (opened : Tree),
        (connection.openLines "/f").run Tree.server tree = (.ok reader, opened) ∧
        ((reader.take 3).run Tree.server opened).1.1 = ["\uFFFD", "\uFFFD"] ∧
        ["\uFFFD", "\uFFFD"].flatMap String.toList ≠ Utf8.withoutNewlines "é".toList := by
  intro tree connection
  have ran : ((connection.openLines "/f").run Tree.server tree).1 =
      .ok (LineReader.start ⟨1, 1, 0⟩ "/f") := by decide +kernel
  refine ⟨rfl, by decide, _, _, Prod.ext ran rfl, ?_, by decide⟩
  decide +kernel

end RemoteTree
