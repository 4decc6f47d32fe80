import RemoteTree.Proofs.Tree.Apart
import RemoteTree.Proofs.Tree.Listing

/-!
# Reads through an open directory

An open directory delivers what was listed when it was opened, in whole records and one after the
other, whatever the sizes of the reads. Each read takes as many records as it may, and one that has
no room for the next record takes nothing.
-/

set_option autoImplicit false

namespace RemoteTree

namespace Tree

open Bytes (Framed sizeOfFirst)

variable {tree : Tree} {fid : UInt32} {file : OpenFile}
  {records read ahead now later : List Bytes}
  {room : Nat} {limit : Option Nat}

/-! ## Packing -/

private theorem packRecords_eq_zero (framed : ∀ record ∈ records, Framed record)
    (packed : packRecords records.flatten room limit = .ok 0) : records = [] := by
  cases records with
  | nil => rfl
  | cons record rest =>
    obtain ⟨first, others⟩ := List.forall_mem_cons.mp framed
    obtain ⟨fuel, -, whole⟩ := packRecords_append first room limit rest.flatten
    have more := le_countRecords room limit fuel record.length rest.flatten
    have some := first.length_pos
    rw [List.flatten_cons, whole] at packed
    split at packed
    · cases packed
    · injection packed with none
      omega

private theorem packRecords_eq_error_iff (framed : ∀ record ∈ records, Framed record)
    (refusal : Refusal) : packRecords records.flatten room limit = .error refusal ↔
      refusal = .roomTooSmall ∧
        ∃ record rest, records = record :: rest ∧ room < record.length := by
  constructor
  · intro refused
    refine ⟨packRecords_refused refused, ?_⟩
    cases records with
    | nil => cases refused
    | cons record rest =>
      refine ⟨record, rest, rfl, ?_⟩
      by_contra fits
      obtain ⟨count, -, packed⟩ := packRecords_greatest framed (Nat.le_of_not_lt fits) limit
      rw [packed] at refused
      cases refused
  · rintro ⟨rfl, record, rest, rfl, short⟩
    exact packRecords_refuses (framed record List.mem_cons_self) short limit rest.flatten

private theorem packRecords_eq_ok_iff (framed : ∀ record ∈ records, Framed record)
    (some : records ≠ []) (size : Nat) :
    packRecords records.flatten room limit = .ok size ↔
      ∃ count, IsGreatest {count | Admissible records room limit count} count ∧
        size = sizeOfFirst records count := by
  obtain ⟨record, rest, rfl⟩ := List.exists_cons_of_ne_nil some
  by_cases fits : record.length ≤ room
  · obtain ⟨count, greatest, packed⟩ := packRecords_greatest framed fits limit
    rw [packed]
    constructor
    · intro same
      cases same
      exact ⟨count, greatest, rfl⟩
    · rintro ⟨other, alike, rfl⟩
      rw [greatest.unique alike]
  · constructor
    · intro packed
      have short := packRecords_refuses (framed record List.mem_cons_self)
        (Nat.lt_of_not_le fits) limit rest.flatten
      cases packed.symm.trans short
    · rintro ⟨count, ⟨may, -⟩, rfl⟩
      obtain ⟨count, rfl⟩ := Nat.exists_eq_add_of_le' may.some
      exact absurd (admissible_succ_iff.mp may).1 fits

/-- What a read packs is some of the records at the front. -/
theorem exists_front_of_packRecords (framed : ∀ record ∈ records, Framed record) {size : Nat}
    (packed : packRecords records.flatten room limit = .ok size) :
    ∃ now later, records = now ++ later ∧ size = now.flatten.length := by
  by_cases none : records = []
  · subst none
    cases packed
    exact ⟨[], [], rfl, rfl⟩
  · obtain ⟨count, -, rfl⟩ := (packRecords_eq_ok_iff framed none size).mp packed
    exact ⟨records.take count, records.drop count, (List.take_append_drop count records).symm, rfl⟩

/-- What a read delivers of the records that are ahead. -/
def packedRead (ahead : Bytes) (room : Nat) (limit : Option Nat) : Delivery :=
  match packRecords ahead room limit with
  | .error refusal => refusedRead refusal
  | .ok count => ⟨ahead.take count, .ok count⟩

/-! ## One read after the other -/

/-- A directory that is open, between two reads: of what it listed some records have been read, and
the others are ahead. -/
structure Between (tree : Tree) (fid : UInt32) (file : OpenFile) (read ahead : List Bytes) :
    Prop where
  found : Table.find? fid tree.openFiles = some { file with offset := read.flatten.length }
  directory : tree.hasDirectory file.path = true
  listing : file.listing = (read ++ ahead).flatten

namespace Between

private theorem counted (between : tree.Between fid file read ahead) :
    tree.countRead.Between fid file read ahead where
  found := between.found
  directory := between.directory
  listing := between.listing

private theorem behind?_listing (between : tree.Between fid file read ahead) :
    file.listing.behind? read.flatten.length = some ahead.flatten := by
  rw [between.listing, List.flatten_append]
  exact Bytes.behind?_eq_some_iff.mpr ⟨_, rfl, rfl⟩

/-- Of whole records a read takes a part that is there, so it does not break off. -/
theorem readFrom_eq (between : tree.Between fid file read ahead)
    (framed : ∀ record ∈ ahead, Framed record) (room : Nat) (wait : Option Duration) :
    tree.readFrom fid room wait =
      if exceeds tree.limits.failAfterReads (tree.ledger.reads + 1) then
        (some (refusedRead .faulty), tree.countRead)
      else if file.mode.isReadable then
        match packRecords ahead.flatten room tree.limits.mostRead with
        | .error refusal => (some (refusedRead refusal), tree.countRead)
        | .ok count =>
          (some ⟨ahead.flatten.take count, .ok count⟩,
            tree.countRead.setOffset fid { file with offset := read.flatten.length }
              (read.flatten.length + count))
      else (some (refusedRead .notForReading), tree.countRead) := by
  obtain ⟨node, there, content⟩ := exists_directory between.directory
  have found := between.counted.found
  replace there : tree.countRead.find? file.path = some node := there
  have limits : tree.countRead.limits = tree.limits := rfl
  have node_eq : tree.countRead.readNode fid { file with offset := read.flatten.length } node room
      wait = match packRecords ahead.flatten room tree.limits.mostRead with
        | .error refusal => (some (refusedRead refusal), tree.countRead)
        | .ok count =>
          (some ⟨ahead.flatten.take count, .ok count⟩,
            tree.countRead.setOffset fid { file with offset := read.flatten.length }
              (read.flatten.length + count)) := by
    simp only [readNode, content, between.behind?_listing, limits]
    cases packed : packRecords ahead.flatten room tree.limits.mostRead with
    | error refusal => rfl
    | ok count =>
      obtain ⟨now, later, rfl, rfl⟩ := exists_front_of_packRecords framed packed
      simp only [List.flatten_append, Bytes.front?_append, List.take_left]
  simp only [readFrom, found, there, node_eq]
  rfl

/-- Without a fault a read delivers what packing the records ahead comes to. -/
theorem readFrom_delivers (between : tree.Between fid file read ahead)
    (framed : ∀ record ∈ ahead, Framed record)
    (sound : exceeds tree.limits.failAfterReads (tree.ledger.reads + 1) = false)
    (readable : file.mode.isReadable = true) (room : Nat) (wait : Option Duration) :
    (tree.readFrom fid room wait).1 =
      some (packedRead ahead.flatten room tree.limits.mostRead) := by
  rw [between.readFrom_eq framed, sound, readable, packedRead]
  simp only [Bool.false_eq_true, ↓reduceIte]
  split <;> rfl

private theorem seek (between : tree.Between fid file read (now ++ later)) :
    (tree.setOffset fid { file with offset := read.flatten.length }
      (read.flatten.length + now.flatten.length)).Between fid file (read ++ now) later where
  found := by
    rw [List.flatten_append, List.length_append]
    exact (Table.find?_insert ..).trans (if_pos rfl)
  directory := between.directory
  listing := by rw [between.listing, List.append_assoc]

/-- A read brings some of the records that are ahead, or it brings nothing. -/
theorem step (between : tree.Between fid file read ahead)
    (framed : ∀ record ∈ ahead, Framed record) (room : Nat) (wait : Option Duration) :
    ∃ now later delivery after, ahead = now ++ later ∧
      tree.readFrom fid room wait = (some delivery, after) ∧ delivery.bytes = now.flatten ∧
      after.Between fid file (read ++ now) later := by
  have nothing (refusal : Refusal) :
      ∃ now later delivery after, ahead = now ++ later ∧
        (some (refusedRead refusal), tree.countRead) = (some delivery, after) ∧
        delivery.bytes = now.flatten ∧ after.Between fid file (read ++ now) later := by
    refine ⟨[], ahead, _, _, rfl, rfl, rfl, ?_⟩
    rw [List.append_nil]
    exact between.counted
  rw [between.readFrom_eq framed]
  split
  · exact nothing .faulty
  · split
    · cases packed : packRecords ahead.flatten room tree.limits.mostRead with
      | error refusal => exact nothing refusal
      | ok count =>
        obtain ⟨now, later, rfl, rfl⟩ := exists_front_of_packRecords framed packed
        refine ⟨now, later, _, _, rfl, rfl, ?_, between.counted.seek⟩
        rw [List.flatten_append, List.take_left, Delivery.bytes_ok]
    · exact nothing .notForReading

private theorem apart (between : tree.Between fid file read ahead) {change : Change}
    (apart : change.Apart fid file.path tree) :
    (change.apply tree).Between fid file read ahead := by
  obtain ⟨node, there, content⟩ := exists_directory between.directory
  have still : (change.apply tree).find? file.path = tree.find? file.path := by
    apply Change.find?_of_spared there _ apart.spares apart.unwritten
    intro queue stream
    cases content.symm.trans stream
  refine ⟨apart.find?_openFiles.trans between.found, ?_, between.listing⟩
  rw [hasDirectory, still]
  exact between.directory

/-- In a history that uses an open directory only to read it, and leaves it where it is, the reads
bring the records that are ahead one after the other. -/
theorem after (between : tree.Between fid file read ahead)
    (framed : ∀ record ∈ ahead, Framed record) {changes : List Change}
    (only : OnlyRead fid file.path tree changes) :
    ∃ now later, ahead = now ++ later ∧
      (tree.deliveries fid changes).flatMap Delivery.bytes = now.flatten ∧
      (tree.after changes).Between fid file (read ++ now) later := by
  induction changes generalizing tree read ahead with
  | nil =>
    refine ⟨[], ahead, rfl, rfl, ?_⟩
    rw [List.append_nil]
    exact between
  | cons change rest ih =>
    obtain ⟨here, only⟩ := only
    -- A read of the directory takes some records. Any other change has to leave it alone.
    have step : ∃ now later, ahead = now ++ later ∧
        (change.result? fid tree).toList.reduceOption.flatMap Delivery.bytes = now.flatten ∧
        (change.apply tree).Between fid file (read ++ now) later := by
      rcases change.reads_or_not fid with ⟨handle, buffer, wait, rfl, rfl⟩ | ⟨room, result⟩
      · obtain ⟨now, later, delivery, after, split, read, bytes, next⟩ :=
          between.step framed buffer.length wait
        have left : (Change.request (.readFrom handle buffer wait)).apply tree = after :=
          congrArg Prod.snd read
        refine ⟨now, later, split, ?_, left ▸ next⟩
        simp only [Change.result?, ↓reduceIte, read, Option.toList_some,
          List.reduceOption_singleton, List.flatMap_singleton]
        exact bytes
      · rcases here with reads | apart
        · rw [room] at reads
          cases reads
        · refine ⟨[], ahead, rfl, ?_, ?_⟩
          · rw [result tree]
            rfl
          · rw [List.append_nil]
            exact between.apart apart
    obtain ⟨first, later, rfl, bytes, next⟩ := step
    obtain ⟨now, later, rfl, more, last⟩ :=
      ih next (fun record member => framed record (List.mem_append_right first member)) only
    refine ⟨first ++ now, later, (List.append_assoc ..).symm, ?_, ?_⟩
    · rw [deliveries, results, List.reduceOption_append, List.flatMap_append, bytes, ← deliveries,
        more, List.flatten_append]
    · rw [← List.append_assoc]
      exact last

/-- A directory that has just been opened is at its front. -/
theorem start {opened : Tree} {request : Request} {reply : request.Reply} {handle : Handle}
    (answered : server.answer request tree = (reply, opened))
    (brought : Exchange.opened? ⟨request, reply⟩ = some handle)
    (found : Table.find? handle.fid opened.openFiles = some file)
    (directory : opened.hasDirectory file.path = true)
    (lists : opened.listing file.path = records.flatten) :
    opened.Between handle.fid file [] records := by
  obtain ⟨made, path, mode, issued⟩ := exists_issue_of_opened answered brought
  cases issued
  cases found.symm.trans ((Table.find?_insert ..).trans (if_pos rfl))
  exact ⟨found, directory, (if_pos directory).trans lists⟩

end Between

/-- One read of a listing of whole records takes as many of them as it may: at least one, no more
than go into its buffer, and from the second on no more than its limit allows. It takes nothing only
where nothing is listed, and is refused exactly if it has no room for the first record. So in a
history that uses an open directory only to read it, and leaves it where it is, the file is always
between two records of the listing, and all that was delivered is the records in front of it. -/
theorem listing_read_in_records (framed : ∀ record ∈ records, Framed record) :
    (∀ room limit,
      (packRecords records.flatten room limit = .ok 0 ↔ records.flatten = []) ∧
      (∀ refusal, packRecords records.flatten room limit = .error refusal ↔
        refusal = .roomTooSmall ∧
          ∃ record rest, records = record :: rest ∧ room < record.length) ∧
      (records ≠ [] → ∀ size, packRecords records.flatten room limit = .ok size ↔
        ∃ count, IsGreatest {count | Admissible records room limit count} count ∧
          size = sizeOfFirst records count)) ∧
    ∀ {start opened : Tree} {request : Request} {reply : request.Reply} {handle : Handle}
      {file : OpenFile} {changes : List Change},
      server.answer request start = (reply, opened) →
      Exchange.opened? ⟨request, reply⟩ = some handle →
      Table.find? handle.fid opened.openFiles = some file →
      opened.hasDirectory file.path = true → opened.listing file.path = records.flatten →
      OnlyRead handle.fid file.path opened changes →
      ∃ read ahead, records = read ++ ahead ∧
        Table.find? handle.fid (opened.after changes).openFiles =
          some { file with offset := read.flatten.length } ∧
        (opened.deliveries handle.fid changes).flatMap Delivery.bytes = read.flatten ∧
        ∀ room wait, file.mode.isReadable = true →
          exceeds start.limits.failAfterReads ((opened.after changes).ledger.reads + 1) = false →
          ((opened.after changes).readFrom handle.fid room wait).1 =
            some (packedRead ahead.flatten room start.limits.mostRead) := by
  refine ⟨fun room limit => ⟨?_, ?_, ?_⟩, ?_⟩
  · constructor
    · intro packed
      rw [packRecords_eq_zero framed packed, List.flatten_nil]
    · intro nothing
      rw [nothing, packRecords_nil]
  · exact packRecords_eq_error_iff framed
  · intro some
    exact packRecords_eq_ok_iff framed some
  · intro start opened request reply handle file changes answered brought found directory lists only
    have limits : (opened.after changes).limits = start.limits := by
      have edits := answer_edits start request
      rw [answered] at edits
      exact (opened.after_edits changes).limits.trans edits.limits
    obtain ⟨read, ahead, split, bytes, between⟩ :=
      (Between.start answered brought found directory lists).after framed only
    refine ⟨read, ahead, split, between.found, bytes, ?_⟩
    intro room wait readable sound
    rw [← limits] at sound ⊢
    have framed : ∀ record ∈ ahead, Framed record := fun record member =>
      framed record (split ▸ List.mem_append_right read member)
    exact between.readFrom_delivers framed sound readable room wait

/-- Two records fill a buffer that is as large as the limit. Others have no room for the first or
the third. Something was added to the directory in the meantime, and somebody else opened it. -/
theorem listing_read_in_records_of_full_buffer :
    let start := (((Tree.empty { mostRead := some 125 } 7).addFile "/d/a" []).addFile "/d/bb"
      []).addFile "/d/ccc" [1]
    let opened := (server.answer (.openFile "/d" .read) start).2
    let records := (start.childStats (.ofText "/d")).map Stat.encode
    let handle : Handle := ⟨1, start.limits.iounit, directoryKind⟩
    let other : Handle := ⟨2, start.limits.iounit, directoryKind⟩
    let file : OpenFile := ⟨.ofText "/d", .read, 0, start.listing (.ofText "/d")⟩
    let changes : List Change :=
      [.addFile "/d/e" [], .request (.openFile "/d/." .read), .request (.closeFile other),
        .request (.readFrom handle (Bytes.zeros 61) none),
        .request (.readFrom handle (Bytes.zeros 125) none),
        .request (.readFrom handle (Bytes.zeros 63) (some (.seconds 1)))]
    (∀ record ∈ records, Framed record) ∧
      (∃ count, IsGreatest {count | Admissible records 125 (some 125) count} count ∧
        125 = sizeOfFirst records count) ∧
      opened.hasDirectory file.path = true ∧ opened.listing file.path = records.flatten ∧
      OnlyRead handle.fid file.path opened changes ∧
      ∃ read ahead, records = read ++ ahead ∧
        Table.find? handle.fid (opened.after changes).openFiles =
          some { file with offset := read.flatten.length } ∧
        (opened.deliveries handle.fid changes).flatMap Delivery.bytes = read.flatten ∧
        ∀ room wait, ((opened.after changes).readFrom handle.fid room wait).1 =
          some (packedRead ahead.flatten room (some 125)) := by
  intro start opened records handle other file changes
  have listed : start.childStats (.ofText "/d") = _ :=
    childStats_of_ordered (by decide +kernel)
  have framed : ∀ record ∈ records, Framed record := by
    apply Stat.framed_of_mem_map_encode
    rw [listed]
    decide +kernel
  have some : records ≠ [] := by
    show (start.childStats (.ofText "/d")).map Stat.encode ≠ []
    rw [listed]
    decide +kernel
  have packed : packRecords records.flatten 125 (.some 125) = .ok 125 := by
    show packRecords ((start.childStats (.ofText "/d")).map Stat.encode).flatten 125 (.some 125) = _
    rw [listed]
    decide +kernel
  have lists : opened.listing file.path = records.flatten := by
    rw [← Stat.encodeAll_eq_flatten, ← listing_eq]
    rfl
  have only : OnlyRead handle.fid file.path opened changes := by
    refine ⟨.inr ⟨?_, ?_, ?added, trivial⟩, .inr ⟨?_, ?_, trivial, trivial⟩,
      .inr ⟨?_, ?_, trivial, trivial⟩, .inl rfl, .inl rfl, .inl rfl, trivial⟩
    case added =>
      change places _ _ _ = false
      decide +kernel
    all_goals decide +kernel
  have answered : server.answer (.openFile "/d" .read) start = (.ok handle, opened) := rfl
  have found : Table.find? handle.fid opened.openFiles = .some file := rfl
  obtain ⟨packing, reading⟩ := listing_read_in_records framed
  obtain ⟨read, ahead, split, now, bytes, next⟩ := reading answered rfl found rfl lists only
  refine ⟨framed, ((packing 125 (.some 125)).2.2 some 125).mp packed, rfl, lists, only, read, ahead,
    split, now, bytes, ?_⟩
  intro room wait
  exact next room wait rfl rfl

end Tree

end RemoteTree
