import RemoteTree.Proofs.Tree.Listing
import RemoteTree.Proofs.Tree.Reading

/-!
# Reading a directory at once

A directory can be read like a file: the records of its children back to back. Reading at once asks
for what is left of its buffer, and a directory refuses a read that has no room for its next record.
So the reading goes through only if each end of the buffer, where it grows and where it stops
growing, lies between two records.
-/

set_option autoImplicit false

namespace RemoteTree

namespace Stat

/-- Does a place in a listing lie inside of a record? -/
def Splits (stats : List Stat) (place : Nat) : Prop :=
  ∃ before stat after, stats = before ++ stat :: after ∧
    (encodeAll before).length < place ∧ place < (encodeAll (before ++ [stat])).length

private theorem not_splits_nil (place : Nat) : ¬ Splits [] place := by
  rintro ⟨before, stat, after, split, -⟩
  cases before <;> cases split

private theorem not_splits_zero (stats : List Stat) : ¬ Splits stats 0 := by
  rintro ⟨before, stat, after, -, low, -⟩
  exact Nat.not_lt_zero _ low

private theorem splits_first {stat : Stat} {place : Nat} (some : 0 < place)
    (inside : place < stat.encode.length) (rest : List Stat) : Splits (stat :: rest) place :=
  ⟨[], stat, rest, rfl, some, by simpa using inside⟩

private theorem splits_cons {stat : Stat} {rest : List Stat} {place : Nat}
    (behind : stat.encode.length ≤ place) :
    Splits (stat :: rest) place ↔ Splits rest (place - stat.encode.length) := by
  constructor
  · rintro ⟨before, other, after, split, low, high⟩
    cases before with
    | nil =>
      cases split
      simp only [List.nil_append, encodeAll_cons, encodeAll_nil, List.append_nil] at high
      omega
    | cons first before =>
      cases split
      rw [encodeAll_cons, List.length_append] at low
      rw [List.cons_append, encodeAll_cons, List.length_append] at high
      exact ⟨before, other, after, rfl, by omega, by omega⟩
  · rintro ⟨before, other, after, rfl, low, high⟩
    refine ⟨stat :: before, other, after, rfl, ?_, ?_⟩
    · rw [encodeAll_cons, List.length_append]
      omega
    · rw [List.cons_append, encodeAll_cons, List.length_append]
      omega

private theorem splits_append {front rest : List Stat} {place : Nat}
    (behind : (encodeAll front).length ≤ place) :
    Splits (front ++ rest) place ↔ Splits rest (place - (encodeAll front).length) := by
  induction front generalizing place with
  | nil => rfl
  | cons stat front ih =>
    rw [encodeAll_cons, List.length_append] at behind ⊢
    rw [List.cons_append, splits_cons (by omega), ih (by omega), Nat.sub_sub]

instance decidableSplits : (stats : List Stat) → (place : Nat) → Decidable (Splits stats place)
  | [], place => isFalse (not_splits_nil place)
  | stat :: rest, place =>
    if behind : stat.encode.length ≤ place then
      have := decidableSplits rest (place - stat.encode.length)
      decidable_of_iff _ (splits_cons behind).symm
    else if some : 0 < place then isTrue (splits_first some (Nat.lt_of_not_le behind) rest)
    else isFalse (Nat.eq_zero_of_not_pos some ▸ not_splits_zero _)

/-- Up to a place that lies inside of no record there are whole records. -/
theorem exists_front {stats : List Stat} {place : Nat} (between : ¬ Splits stats place) :
    ∃ front, front <+: stats ∧ encodeAll front = (encodeAll stats).take place := by
  induction stats generalizing place with
  | nil => exact ⟨[], List.prefix_rfl, List.take_nil.symm⟩
  | cons stat rest ih =>
    rcases Nat.eq_zero_or_pos place with rfl | some
    · exact ⟨[], List.nil_prefix, rfl⟩
    · have behind : stat.encode.length ≤ place := by
        by_contra inside
        exact between (splits_first some (Nat.lt_of_not_le inside) rest)
      obtain ⟨front, start, taken⟩ := ih (mt (splits_cons behind).mpr between)
      refine ⟨stat :: front, List.cons_prefix_cons.mpr ⟨rfl, start⟩, ?_⟩
      rw [encodeAll_cons, encodeAll_cons, taken, List.take_append, List.take_of_length_le behind]

end Stat

namespace Tree

/-- The records that the reads of an open directory have yet to deliver. -/
def Lists (tree : Tree) (fid : UInt32) (stats : List Stat) : Prop :=
  ∃ opened, Table.find? fid tree.openFiles = some opened ∧ opened.mode.isReadable = true ∧
    tree.hasDirectory opened.path = true ∧
    opened.listing.behind? opened.offset = some (Stat.encodeAll stats)

namespace Lists

variable {tree : Tree} {fid : UInt32} {stat : Stat} {rest : List Stat} {room : Nat}

private theorem read_end (lists : tree.Lists fid []) (reliable : tree.limits.failAfterReads = none)
    (room : Nat) :
    ∃ after, tree.readFrom fid room none = (some ⟨[], .ok 0⟩, after) := by
  obtain ⟨opened, found, readable, still, listing⟩ := lists
  rw [readFrom_directory reliable found readable still listing, Stat.encodeAll_nil,
    packRecords_nil]
  exact ⟨_, rfl⟩

private theorem read_short (lists : tree.Lists fid (stat :: rest))
    (reliable : tree.limits.failAfterReads = none)
    (fits : stat.encodeBody.length ≤ Stat.largestSize) (short : room < stat.encode.length) :
    ∃ after, tree.readFrom fid room none = (some (refusedRead .roomTooSmall), after) := by
  obtain ⟨opened, found, readable, still, listing⟩ := lists
  rw [readFrom_directory reliable found readable still listing, packRecords_short _ fits short]
  exact ⟨_, rfl⟩

private theorem read_first (lists : tree.Lists fid (stat :: rest))
    (reliable : tree.limits.failAfterReads = none)
    (fit : ∀ other ∈ stat :: rest, other.encodeBody.length ≤ Stat.largestSize)
    (first : stat.encode.length ≤ room) :
    ∃ now later after, rest = now ++ later ∧
      (Stat.encodeAll (stat :: now)).length ≤ room ∧
      tree.readFrom fid room none =
        (some ⟨Stat.encodeAll (stat :: now), .ok (Stat.encodeAll (stat :: now)).length⟩,
          after) ∧
      after.Lists fid later ∧ after.limits = tree.limits := by
  obtain ⟨opened, found, readable, still, listing⟩ := lists
  obtain ⟨now, later, rfl, packed⟩ := packRecords_first tree.limits.mostRead fit first
  rw [← List.cons_append, Stat.encodeAll_append] at listing packed
  refine ⟨now, later, _, rfl, packRecords_le packed,
    readFrom_packed reliable found readable still listing packed none, ?_, rfl⟩
  exact ⟨_, (Table.find?_insert ..).trans (if_pos rfl), readable, still, Bytes.behind?_add listing⟩

end Lists

end Tree

namespace Client

open Stat (encodeAll Splits)

/-- What collecting the records of a directory comes to: some have been collected, the buffer ends
behind some bytes of the others, and the limit is reached behind some more. -/
structure Packed (path : String) (stats : List Stat) (collected : Bytes) (room left : Nat)
    (result : Except ClientError Bytes) : Prop where
  refused : Splits stats room ∨ Splits stats left →
    result = .error (.read path .roomTooSmall)
  whole : ¬ Splits stats room → ¬ Splits stats left →
    result = .ok (collected ++ (encodeAll stats).take left)

namespace Packed

variable {path : String} {stats front rest : List Stat} {stat : Stat} {collected : Bytes}
  {room left : Nat} {result : Except ClientError Bytes}

private theorem ended : Packed path [] collected room left (.ok collected) := by
  constructor
  · rintro (inside | inside)
    · exact absurd inside (Stat.not_splits_nil room)
    · exact absurd inside (Stat.not_splits_nil left)
  · intro _ _
    rw [Stat.encodeAll_nil, List.take_nil, List.append_nil]

private theorem full : Packed path stats collected 0 0 (.ok collected) := by
  constructor
  · rintro (inside | inside) <;> exact absurd inside (Stat.not_splits_zero stats)
  · intro _ _
    rw [List.take_zero, List.append_nil]

private theorem short (some : 0 < room) (inside : room < stat.encode.length) :
    Packed path (stat :: rest) collected room left (.error (.read path .roomTooSmall)) := by
  constructor
  · exact fun _ => rfl
  · exact fun between => absurd (Stat.splits_first some inside rest) between

private theorem cons (fits : (encodeAll front).length ≤ room) (within : room ≤ left)
    (packed : Packed path rest (collected ++ encodeAll front) (room - (encodeAll front).length)
      (left - (encodeAll front).length) result) :
    Packed path (front ++ rest) collected room left result := by
  have fitsLeft := Nat.le_trans fits within
  constructor
  · rw [Stat.splits_append fits, Stat.splits_append fitsLeft]
    exact packed.refused
  · rw [Stat.splits_append fits, Stat.splits_append fitsLeft]
    intro room left
    rw [packed.whole room left, Stat.encodeAll_append, List.take_append,
      List.take_of_length_le fitsLeft, List.append_assoc]

private theorem grow (packed : Packed path stats collected left left result) :
    Packed path stats collected 0 left result := by
  constructor
  · rintro (inside | inside)
    · exact absurd inside (Stat.not_splits_zero stats)
    · exact packed.refused (.inl inside)
  · exact fun _ between => packed.whole between between

end Packed

/-- What a read of an open directory comes to: there is nothing left, or the buffer has no room for
the next record, or some of the records come. -/
theorem cases_of_round {tree after : Tree} {handle : Handle} {stats : List Stat}
    (lists : tree.Lists handle.fid stats) (reliable : tree.limits.failAfterReads = none)
    (fit : ∀ stat ∈ stats, stat.encode.length ≤ handle.transferSize) {tail : Bytes}
    {delivery : Delivery} {transfer : Transfer}
    (round : Round Tree.server tree (readInto handle tail delivery) transfer after) :
    (stats = [] ∧ transfer = .nothing) ∨
    (∃ stat rest, stats = stat :: rest ∧ tail.length < stat.encode.length ∧
      transfer = .refused .roomTooSmall) ∨
    ∃ front later, stats = front ++ later ∧ transfer = .moved (encodeAll front) ∧
      after.Lists handle.fid later ∧ after.limits = tree.limits := by
  have size : (tail.take handle.transferSize).length = min handle.transferSize tail.length :=
    List.length_take
  cases stats with
  | nil =>
    obtain ⟨left, read⟩ := lists.read_end reliable (tail.take handle.transferSize).length
    obtain ⟨nothing, -⟩ := round.unique ⟨Tree.answer_readFrom read, rfl⟩
    exact .inl ⟨rfl, nothing⟩
  | cons stat rest =>
    have bodies : ∀ other ∈ stat :: rest, other.encodeBody.length ≤ Stat.largestSize := by
      intro other member
      have whole := fit other member
      have most := handle.transferSize_le
      rw [Stat.length_encode] at whole
      unfold Stat.largestSize
      omega
    have transfers := fit stat List.mem_cons_self
    by_cases inside : tail.length < stat.encode.length
    · obtain ⟨left, read⟩ := lists.read_short reliable (bodies stat List.mem_cons_self)
        (show (tail.take handle.transferSize).length < stat.encode.length by omega)
      obtain ⟨refused, -⟩ := round.unique ⟨Tree.answer_readFrom read, rfl⟩
      exact .inr (.inl ⟨stat, rest, rfl, inside, refused⟩)
    · obtain ⟨now, later, left, rfl, fits, read, following, limits⟩ := lists.read_first
        reliable bodies
        (show stat.encode.length ≤ (tail.take handle.transferSize).length by omega)
      have some : encodeAll (stat :: now) ≠ [] :=
        List.append_ne_nil_of_left_ne_nil stat.encode_ne_nil _
      obtain ⟨moves, rfl⟩ := round.unique
        ⟨Tree.answer_readFrom read, Exchange.transfer?_of_received some fits handle none⟩
      exact .inr (.inr ⟨stat :: now, later, rfl, moves, following, limits⟩)

private theorem Packed.moved {tree after : Tree} {handle : Handle} {path : String}
    {stats : List Stat}
    {held tail bytes : Bytes} {delivery : Delivery} {room : Nat} {ran : Except ClientError Bytes}
    (lists : tree.Lists handle.fid stats) (reliable : tree.limits.failAfterReads = none)
    (fit : ∀ stat ∈ stats, stat.encode.length ≤ handle.transferSize)
    (within : held.length + tail.length ≤ readLimit)
    (round : Round Tree.server tree (readInto handle tail delivery) (.moved bytes) after)
    (left : room + bytes.length = tail.length)
    (goesOn : ∀ later, after.Lists handle.fid later → after.limits.failAfterReads = none →
      (∀ stat ∈ later, stat.encode.length ≤ handle.transferSize) →
      Packed path later (held ++ bytes) room (readLimit - (held ++ bytes).length) ran) :
    Packed path stats held tail.length (readLimit - held.length) ran := by
  rcases cases_of_round lists reliable fit round with
    ⟨-, moves⟩ | ⟨stat, rest, -, -, moves⟩ | ⟨front, later, rfl, moves, following, limits⟩
  · cases moves
  · cases moves
  · cases moves
    have packed := goesOn later following (limits ▸ reliable) fun stat member =>
      fit stat (List.mem_append_right front member)
    have same : room = tail.length - (encodeAll front).length := by omega
    rw [List.length_append, Nat.sub_add_eq, same] at packed
    exact .cons (by omega) (by omega) packed

/-- The rounds that read a directory at once come to whole records or to a refusal. -/
theorem ReadRounds.packed {tree : Tree} {handle : Handle} {path : String} {stats : List Stat}
    {held tail : Bytes} {log : List Exchange} {ran : Except ClientError Bytes × Tree}
    (rounds : ReadRounds Tree.server handle path none held tail tree log ran)
    (lists : tree.Lists handle.fid stats) (reliable : tree.limits.failAfterReads = none)
    (fit : ∀ stat ∈ stats, stat.encode.length ≤ handle.transferSize) (some : tail ≠ [])
    (within : held.length + tail.length ≤ readLimit) :
    Packed path stats held tail.length (readLimit - held.length) ran.1 := by
  -- The listing that is left gets shorter by the records that come.
  induction rounds generalizing stats with
  | last round still =>
      rcases cases_of_round lists reliable fit round with
        ⟨rfl, rfl⟩ | ⟨stat, rest, rfl, inside, rfl⟩ | ⟨front, later, -, moves, -⟩
      · exact .ended
      · exact .short (List.length_pos_of_ne_nil some) inside
      · exact absurd moves (still _)
  | filled round whole full =>
      refine .moved lists reliable fit within round (by rw [whole, Nat.zero_add])
        fun later _ _ _ => ?_
      rw [Nat.sub_eq_zero_of_le full]
      exact .full
  | bursts round whole small refused => cases refused
  | next round left more _ ih =>
      refine .moved lists reliable fit within round left fun later following reliable fit => ?_
      exact ih following reliable fit more (by rw [List.length_append]; omega)
  | @grow held tail bytes tree middle delivery log ran round whole small grows _ ih =>
      have zeros : (Bytes.zeros (readLimit - (held ++ bytes).length)).length =
          readLimit - (held ++ bytes).length := List.length_replicate
      refine .moved lists reliable fit within round (by rw [whole, Nat.zero_add])
        fun later following reliable fit => ?_
      have packed := ih following reliable fit (List.ne_nil_of_length_pos (by omega)) (by omega)
      rw [zeros] at packed
      exact packed.grow

private theorem readCapped_packed {tree : Tree} {handle : Handle} {stats : List Stat}
    (lists : tree.Lists handle.fid stats) (reliable : tree.limits.failAfterReads = none)
    (fit : ∀ stat ∈ stats, stat.encode.length ≤ handle.transferSize) (path : String) :
    Packed path stats [] (min handle.transferSize readLimit) readLimit
      ((readCapped handle path none).run Tree.server tree).1 := by
  have packed := (readCapped_rounds Tree.server path rfl tree).packed lists reliable fit
    (start_ne_nil handle) (length_start_le handle)
  rwa [Bytes.zeros, List.length_replicate] at packed

end Client

namespace Connection

open Client (readLimit)
open Stat (encodeAll Splits)

variable (connection : Connection) {tree : Tree} {path : String}

private theorem read_packed (unlimited : connection.bufferLimit = none)
    (directory : tree.hasDirectory (.ofText path) = true)
    (reliable : tree.limits.failAfterReads = none)
    (fit : ∀ stat ∈ tree.childStats (.ofText path), stat.encode.length ≤
      Handle.transferSize ⟨tree.nextFid, tree.limits.iounit, directoryKind⟩) :
    let size := Handle.transferSize ⟨tree.nextFid, tree.limits.iounit, directoryKind⟩
    Client.Packed path (tree.childStats (.ofText path)) [] (min size readLimit) readLimit
      ((connection.read path).run Tree.server tree).1 := by
  intro size
  obtain ⟨node, found, content⟩ := Tree.exists_directory directory
  have opened : tree.openAt (.ofText path) .read =
      (.ok (tree.issue (.ofText path) .read).1, (tree.issue (.ofText path) .read).2) := by
    simp [Tree.openAt, found, OpenMode.isWritable]
  have same : (tree.issue (.ofText path) .read).1.transferSize = size :=
    Handle.transferSize_congr rfl
  have lists : (tree.issue (.ofText path) .read).2.Lists
      (tree.issue (.ofText path) .read).1.fid (tree.childStats (.ofText path)) := by
    have there := tree.find?_issue (.ofText path) .read
    rw [if_pos directory] at there
    exact ⟨_, there, rfl, directory, congrArg Option.some (tree.listing_eq (.ofText path))⟩
  have packed := Client.readCapped_packed lists reliable (by rw [same]; exact fit) path
  rw [same] at packed
  simp only [read, withOpened, closing, Client.run, Tree.server, opened, Client.run_andThen,
    unlimited]
  exact packed

/-- Reading a directory at once brings the records of its children, up to the limit, if neither the
end of the first buffer nor the limit lies inside of a record. Otherwise the server refuses a read
that has no room for a record, even if all records together are no longer than the limit. -/
theorem read_directory (unlimited : connection.bufferLimit = none)
    (directory : tree.hasDirectory (.ofText path) = true)
    (reliable : tree.limits.failAfterReads = none)
    (fit : ∀ stat ∈ tree.childStats (.ofText path), stat.encode.length ≤
      Handle.transferSize ⟨tree.nextFid, tree.limits.iounit, directoryKind⟩) :
    let size := Handle.transferSize ⟨tree.nextFid, tree.limits.iounit, directoryKind⟩
    let stats := tree.childStats (.ofText path)
    let result := ((connection.read path).run Tree.server tree).1
    (Splits stats (min size readLimit) ∨ Splits stats readLimit →
      result = .error (.read path .roomTooSmall)) ∧
    (¬ Splits stats (min size readLimit) → ¬ Splits stats readLimit →
      ∃ front, front <+: stats ∧ encodeAll front = (tree.listing (.ofText path)).take readLimit ∧
        result = .ok (encodeAll front)) := by
  intro size stats result
  have packed := connection.read_packed unlimited directory reliable fit
  refine ⟨packed.refused, fun first limit => ?_⟩
  obtain ⟨front, start, taken⟩ := Stat.exists_front limit
  have whole := packed.whole first limit
  rw [List.nil_append, ← taken] at whole
  exact ⟨front, start, by rw [tree.listing_eq, taken], whole⟩

/-- Two records that fill a buffer each, which grows between them. -/
theorem read_directory_of_full_buffer :
    let tree := ((Tree.empty { iounit := 62 } 7).addFile "/d/a" []).addFile "/d/b" []
    let stats := tree.childStats (.ofText "/d")
    tree.hasDirectory (.ofText "/d") = true ∧
      (∀ stat ∈ stats, stat.encode.length ≤
        Handle.transferSize ⟨tree.nextFid, tree.limits.iounit, directoryKind⟩) ∧
      ¬ Splits stats 62 ∧ ¬ Splits stats readLimit ∧
      ∃ front, front <+: stats ∧ encodeAll front = (tree.listing (.ofText "/d")).take readLimit ∧
        ((read ⟨"mem!test", none⟩ "/d").run Tree.server tree).1 = .ok (encodeAll front) := by
  intro tree stats
  have directory : tree.hasDirectory (.ofText "/d") = true := by decide +kernel
  have listed : stats = _ := Tree.childStats_of_ordered (by decide +kernel)
  have fit : ∀ stat ∈ stats, stat.encode.length ≤
      Handle.transferSize ⟨tree.nextFid, tree.limits.iounit, directoryKind⟩ := by
    rw [listed]
    decide +kernel
  have first : ¬ Splits stats 62 := by
    rw [listed]
    decide +kernel
  have limit : ¬ Splits stats readLimit := by
    rw [listed]
    decide +kernel
  obtain ⟨-, whole⟩ := read_directory ⟨"mem!test", none⟩ rfl directory rfl fit
  exact ⟨directory, fit, first, limit, whole first limit⟩

theorem read_directory_fails_below_limit :
    let tree := ((Tree.empty { iounit := 100 } 7).addFile "/d/a" []).addFile "/d/b" []
    let stats := tree.childStats (.ofText "/d")
    tree.hasDirectory (.ofText "/d") = true ∧ tree.limits.failAfterReads = none ∧
      (∀ stat ∈ stats, stat.encode.length ≤
        Handle.transferSize ⟨tree.nextFid, tree.limits.iounit, directoryKind⟩ ∧
        stat.encode.length ≤ readLimit) ∧
      (encodeAll stats).length ≤ readLimit ∧ tree.listing (.ofText "/d") = encodeAll stats ∧
      ((read ⟨"mem!test", none⟩ "/d").run Tree.server tree).1 =
        .error (.read "/d" .roomTooSmall) := by
  intro tree stats
  have directory : tree.hasDirectory (.ofText "/d") = true := by decide +kernel
  have listed : stats = _ := Tree.childStats_of_ordered (by decide +kernel)
  have fit : ∀ stat ∈ stats, stat.encode.length ≤
      Handle.transferSize ⟨tree.nextFid, tree.limits.iounit, directoryKind⟩ ∧
      stat.encode.length ≤ readLimit := by
    rw [listed]
    decide +kernel
  have short : (encodeAll stats).length ≤ readLimit := by
    rw [listed]
    decide +kernel
  -- The buffer ends inside of the second record.
  have inside : Splits stats 100 := by
    rw [listed]
    decide +kernel
  refine ⟨directory, rfl, fit, short, tree.listing_eq _, ?_⟩
  have packed := read_packed ⟨"mem!test", none⟩ rfl directory rfl fun stat member =>
    (fit stat member).1
  exact packed.refused (.inl inside)

end Connection

end RemoteTree
