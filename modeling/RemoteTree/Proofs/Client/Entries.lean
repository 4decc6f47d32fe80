import RemoteTree.Proofs.Client.Custody
import RemoteTree.Proofs.Client.Directory
import RemoteTree.Proofs.Server.Transfer
import RemoteTree.Proofs.Stat.Layout

/-!
# Directory readers on servers of all kinds

What the steps of a directory reader come to whatever a server answers. The records of a delivery
are handed out one by one, those of the next only after them. The first record that is cut off is
reported and is the end; every answer but a delivery is the end too.
-/

set_option autoImplicit false

namespace RemoteTree

/-! ## Records of a message -/

namespace Stat

private theorem decodeNext_at? (message : Bytes) (offset : Nat) :
    decodeNext (Cursor.at? message offset) =
      (decodeAt message offset).map fun record => (record.1, Cursor.at? message record.2) := by
  cases decoded : decodeNext (Cursor.at? message offset) with
  | error shortfall =>
      rw [decodeAt, decoded]
      rfl
  | ok pair =>
      obtain ⟨stat, cursor⟩ := pair
      obtain ⟨body, short, split, isRead⟩ := decodeNext_ok decoded
      change message.drop offset = counted body ++ cursor.rest at split
      have behind : message.drop (offset + 2 + body.length) = cursor.rest := by
        rw [Nat.add_assoc, ← List.drop_drop, split, ← length_counted, List.drop_left]
      -- The size in front of the body says where the next place is.
      rw [Cursor.at?, split, decodeNext_counted short, isRead] at decoded
      have place : (⟨offset + 2 + body.length, cursor.rest⟩ : Cursor) = cursor :=
        (Prod.mk.inj (Except.ok.inj decoded)).2
      rw [decodeAt_counted short split, isRead]
      simp only [Except.map, Cursor.at?, behind, place]

/-- The records of a message from an offset on. The first one that is cut off is the last. -/
def recordsFrom (message : Bytes) (offset : Nat) : List (Except Shortfall Stat) :=
  if offset < message.length then
    match decoded : decodeAt message offset with
    | .ok (stat, next) =>
        have := decodeAt_advance decoded
        .ok stat :: recordsFrom message next
    | .error shortfall => [.error shortfall]
  else []
termination_by message.length - offset

variable {message : Bytes} {offset next : Nat} {stat : Stat} {shortfall : Shortfall}

private theorem recordsFrom_end (past : message.length ≤ offset) :
    recordsFrom message offset = [] := by
  rw [recordsFrom, if_neg (Nat.not_lt.mpr past)]

private theorem recordsFrom_ok (within : offset < message.length)
    (decoded : decodeAt message offset = .ok (stat, next)) :
    recordsFrom message offset = .ok stat :: recordsFrom message next := by
  rw [recordsFrom, if_pos within]
  split
  · next other place same =>
    cases decoded.symm.trans same
    rfl
  · next shortfall same => cases decoded.symm.trans same

private theorem recordsFrom_cut (within : offset < message.length)
    (decoded : decodeAt message offset = .error shortfall) :
    recordsFrom message offset = [.error shortfall] := by
  rw [recordsFrom, if_pos within]
  split
  · next stat place same => cases decoded.symm.trans same
  · next other same =>
    cases decoded.symm.trans same
    rfl

/-- A record has 49 bytes at least. -/
theorem countP_recordsFrom (message : Bytes) (offset : Nat) :
    49 * (recordsFrom message offset).countP Except.isOk ≤ message.length - offset := by
  fun_induction recordsFrom message offset with
  | case1 offset within stat next decoded advance ih =>
      rw [List.countP_cons_of_pos rfl]
      omega
  | case2 offset within shortfall decoded =>
      rw [List.countP_singleton]
      exact Nat.zero_le _
  | case3 => exact Nat.zero_le _

end Stat

/-! ## Entries of an exchange -/

namespace DirectoryReader

def entriesOf (path : String) (records : List (Except Shortfall Stat)) :
    List (Except ClientError Stat) :=
  records.map fun record => record.mapError fun shortfall => .protocol path (.cutRecord shortfall)

private theorem countP_entriesOf (path : String) (records : List (Except Shortfall Stat)) :
    (entriesOf path records).countP Except.isOk = records.countP Except.isOk := by
  rw [entriesOf, List.countP_map]
  refine List.countP_congr fun record _ => ?_
  cases record <;> rfl

/-- The entries that the answer to a read is good for: the records of a delivery, and one entry for
a delivery that claims too much. -/
def entries (path : String) (exchange : Exchange) : List (Except ClientError Stat) :=
  match exchange.transfer? with
  | some (.moved data) => entriesOf path (Stat.recordsFrom data 0)
  | some (.overlong claimed room) => [.error (.protocol path (.overlongRead claimed room))]
  | _ => []

private theorem countP_entries (path : String) (exchange : Exchange) :
    (entries path exchange).countP Except.isOk ≤ exchange.moved.length / 49 := by
  rw [entries]
  split
  · next data moves =>
    have many := Stat.countP_recordsFrom data 0
    rw [countP_entriesOf, Exchange.moved_of_transfer? moves, Nat.le_div_iff_mul_le (by decide)]
    omega
  · exact Nat.zero_le _
  · exact Nat.zero_le _

/-! ## Steps -/

/-- The bytes of the last delivery. -/
def filled (reader : DirectoryReader) : Bytes :=
  reader.buffer.take (reader.consumed + reader.pending.length)

/-- What is known of a reader of an open directory at all times. What is pending is part of what
the buffer holds. -/
structure Sound (reader : DirectoryReader) : Prop where
  capacity : reader.buffer.length = reader.handle.transferSize
  within : reader.consumed + reader.pending.length ≤ reader.buffer.length
  window : reader.pending = reader.filled.drop reader.consumed

/-- The entries that are still to come of what is pending. -/
def outstanding (reader : DirectoryReader) : List (Except ClientError Stat) :=
  if reader.finished then []
  else entriesOf reader.path (Stat.recordsFrom reader.filled reader.consumed)

/-- One step of a reader: what it asked of the server, what it yielded, and the reader before and
after it. -/
structure Turn where
  before : DirectoryReader
  exchanges : List Exchange
  entry : Option (Except ClientError Stat)
  after : DirectoryReader

/-- The step decodes the record at an offset of a delivery. It comes to lie behind the record or,
if that is cut off, it is the last one. -/
structure Turn.Decodes (turn : Turn) (message : Bytes) (offset : Nat) : Prop where
  record : ∀ stat next, Stat.decodeAt message offset = .ok (stat, next) →
    turn.entry = some (.ok stat) ∧ turn.after.finished = false ∧ turn.after.filled = message ∧
      turn.after.consumed = next ∧ offset + 49 ≤ next
  cut : ∀ shortfall, Stat.decodeAt message offset = .error shortfall →
    turn.entry = some (.error (.protocol turn.before.path (.cutRecord shortfall))) ∧
      turn.after.finished = true

/-- What a read makes of a step, by what it comes to. -/
def Turn.Decided (turn : Turn) : Transfer → Prop
  | .moved data => turn.Decodes data 0
  | .nothing => turn.entry = none ∧ turn.after.finished = true
  | .refused _ => turn.entry = none ∧ turn.after.finished = true
  | .overlong claimed room =>
      turn.entry = some (.error (.protocol turn.before.path (.overlongRead claimed room))) ∧
        turn.after.finished = true

/-- The course of a step: after the end there is nothing, a record of what is pending is decoded
without a read, and else there is one read that decides. -/
structure Turn.Lawful (turn : Turn) : Prop where
  handle : turn.after.handle = turn.before.handle
  path : turn.after.path = turn.before.path
  ended : turn.before.finished = true →
    turn.entry = none ∧ turn.exchanges = [] ∧ turn.after = turn.before
  pending : turn.before.finished = false → turn.before.pending ≠ [] →
    turn.exchanges = [] ∧ turn.Decodes turn.before.filled turn.before.consumed
  reads : turn.before.finished = false → turn.before.pending = [] → ∃ exchange transfer,
    turn.exchanges = [exchange] ∧
      exchange.request = .readFrom turn.before.handle turn.before.buffer none ∧
      exchange.transfer? = some transfer ∧ turn.Decided transfer

variable {State : Type}

def turn (reader : DirectoryReader) (server : Server State) (state : State) : Turn :=
  let outcome := (reader.next.run server state).1
  { before := reader
    exchanges := reader.next.exchanges server state
    entry := outcome.1
    after := outcome.2 }

def turns (server : Server State) : DirectoryReader → Nat → State → List Turn
  | _, 0, _ => []
  | reader, count + 1, state =>
      let turn := reader.turn server state
      turn :: turns server turn.after count (reader.next.run server state).2

variable {reader : DirectoryReader}

theorem sound_start (handle : Handle) (path : String) : (start handle path).Sound :=
  ⟨List.length_replicate, Nat.zero_le _, rfl⟩

private theorem Sound.length_filled (sound : reader.Sound) :
    reader.filled.length = reader.consumed + reader.pending.length :=
  List.length_take_of_le sound.within

private theorem Sound.step (sound : reader.Sound) {next : Nat}
    (past : next ≤ reader.filled.length) :
    let after := { reader with consumed := next, pending := reader.filled.drop next }
    after.Sound ∧ after.filled = reader.filled := by
  have size : next + (reader.filled.drop next).length = reader.filled.length := by
    rw [List.length_drop]
    omega
  -- What has been decoded and what is left make up the same delivery as before.
  have same : reader.buffer.take (next + (reader.filled.drop next).length) = reader.filled := by
    rw [size, sound.length_filled]
    rfl
  refine ⟨⟨sound.capacity, ?_, ?_⟩, same⟩
  · dsimp only
    rw [size]
    exact List.length_take_le' ..
  · exact (congrArg (List.drop next) same).symm

theorem Sound.decodePending (sound : reader.Sound) (live : reader.finished = false)
    (before : DirectoryReader) (same : before.path = reader.path) (exchanges : List Exchange) :
    Turn.Decodes ⟨before, exchanges, some reader.decodePending.1, reader.decodePending.2⟩
        reader.filled reader.consumed ∧
      reader.decodePending.2.Sound ∧ reader.decodePending.2.handle = reader.handle ∧
      reader.decodePending.2.path = reader.path := by
  have next := Stat.decodeNext_at? reader.filled reader.consumed
  rw [Cursor.at?, ← sound.window] at next
  cases decoded : Stat.decodeAt reader.filled reader.consumed with
  | error shortfall =>
      rw [decoded] at next
      have decodes : reader.decodePending =
          (.error (.protocol reader.path (.cutRecord shortfall)),
            { reader with finished := true }) := by
        rw [DirectoryReader.decodePending, next]
        rfl
      rw [decodes]
      refine ⟨⟨fun stat place record => ?_, fun other cut => ?_⟩, ?_, rfl, rfl⟩
      · cases decoded.symm.trans record
      · cases decoded.symm.trans cut
        exact ⟨by rw [same], rfl⟩
      · exact ⟨sound.capacity, sound.within, sound.window⟩
  | ok record =>
      obtain ⟨stat, place⟩ := record
      rw [decoded] at next
      have decodes : reader.decodePending =
          (.ok stat, { reader with consumed := place, pending := reader.filled.drop place }) := by
        rw [DirectoryReader.decodePending, next]
        rfl
      obtain ⟨advance, past⟩ := Stat.decodeAt_advance decoded
      obtain ⟨after, kept⟩ := sound.step past
      rw [decodes]
      refine ⟨⟨fun other behind record => ?_, fun shortfall cut => ?_⟩, after, rfl, rfl⟩
      · cases decoded.symm.trans record
        exact ⟨rfl, live, kept, rfl, advance⟩
      · cases decoded.symm.trans cut

private theorem Sound.refill (sound : reader.Sound) {buffer : Bytes}
    (size : buffer.length = reader.buffer.length) {count : Nat} (within : count ≤ buffer.length) :
    let full := { reader with buffer := buffer, consumed := 0, pending := buffer.take count }
    full.Sound ∧ full.filled = buffer.take count := by
  have length : (buffer.take count).length = count := List.length_take_of_le within
  have same : buffer.take (0 + (buffer.take count).length) = buffer.take count := by
    rw [length, Nat.zero_add]
  refine ⟨⟨size.trans sound.capacity, ?_, same.symm⟩, same⟩
  · dsimp only
    rwa [length, Nat.zero_add]

/-- A read that brings nothing is the end, whatever it leaves in the buffer. -/
theorem Sound.stop (sound : reader.Sound) (empty : reader.pending = []) {buffer : Bytes}
    (size : buffer.length = reader.buffer.length) :
    { reader with buffer := buffer, finished := true }.Sound := by
  have within := sound.within
  rw [← size] at within
  refine ⟨size.trans sound.capacity, within, ?_⟩
  have past : (buffer.take (reader.consumed + reader.pending.length)).length ≤ reader.consumed := by
    rw [empty]
    exact List.length_take_le ..
  exact empty.trans (List.drop_of_length_le past).symm

private theorem turn_of_finished (ended : reader.finished = true) (server : Server State)
    (state : State) :
    (reader.turn server state).Lawful ∧ (reader.turn server state).after = reader := by
  simp only [turn, next_of_finished ended, Client.run, Client.exchanges]
  refine ⟨⟨rfl, rfl, fun _ => ⟨rfl, rfl, rfl⟩, fun live => ?_, fun live => ?_⟩, trivial⟩
  · cases ended.symm.trans live
  · cases ended.symm.trans live

private theorem next_of_pending (live : reader.finished = false) (pending : reader.pending ≠ []) :
    reader.next = .done (some reader.decodePending.1, reader.decodePending.2) := by
  unfold next
  exact (if_neg (by simp [live])).trans (if_pos (by simp [pending]))

private theorem turn_of_pending (sound : reader.Sound) (live : reader.finished = false)
    (pending : reader.pending ≠ []) (server : Server State) (state : State) :
    (reader.turn server state).Lawful ∧ (reader.turn server state).after.Sound := by
  obtain ⟨decodes, after, handle, path⟩ := sound.decodePending live reader rfl []
  simp only [turn, next_of_pending live pending, Client.run, Client.exchanges]
  refine ⟨⟨handle, path, fun ended => ?_, fun _ _ => ⟨rfl, decodes⟩, fun _ empty => ?_⟩, after⟩
  · cases live.symm.trans ended
  · exact absurd empty pending

private theorem turn_of_empty (sound : reader.Sound) (live : reader.finished = false)
    (empty : reader.pending = []) (server : Server State) (state : State) :
    (reader.turn server state).Lawful ∧ (reader.turn server state).after.Sound := by
  rcases answered : server.answer (.readFrom reader.handle reader.buffer none) state with
    ⟨⟨received, claimed⟩, later⟩
  generalize exchangeIs :
    (⟨.readFrom reader.handle reader.buffer none, ⟨received, claimed⟩⟩ : Exchange) = exchange
  have request : exchange.request = .readFrom reader.handle reader.buffer none := by
    rw [← exchangeIs]
  have comes : exchange.transfer? =
      some (.ofClaim (Bytes.overlay received reader.buffer) claimed) := by
    rw [← exchangeIs]
    rfl
  -- A step that makes this one exchange is lawful if what it comes to decides the step.
  have lawful {transfer : Transfer} {entry : Option (Except ClientError Stat)}
      {after : DirectoryReader} (handle : after.handle = reader.handle)
      (path : after.path = reader.path) (comes : exchange.transfer? = some transfer)
      (decided : Turn.Decided ⟨reader, [exchange], entry, after⟩ transfer) :
      Turn.Lawful ⟨reader, [exchange], entry, after⟩ := by
    refine ⟨handle, path, fun ended => ?_, fun _ pending => ?_,
      fun _ _ => ⟨exchange, transfer, rfl, request, comes, decided⟩⟩
    · cases live.symm.trans ended
    · exact absurd empty pending
  have size := Bytes.length_overlay received reader.buffer
  have stopped := sound.stop empty size
  unfold turn
  rw [next_of_empty live empty]
  rcases claimed with source | _ | count
  · simp only [Client.run, Client.exchanges, answered, exchangeIs]
    exact ⟨lawful rfl rfl comes ⟨rfl, rfl⟩, stopped⟩
  · simp only [Client.run, Client.exchanges, answered, exchangeIs]
    exact ⟨lawful rfl rfl comes ⟨rfl, rfl⟩, stopped⟩
  · simp only [Client.run, Client.exchanges, answered, exchangeIs]
    split
    · next beyond =>
      rw [Transfer.ofClaim_overlong beyond] at comes
      exact ⟨lawful rfl rfl comes ⟨rfl, rfl⟩, stopped⟩
    · next within =>
      have within := Nat.le_of_not_lt within
      rw [Transfer.ofClaim_moved (Nat.succ_ne_zero count) within] at comes
      obtain ⟨full, delivered⟩ := sound.refill size within
      obtain ⟨decodes, after, handle, path⟩ := full.decodePending live reader rfl [exchange]
      rw [delivered] at decodes
      exact ⟨lawful handle path comes decodes, after⟩

theorem turn_lawful (sound : reader.Sound) (server : Server State) (state : State) :
    (reader.turn server state).Lawful ∧ (reader.turn server state).after.Sound := by
  cases live : reader.finished with
  | true =>
      obtain ⟨lawful, same⟩ := turn_of_finished live server state
      refine ⟨lawful, ?_⟩
      rwa [same]
  | false =>
      by_cases empty : reader.pending = []
      · exact turn_of_empty sound live empty server state
      · exact turn_of_pending sound live empty server state

/-! ## Runs -/

variable {turn : Turn}

theorem outstanding_of_finished (ended : reader.finished = true) : reader.outstanding = [] :=
  if_pos ended

theorem outstanding_of_empty (sound : reader.Sound) (empty : reader.pending = []) :
    reader.outstanding = [] := by
  have past : reader.filled.length ≤ reader.consumed := by
    rw [sound.length_filled, empty]
    exact Nat.le_refl _
  rw [outstanding, Stat.recordsFrom_end past]
  exact ite_self _

private theorem Turn.Decodes.yields {message : Bytes} {offset : Nat}
    (decodes : turn.Decodes message offset)
    (path : turn.after.path = turn.before.path) (within : offset < message.length) :
    turn.entry.toList ++ turn.after.outstanding =
      entriesOf turn.before.path (Stat.recordsFrom message offset) := by
  cases decoded : Stat.decodeAt message offset with
  | error shortfall =>
      obtain ⟨entry, ended⟩ := decodes.cut shortfall decoded
      rw [entry, outstanding_of_finished ended, Stat.recordsFrom_cut within decoded]
      rfl
  | ok record =>
      obtain ⟨stat, next⟩ := record
      obtain ⟨entry, live, filled, place, -⟩ := decodes.record stat next decoded
      rw [entry, outstanding, live, filled, place, path, Stat.recordsFrom_ok within decoded]
      rfl

/-- What was to come before a step, and then what the step read, is yielded or to come after it. -/
theorem Turn.Lawful.conserves (lawful : turn.Lawful) (sound : turn.before.Sound) :
    turn.entry.toList ++ turn.after.outstanding =
      turn.before.outstanding ++ turn.exchanges.flatMap (entries turn.before.path) := by
  cases live : turn.before.finished with
  | true =>
      obtain ⟨entry, exchanges, same⟩ := lawful.ended live
      rw [entry, exchanges, same]
      exact (List.append_nil _).symm
  | false =>
      by_cases empty : turn.before.pending = []
      · obtain ⟨exchange, transfer, exchanges, -, comes, decided⟩ := lawful.reads live empty
        rw [exchanges, outstanding_of_empty sound empty, List.flatMap_singleton, entries, comes,
          List.nil_append]
        cases transfer with
        | moved data =>
            have some := Exchange.ne_nil_of_transfer? comes
            exact Turn.Decodes.yields decided lawful.path (List.length_pos_of_ne_nil some)
        | nothing =>
            rw [decided.1, outstanding_of_finished decided.2]
            rfl
        | overlong claimed room =>
            rw [decided.1, outstanding_of_finished decided.2]
            rfl
        | refused source =>
            rw [decided.1, outstanding_of_finished decided.2]
            rfl
      · obtain ⟨exchanges, decodes⟩ := lawful.pending live empty
        have more : turn.before.consumed < turn.before.filled.length := by
          have size := List.length_pos_of_ne_nil empty
          rw [sound.length_filled]
          omega
        rw [exchanges, decodes.yields lawful.path more, outstanding, live, List.flatMap_nil,
          List.append_nil]
        rfl

/-- A step that yields no record is the last one that asks or yields anything. -/
theorem Turn.Lawful.stops (lawful : turn.Lawful) (stopped : ∀ stat, turn.entry ≠ some (.ok stat)) :
    turn.after.finished = true := by
  have ends {message : Bytes} {offset : Nat} (decodes : turn.Decodes message offset) :
      turn.after.finished = true := by
    cases decoded : Stat.decodeAt message offset with
    | error shortfall => exact (decodes.cut shortfall decoded).2
    | ok record => exact absurd (decodes.record record.1 record.2 decoded).1 (stopped record.1)
  cases live : turn.before.finished with
  | true => rw [(lawful.ended live).2.2, live]
  | false =>
      by_cases empty : turn.before.pending = []
      · obtain ⟨exchange, transfer, -, -, -, decided⟩ := lawful.reads live empty
        cases transfer with
        | moved data => exact ends decided
        | nothing => exact decided.2
        | overlong claimed room => exact decided.2
        | refused source => exact decided.2
      · exact ends (lawful.pending live empty).2

/-- The entries that are still to come after some steps of a reader. -/
def leftover (reader : DirectoryReader) (turns : List Turn) : List (Except ClientError Stat) :=
  (turns.getLast?.map (·.after.outstanding)).getD reader.outstanding

private theorem leftover_cons (reader : DirectoryReader) (turn : Turn) (rest : List Turn) :
    leftover reader (turn :: rest) = leftover turn.after rest := by
  rw [leftover, leftover, List.getLast?_cons]
  cases rest.getLast? <;> rfl

private theorem filterMap_cons_entry (turn : Turn) (rest : List Turn) :
    (turn :: rest).filterMap (·.entry) = turn.entry.toList ++ rest.filterMap (·.entry) := by
  rw [List.filterMap_cons]
  cases turn.entry <;> rfl

private theorem turns_sound (sound : reader.Sound) (server : Server State) (count : Nat)
    (state : State) : ∀ turn ∈ turns server reader count state,
      turn.before.handle = reader.handle ∧ turn.before.path = reader.path ∧
        turn.before.Sound ∧ turn.after.Sound ∧ turn.Lawful := by
  induction count generalizing reader state with
  | zero => exact fun turn member => absurd member (List.not_mem_nil)
  | succ count ih =>
      obtain ⟨lawful, after⟩ := turn_lawful sound server state
      intro turn member
      rcases List.mem_cons.mp member with rfl | later
      · exact ⟨rfl, rfl, sound, after, lawful⟩
      · obtain ⟨handle, path, known⟩ := ih after _ turn later
        exact ⟨handle.trans lawful.handle, path.trans lawful.path, known⟩

/-- What is read is yielded or still to come, nothing else is, and nothing twice. -/
theorem turns_conserve (sound : reader.Sound) (server : Server State) (count : Nat)
    (state : State) :
    let turns := turns server reader count state
    turns.filterMap (·.entry) ++ leftover reader turns =
      reader.outstanding ++ (turns.flatMap (·.exchanges)).flatMap (entries reader.path) := by
  induction count generalizing reader state with
  | zero => exact (List.append_nil _).symm
  | succ count ih =>
      obtain ⟨lawful, after⟩ := turn_lawful sound server state
      have here := lawful.conserves sound
      have later := ih after (reader.next.run server state).2
      rw [lawful.path] at later
      unfold turns
      dsimp only at later ⊢
      rw [leftover_cons, filterMap_cons_entry, List.flatMap_cons, List.flatMap_append,
        List.append_assoc, later, ← List.append_assoc, here, List.append_assoc]
      rfl

private theorem turns_of_finished (ended : reader.finished = true) (server : Server State)
    (count : Nat) (state : State) :
    ∀ turn ∈ turns server reader count state, turn.entry = none ∧ turn.exchanges = [] := by
  induction count generalizing reader state with
  | zero => exact fun turn member => absurd member (List.not_mem_nil)
  | succ count ih =>
      obtain ⟨lawful, same⟩ := turn_of_finished ended server state
      obtain ⟨entry, exchanges, -⟩ := lawful.ended ended
      have still : (reader.turn server state).after.finished = true := by rwa [same]
      intro turn member
      rcases List.mem_cons.mp member with rfl | later
      · exact ⟨entry, exchanges⟩
      · exact ih still _ turn later

private theorem turns_pairwise (sound : reader.Sound) (server : Server State) (count : Nat)
    (state : State) :
    (turns server reader count state).Pairwise fun earlier later =>
      (∀ stat, earlier.entry ≠ some (.ok stat)) → later.entry = none ∧ later.exchanges = [] := by
  induction count generalizing reader state with
  | zero => exact .nil
  | succ count ih =>
      obtain ⟨lawful, after⟩ := turn_lawful sound server state
      refine .cons (fun later member stopped => ?_) (ih after _)
      exact turns_of_finished (lawful.stops stopped) server count _ later member

/-- What a directory reader does on any server, whatever it answers. A reader never holds more than
its buffer. While a delivery has not been used up a step decodes the next record of it, without a
read; else there is one read, and a delivery is decoded from its front on. A record that is cut off
and a delivery that claims too much are reported once, an empty or refused read is not, and after
any of these nothing more is read or yielded. What is yielded are the records of the deliveries,
each taken apart on its own, and there are no more of these than one in 49 bytes. -/
theorem entries_faithful (server : Server State) (state : State) (handle : Handle) (path : String)
    (count : Nat) :
    let reader := start handle path
    let turns := turns server reader count state
    (∀ turn ∈ turns, turn.before.handle = handle ∧ turn.before.path = path ∧
      turn.before.Sound ∧ turn.after.Sound ∧ turn.Lawful) ∧
    turns.filterMap (·.entry) ++ leftover reader turns =
      (turns.flatMap (·.exchanges)).flatMap (entries path) ∧
    turns.Pairwise (fun earlier later =>
      (∀ stat, earlier.entry ≠ some (.ok stat)) → later.entry = none ∧ later.exchanges = []) ∧
    (∀ exchange, (entries path exchange).countP Except.isOk ≤ exchange.moved.length / 49) ∧
    ∀ (received buffer : Bytes), received ≠ [] → received.length ≤ buffer.length →
      Exchange.transfer? ⟨.readFrom handle buffer none, ⟨received, .ok received.length⟩⟩ =
        some (.moved received) := by
  have sound := sound_start handle path
  have conserved := turns_conserve sound server count state
  rw [outstanding_of_empty sound rfl] at conserved
  refine ⟨turns_sound sound server count state, conserved,
    turns_pairwise sound server count state, countP_entries path, ?_⟩
  intro received buffer some fits
  exact Exchange.transfer?_of_received some fits handle none

end DirectoryReader

end RemoteTree
