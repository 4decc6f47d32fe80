import Mathlib
import RemoteTree.Bytes.Lemmas
import RemoteTree.Proofs.Client.Custody
import RemoteTree.Proofs.Client.Following
import RemoteTree.Server.Script

/-!
# Line readers on servers of all kinds

What the steps of a line reader come to whatever a server answers. Data is handed out in the pieces
between its newlines, the data of one reply after that of another; a read that expires is made again
as long as its deadline is extended; every other answer is the end.
-/

set_option autoImplicit false

namespace RemoteTree

namespace Exchange

/-- The bytes that the answer to a read brings: some, and no more than its buffer holds. -/
def data? : Exchange → Option Bytes
  | ⟨.readFrom _ buffer _, delivery⟩ =>
      match delivery.claimed with
      | .ok count =>
          if 0 < count ∧ count ≤ buffer.length then
            some ((Bytes.overlay delivery.received buffer).take count)
          else none
      | .error _ => none
  | _ => none

/-- Did the time of a read pass? -/
def isExpired : Exchange → Bool
  | ⟨.readFrom _ _ _, delivery⟩ =>
      match delivery.claimed with
      | .error .timedOut => true
      | _ => false
  | _ => false

private theorem data?_of_isExpired {exchange : Exchange} (expired : exchange.isExpired = true) :
    exchange.data? = none := by
  unfold isExpired at expired
  unfold data?
  split at expired
  · split at expired
    · next timedOut => rw [timedOut]
    · cases expired
  · cases expired

private theorem data?_of_received {received buffer : Bytes} (some : received ≠ [])
    (fits : received.length ≤ buffer.length) (handle : Handle) (wait : Option Duration) :
    data? ⟨.readFrom handle buffer wait, ⟨received, .ok received.length⟩⟩ = .some received := by
  have within : 0 < received.length ∧ received.length ≤ buffer.length :=
    ⟨List.length_pos_of_ne_nil some, fits⟩
  simp only [data?]
  rw [if_pos within, Bytes.take_overlay fits]

end Exchange

namespace Deadline

/-- Can a wait under the deadline be extended? -/
def isExtensible : Option Deadline → Bool
  | some deadline => !deadline.after.isZero && deadline.extensions.isSome
  | none => false

/-- The wait of the first read under a deadline. -/
def first (deadline : Option Deadline) : Option Duration :=
  (deadline.map (·.after)).filter (!·.isZero)

/-- The answers to the extensions that are asked for under a deadline. -/
def answers (deadline : Option Deadline) : List Duration :=
  if isExtensible deadline then (deadline.bind (·.extensions)).getD [] else []

/-- The answer to the extension of a number. Where no answer is laid down there is no extension. -/
def answer (answers : List Duration) (index : Nat) : Duration := answers[index]?.getD .zero

/-- The wait of the read of a number. -/
def bound (wait : Option Duration) (answers : List Duration) : Nat → Option Duration
  | 0 => wait
  | index + 1 => some (answer answers index)

private theorem waits_eq (deadline : Option Deadline) :
    waits deadline =
      (first deadline, if isExtensible deadline then some (answers deadline) else none) := by
  rcases deadline with _ | ⟨after, extensions⟩
  · rfl
  · cases zero : after.isZero with
    | true => simp [waits, first, isExtensible, Option.filter, zero]
    | false => cases extensions <;> simp [waits, first, answers, isExtensible, Option.filter, zero]

end Deadline

namespace LineReader

open Deadline (answer bound)

/-! ## Pieces -/

/-- The bytes between newlines, those behind the last one only if there are any. -/
def pieces (bytes : Bytes) : List Bytes :=
  let parts := bytes.splitOn newline
  if parts.getLast? = some [] then parts.dropLast else parts

/-- The lines of some bytes. -/
def items (bytes : Bytes) : List String := (pieces bytes).map Utf8.decodeLossy

private theorem eq_newline_of_plain {piece : Bytes} (plain : newline ∉ piece) :
    ∀ byte ∈ piece, (byte == newline) = false := by
  intro byte member
  exact beq_eq_false_iff_ne.mpr (ne_of_mem_of_not_mem member plain)

private theorem items_of_plain {bytes : Bytes} (some : bytes ≠ []) (plain : newline ∉ bytes) :
    items bytes = [Utf8.decodeLossy bytes] := by
  have parts : bytes.splitOn newline = [bytes] :=
    List.splitOnP_eq_singleton (eq_newline_of_plain plain)
  simp [items, pieces, parts, some]

private theorem items_append_newline {piece : Bytes} (plain : newline ∉ piece) (rest : Bytes) :
    items (piece ++ newline :: rest) = Utf8.decodeLossy piece :: items rest := by
  have parts : (piece ++ newline :: rest).splitOn newline = piece :: rest.splitOn newline :=
    List.splitOnP_append_cons_of_forall_mem (eq_newline_of_plain plain) newline
      (beq_self_eq_true _) rest
  have more : rest.splitOn newline ≠ [] := List.splitOnP_ne_nil _ _
  simp only [items, pieces, parts, List.getLast?_cons_of_ne_nil more,
    List.dropLast_cons_of_ne_nil more]
  split
  · rfl
  · rfl

private theorem takeWhile_of_plain {piece : Bytes} (plain : newline ∉ piece) (rest : Bytes) :
    (piece ++ rest).takeWhile (· != newline) = piece ++ rest.takeWhile (· != newline) := by
  apply List.takeWhile_append_of_pos
  intro byte member
  exact bne_iff_ne.mpr (ne_of_mem_of_not_mem member plain)

/-- A reader hands out the first line of what is pending, and the others stay pending. -/
theorem takeLine_items (reader : LineReader) (some : reader.pending ≠ []) :
    ∃ line count, count ≤ reader.pending.length ∧
      reader.takeLine = (line, { reader with
        consumed := reader.consumed + count
        pending := reader.pending.drop count }) ∧
      items reader.pending = line :: items (reader.pending.drop count) := by
  obtain ⟨handle, path, buffer, consumed, pending, finished⟩ := reader
  by_cases more : newline ∈ pending
  · obtain ⟨piece, rest, rfl, plain⟩ := List.eq_append_cons_of_mem more
    have first : (piece ++ newline :: rest).takeWhile (· != newline) = piece := by
      rw [takeWhile_of_plain plain, List.takeWhile_cons_of_neg (by simp), List.append_nil]
    refine ⟨Utf8.decodeLossy piece, piece.length + 1, ?_, ?_, ?_⟩
    · simp
    · simp [takeLine, first, Nat.add_assoc]
    · rw [items_append_newline plain]
      simp
  · have first : pending.takeWhile (· != newline) = pending := by
      have whole := takeWhile_of_plain more []
      rwa [List.append_nil, List.takeWhile_nil, List.append_nil] at whole
    refine ⟨Utf8.decodeLossy pending, pending.length, Nat.le_refl _, ?_, ?_⟩
    · simp [takeLine, first]
    · rw [items_of_plain some more, List.drop_length]
      rfl

/-! ## Waiting -/

/-- The reads of one wait for a delivery, with the answers to the extensions asked for. There is
another read exactly where one expires and is extended, and the extension bounds it. -/
structure Waits (handle : Handle) (size : Nat) (wait : Option Duration) (answers : List Duration)
    (log : List Exchange) : Prop where
  reads : ∀ (index : Nat) (exchange : Exchange), log[index]? = some exchange →
    ∃ buffer : Bytes, buffer.length = size ∧
      exchange.request = .readFrom handle buffer (bound wait answers index)
  again : ∀ (index : Nat) (exchange : Exchange), log[index]? = some exchange →
    (index + 1 < log.length ↔
      exchange.isExpired = true ∧ (answer answers index).isZero = false)

variable {handle : Handle} {size : Nat} {wait : Option Duration} {buffer : Bytes}
  {delivery : Delivery} {exchange : Exchange} {log : List Exchange} {extension : Duration}
  {answers : List Duration}

private theorem Waits.single
    (last : Exchange.isExpired ⟨.readFrom handle buffer wait, delivery⟩ = true →
      (answer answers 0).isZero = true) :
    Waits handle buffer.length wait answers [⟨.readFrom handle buffer wait, delivery⟩] := by
  constructor
  · rintro (_ | index) exchange found
    · cases found
      exact ⟨buffer, rfl, rfl⟩
    · cases found
  · rintro (_ | index) exchange found
    · cases found
      simpa using last
    · cases found

private theorem Waits.cons
    (expired : Exchange.isExpired ⟨.readFrom handle buffer wait, delivery⟩ = true)
    (extended : extension.isZero = false) (some : log ≠ [])
    (waits : Waits handle buffer.length (.some extension) answers log) :
    Waits handle buffer.length wait (extension :: answers)
      (⟨.readFrom handle buffer wait, delivery⟩ :: log) := by
  constructor
  · rintro (_ | index) exchange found
    · cases found
      exact ⟨buffer, rfl, rfl⟩
    · obtain ⟨other, same, request⟩ := waits.reads index exchange found
      refine ⟨other, same, request.trans ?_⟩
      cases index with
      | zero => rfl
      | succ index => rfl
  · rintro (_ | index) exchange found
    · cases found
      have more := List.length_pos_of_ne_nil some
      simpa [expired, answer, extended] using more
    · have later := waits.again index exchange found
      rw [List.length_cons, Nat.add_lt_add_iff_right, later]
      rfl

/-- What the last read of a wait comes to, with the buffer as it is then. -/
inductive Brings (exchange : Exchange) (filled : Bytes) : Arrival → Prop where
  | data {bytes : Bytes} (some : bytes ≠ []) (brought : exchange.data? = .some bytes)
      (front : filled.take bytes.length = bytes) : Brings exchange filled (.data bytes.length)
  | timeout (expired : exchange.isExpired = true) : Brings exchange filled .timeout
  | nothing (fails : exchange.isExpired = false) (none : exchange.data? = .none) :
      Brings exchange filled .nothing

private theorem brings_arrival (handle : Handle) (wait : Option Duration) (buffer : Bytes)
    (delivery : Delivery) :
    Brings ⟨.readFrom handle buffer wait, delivery⟩ (Bytes.overlay delivery.received buffer)
      ((arrival? buffer.length delivery).getD .timeout) := by
  obtain ⟨received, claimed⟩ := delivery
  rcases claimed with (_ | _) | (_ | count)
  · exact .nothing rfl rfl
  · exact .timeout rfl
  · exact .nothing rfl rfl
  · by_cases within : count + 1 ≤ buffer.length
    · have arrives :
          arrival? buffer.length ⟨received, .ok (count + 1)⟩ = some (.data (count + 1)) :=
        if_neg (Nat.not_lt.mpr within)
      have brought : Exchange.data? ⟨.readFrom handle buffer wait, ⟨received, .ok (count + 1)⟩⟩ =
          some ((Bytes.overlay received buffer).take (count + 1)) :=
        if_pos ⟨Nat.succ_pos count, within⟩
      have length : ((Bytes.overlay received buffer).take (count + 1)).length = count + 1 := by
        rw [List.length_take, Bytes.length_overlay, Nat.min_eq_left within]
      have data := Brings.data (List.ne_nil_of_length_eq_add_one length) brought
        (by rw [length])
      rw [length] at data
      rw [arrives]
      exact data
    · have arrives : arrival? buffer.length ⟨received, .ok (count + 1)⟩ = some .nothing :=
        if_pos (Nat.lt_of_not_le within)
      rw [arrives]
      exact .nothing rfl (if_neg fun both => within both.2)

private theorem arrival?_eq_none_iff (handle : Handle) (wait : Option Duration) (buffer : Bytes)
    (delivery : Delivery) :
    arrival? buffer.length delivery = none ↔
      Exchange.isExpired ⟨.readFrom handle buffer wait, delivery⟩ = true := by
  obtain ⟨received, claimed⟩ := delivery
  rcases claimed with (_ | _) | (_ | count)
  · simp [arrival?, Exchange.isExpired]
  · simp [arrival?, Exchange.isExpired]
  · simp [arrival?, Exchange.isExpired]
  · simp only [arrival?, Exchange.isExpired]
    split
    · simp
    · simp

/-- How a wait goes: what it asks of the server, and what it comes to. -/
structure Awaited (handle : Handle) (size : Nat) (wait : Option Duration)
    (answers : List Duration) (log : List Exchange) (arrival : Arrival) (filled : Bytes) :
    Prop where
  waits : Waits handle size wait answers log
  last : ∃ exchange, log.getLast? = some exchange ∧ Brings exchange filled arrival
  size : filled.length = size

variable {State : Type} {arrival : Arrival} {filled : Bytes}

private theorem Awaited.single {outcome : Option Arrival}
    (arrives : arrival? buffer.length delivery = outcome)
    (last : Exchange.isExpired ⟨.readFrom handle buffer wait, delivery⟩ = true →
      (answer answers 0).isZero = true) :
    Awaited handle buffer.length wait answers [⟨.readFrom handle buffer wait, delivery⟩]
      (outcome.getD .timeout) (Bytes.overlay delivery.received buffer) := by
  subst arrives
  exact ⟨.single last, ⟨_, rfl, brings_arrival handle wait buffer delivery⟩,
    Bytes.length_overlay ..⟩

private theorem Awaited.cons
    (expired : Exchange.isExpired ⟨.readFrom handle buffer wait, delivery⟩ = true)
    (extended : extension.isZero = false)
    (awaited : Awaited handle buffer.length (.some extension) answers log arrival filled) :
    Awaited handle buffer.length wait (extension :: answers)
      (⟨.readFrom handle buffer wait, delivery⟩ :: log) arrival filled := by
  obtain ⟨exchange, last, brings⟩ := awaited.last
  have some : log ≠ [] := by
    rintro rfl
    cases last
  refine ⟨awaited.waits.cons expired extended some, ⟨exchange, ?_, brings⟩, awaited.size⟩
  rw [List.getLast?_cons_of_ne_nil some]
  exact last

private theorem awaited_once {outcome : Option Arrival} (asked : Nat)
    (arrives : arrival? buffer.length delivery = outcome)
    (last : Exchange.isExpired ⟨.readFrom handle buffer wait, delivery⟩ = true →
      (answer answers 0).isZero = true) :
    ∃ arrival filled log, [⟨.readFrom handle buffer wait, delivery⟩] = log ∧
      (outcome.getD .timeout, Bytes.overlay delivery.received buffer,
          if outcome = none then asked + 1 else asked) =
        (arrival, filled, asked + log.countP Exchange.isExpired) ∧
      Awaited handle buffer.length wait answers log arrival filled := by
  have expires := arrival?_eq_none_iff handle wait buffer delivery
  refine ⟨_, _, _, rfl, ?_, .single arrives last⟩
  rw [List.countP_singleton, ← arrives]
  simp only [expires]
  split
  · rfl
  · rfl

/-- A wait goes as it should, and asks for as many extensions as reads expire. -/
theorem await_awaited (server : Server State) (handle : Handle) (buffer : Bytes)
    (wait : Option Duration) (asked : Nat) (answers : List Duration) (state : State) :
    ∃ arrival filled log,
      (await handle buffer wait asked answers).exchanges server state = log ∧
      ((await handle buffer wait asked answers).run server state).1 =
        (arrival, filled, asked + log.countP Exchange.isExpired) ∧
      Awaited handle buffer.length wait answers log arrival filled := by
  -- Each extension uses up one answer, and what the expired read left in the buffer stays there.
  induction answers generalizing buffer wait asked state with
  | nil =>
      rcases answered : server.answer (.readFrom handle buffer wait) state with ⟨delivery, later⟩
      simp only [await, Client.exchanges, Client.run, answered]
      cases arrives : arrival? buffer.length delivery with
      | none => exact awaited_once asked arrives fun _ => rfl
      | some arrival => exact awaited_once asked arrives fun _ => rfl
  | cons extension answers ih =>
      rcases answered : server.answer (.readFrom handle buffer wait) state with ⟨delivery, later⟩
      have expires := arrival?_eq_none_iff handle wait buffer delivery
      simp only [await, Client.exchanges, Client.run, answered]
      cases arrives : arrival? buffer.length delivery with
      | none =>
          have expired := expires.mp arrives
          dsimp only
          split
          · next ended => exact awaited_once asked arrives fun _ => ended
          · next extended =>
            obtain ⟨arrival, filled, log, exchanged, ran, awaited⟩ :=
              ih (Bytes.overlay delivery.received buffer) (some extension) (asked + 1) later
            rw [Bytes.length_overlay] at awaited
            rw [exchanged, ran]
            refine ⟨arrival, filled, _, rfl, ?_,
              awaited.cons expired (Bool.eq_false_of_not_eq_true extended)⟩
            rw [List.countP_cons_of_pos expired, Nat.add_right_comm, Nat.add_assoc]
      | some arrival =>
          simp only [arrives, reduceCtorEq, false_iff] at expires
          exact awaited_once asked arrives fun expired => absurd expired expires

private theorem awaitWith_awaited (server : Server State) (handle : Handle) (buffer : Bytes)
    (deadline : Option Deadline) (state : State) :
    ∃ arrival filled log,
      (awaitWith handle buffer (Deadline.waits deadline).1
        (Deadline.waits deadline).2).exchanges server state = log ∧
      ((awaitWith handle buffer (Deadline.waits deadline).1
        (Deadline.waits deadline).2).run server state).1 =
          (arrival, filled,
            if Deadline.isExtensible deadline then log.countP Exchange.isExpired else 0) ∧
      Awaited handle buffer.length (Deadline.first deadline) (Deadline.answers deadline) log arrival
        filled := by
  obtain ⟨arrival, filled, log, exchanged, ran, awaited⟩ := await_awaited server handle buffer
    (Deadline.first deadline) 0 (Deadline.answers deadline) state
  rw [Deadline.waits_eq]
  cases extensible : Deadline.isExtensible deadline with
  | true =>
      rw [Nat.zero_add] at ran
      exact ⟨arrival, filled, log, exchanged, ran, awaited⟩
  | false =>
      have none : Deadline.answers deadline = [] := by simp [Deadline.answers, extensible]
      rw [none] at exchanged ran awaited ⊢
      refine ⟨arrival, filled, log, ?_, ?_, awaited⟩
      · simp only [Bool.false_eq_true, ↓reduceIte, awaitWith, Client.exchanges_andThen,
          Client.exchanges, List.append_nil, exchanged]
      · simp only [Bool.false_eq_true, ↓reduceIte, awaitWith, Client.run_andThen, Client.run, ran]

/-! ## Steps -/

/-- One step of a reader under a deadline: what it asked of the server, what it yielded, how many
extensions it asked for, and the reader before and after it. -/
structure Turn where
  deadline : Option Deadline
  before : LineReader
  exchanges : List Exchange
  event : Option LineEvent
  asked : Nat
  after : LineReader

def turn (reader : LineReader) (server : Server State) (deadline : Option Deadline)
    (state : State) : Turn :=
  let outcome := ((reader.advance deadline).run server state).1
  { deadline := deadline
    before := reader
    exchanges := (reader.advance deadline).exchanges server state
    event := outcome.1
    asked := outcome.2.2
    after := outcome.2.1 }

/-- The steps of a reader under some deadlines, one after the other. -/
def turns (server : Server State) : LineReader → List (Option Deadline) → State → List Turn
  | _, [], _ => []
  | reader, deadline :: rest, state =>
      let turn := reader.turn server deadline state
      turn :: turns server turn.after rest ((reader.advance deadline).run server state).2

/-- What is known of a reader of an open file at all times. What is pending is part of what the
buffer holds. -/
structure Sound (reader : LineReader) : Prop where
  capacity : reader.buffer.length = reader.handle.transferSize
  within : reader.consumed + reader.pending.length ≤ reader.buffer.length
  window : reader.pending = (reader.buffer.drop reader.consumed).take reader.pending.length
  ended : reader.finished = true → reader.pending = []

/-- What the last answer of a wait makes of a step. -/
structure Turn.Decided (turn : Turn) (last : Exchange) : Prop where
  expired : last.isExpired = true →
    turn.event = some .timeout ∧ turn.after.pending = [] ∧ turn.after.finished = false
  data : ∀ data, last.data? = some data → ∃ line, turn.event = some (.line line) ∧
    items data = line :: items turn.after.pending ∧ turn.after.finished = false
  ended : last.isExpired = false → last.data? = none →
    turn.event = none ∧ turn.after.finished = true

/-- The course of a step: after the end there is nothing, what is pending is handed out without a
read, and else there is a wait, the last answer of which decides. -/
structure Turn.Lawful (turn : Turn) : Prop where
  handle : turn.after.handle = turn.before.handle
  ended : turn.before.finished = true →
    turn.event = none ∧ turn.exchanges = [] ∧ turn.asked = 0 ∧ turn.after = turn.before
  pending : turn.before.pending ≠ [] → turn.exchanges = [] ∧ turn.asked = 0 ∧
    turn.after.finished = false ∧ ∃ line, turn.event = some (.line line) ∧
      items turn.before.pending = line :: items turn.after.pending
  reads : turn.before.finished = false → turn.before.pending = [] →
    Waits turn.before.handle turn.before.buffer.length (Deadline.first turn.deadline)
      (Deadline.answers turn.deadline) turn.exchanges ∧
    turn.asked = (if Deadline.isExtensible turn.deadline then
      turn.exchanges.countP Exchange.isExpired else 0) ∧
    ∃ last, turn.exchanges.getLast? = some last ∧ turn.Decided last

variable {reader : LineReader}

private theorem sound_start (handle : Handle) (path : String) : (start handle path).Sound :=
  ⟨List.length_replicate, Nat.zero_le _, rfl, fun _ => rfl⟩

private theorem Sound.drop (sound : reader.Sound) (live : reader.finished = false) {count : Nat}
    (few : count ≤ reader.pending.length) :
    { reader with
      consumed := reader.consumed + count
      pending := reader.pending.drop count }.Sound := by
  have within := sound.within
  refine ⟨sound.capacity, ?_, ?_, fun ended => ?_⟩
  · dsimp only
    rw [List.length_drop]
    omega
  · dsimp only
    rw [List.length_drop, ← List.drop_drop, ← List.drop_take, ← sound.window]
  · cases live.symm.trans ended

private theorem turn_of_finished (sound : reader.Sound) (ended : reader.finished = true)
    (server : Server State) (deadline : Option Deadline) (state : State) :
    (reader.turn server deadline state).Lawful ∧
      (reader.turn server deadline state).after.Sound := by
  simp only [turn, advance_of_finished reader ended, Client.run, Client.exchanges]
  refine ⟨⟨rfl, fun _ => ⟨rfl, rfl, rfl, rfl⟩, fun pending => ?_, fun live => ?_⟩, sound⟩
  · exact absurd (sound.ended ended) pending
  · cases live.symm.trans ended

private theorem turn_of_pending (sound : reader.Sound) (live : reader.finished = false)
    (pending : reader.pending ≠ []) (server : Server State) (deadline : Option Deadline)
    (state : State) :
    (reader.turn server deadline state).Lawful ∧
      (reader.turn server deadline state).after.Sound := by
  obtain ⟨line, count, few, taken, split⟩ := reader.takeLine_items pending
  simp only [turn, advance_of_pending reader live pending, taken, Client.run, Client.exchanges]
  refine ⟨⟨rfl, fun ended => ?_, fun _ => ⟨rfl, rfl, live, line, rfl, split⟩, fun _ empty => ?_⟩,
    sound.drop live few⟩
  · cases live.symm.trans ended
  · exact absurd empty pending

/-- A delivery starts a new window at the front of the buffer. -/
theorem Sound.refill (sound : reader.Sound) (live : reader.finished = false) {filled data : Bytes}
    (size : filled.length = reader.buffer.length) (front : filled.take data.length = data) :
    { reader with buffer := filled, consumed := 0, pending := data }.Sound := by
  have fits : data.length ≤ filled.length := by
    rw [← front]
    exact List.length_take_le' ..
  refine ⟨size.trans sound.capacity, ?_, front.symm, fun ended => ?_⟩
  · rwa [Nat.zero_add]
  · cases live.symm.trans ended

private theorem arrive_decided (sound : reader.Sound) (live : reader.finished = false)
    (size : filled.length = reader.buffer.length) (brings : Brings exchange filled arrival)
    (deadline : Option Deadline) (log : List Exchange) (asked : Nat) :
    let (event, after, asked) := reader.arrive (arrival, filled, asked)
    Turn.Decided ⟨deadline, reader, log, event, asked, after⟩ exchange ∧ after.Sound ∧
      after.handle = reader.handle := by
  cases brings with
  | @data bytes some brought front =>
      have full := sound.refill live size front
      obtain ⟨line, count, few, taken, split⟩ := takeLine_items
        { reader with buffer := filled, consumed := 0, pending := bytes } some
      simp only [arrive, front, taken]
      refine ⟨⟨fun expired => ?_, fun data brings => ?_, fun _ none => ?_⟩, full.drop live few,
        trivial⟩
      · cases brought.symm.trans (Exchange.data?_of_isExpired expired)
      · cases brought.symm.trans brings
        exact ⟨line, rfl, split, live⟩
      · cases brought.symm.trans none
  | timeout expired =>
      have none := Exchange.data?_of_isExpired expired
      refine ⟨⟨fun _ => ⟨rfl, rfl, live⟩, fun data brings => ?_, fun fails => ?_⟩,
        sound.refill live size rfl, rfl⟩
      · cases none.symm.trans brings
      · cases expired.symm.trans fails
  | nothing fails none =>
      have capacity := size.trans sound.capacity
      refine ⟨⟨fun expired => ?_, fun data brings => ?_, fun _ _ => ⟨rfl, rfl⟩⟩,
        ⟨capacity, Nat.zero_le _, rfl, fun _ => rfl⟩, rfl⟩
      · cases fails.symm.trans expired
      · cases none.symm.trans brings

private theorem arrive_asked (reader : LineReader) (arrival : Arrival) (filled : Bytes)
    (asked : Nat) : (reader.arrive (arrival, filled, asked)).2.2 = asked := by
  cases arrival <;> rfl

private theorem turn_of_empty (sound : reader.Sound) (live : reader.finished = false)
    (empty : reader.pending = []) (server : Server State) (deadline : Option Deadline)
    (state : State) :
    (reader.turn server deadline state).Lawful ∧
      (reader.turn server deadline state).after.Sound := by
  obtain ⟨arrival, filled, log, exchanged, ran, awaited⟩ :=
    awaitWith_awaited server reader.handle reader.buffer deadline state
  obtain ⟨last, final, brings⟩ := awaited.last
  simp only [turn, advance_of_empty reader live empty, Client.run_andThen,
    Client.exchanges_andThen, Client.run, Client.exchanges, List.append_nil, exchanged, ran]
  obtain ⟨decided, after, handle⟩ :=
    arrive_decided sound live awaited.size brings deadline log
      (if Deadline.isExtensible deadline then log.countP Exchange.isExpired else 0)
  refine ⟨⟨handle, fun ended => ?_, fun pending => absurd empty pending, fun _ _ => ?_⟩, after⟩
  · cases live.symm.trans ended
  · exact ⟨awaited.waits, reader.arrive_asked .., last, final, decided⟩

private theorem turn_lawful (sound : reader.Sound) (server : Server State)
    (deadline : Option Deadline) (state : State) :
    (reader.turn server deadline state).Lawful ∧
      (reader.turn server deadline state).after.Sound := by
  cases live : reader.finished with
  | true => exact turn_of_finished sound live server deadline state
  | false =>
      by_cases empty : reader.pending = []
      · exact turn_of_empty sound live empty server deadline state
      · exact turn_of_pending sound live empty server deadline state

/-! ## Runs -/

/-- Of the reads of a wait only the last can bring anything. -/
theorem Waits.data?_eq (waits : Waits handle size wait answers log)
    (last : log.getLast? = some exchange) :
    log.filterMap Exchange.data? = exchange.data?.toList := by
  obtain ⟨earlier, rfl⟩ := List.getLast?_eq_some_iff.mp last
  -- There is a read after each of these, so they have expired.
  have nothing : earlier.filterMap Exchange.data? = [] := by
    rw [List.filterMap_eq_nil_iff]
    intro other member
    obtain ⟨index, found⟩ := List.mem_iff_getElem?.mp member
    have before : index < earlier.length := (List.getElem?_eq_some_iff.mp found).1
    have there : (earlier ++ [exchange])[index]? = some other := by
      rw [List.getElem?_append_left before, found]
    have again := (waits.again index other there).mp
    rw [List.length_append, List.length_singleton] at again
    exact Exchange.data?_of_isExpired (again (Nat.succ_lt_succ before)).1
  rw [List.filterMap_append, nothing, List.nil_append, List.filterMap_cons, List.filterMap_nil]
  cases exchange.data? <;> rfl

variable {turn : Turn}

/-- What was pending before a step, and then what the step read, is handed out or pending after
it. -/
theorem Turn.Lawful.conserves (lawful : turn.Lawful) (sound : turn.after.Sound) :
    linesOf [turn.event] ++ items turn.after.pending =
      items turn.before.pending ++ (turn.exchanges.filterMap Exchange.data?).flatMap items := by
  cases live : turn.before.finished with
  | true =>
      obtain ⟨event, exchanges, -, same⟩ := lawful.ended live
      rw [event, exchanges, same]
      exact (List.append_nil _).symm
  | false =>
      by_cases empty : turn.before.pending = []
      · obtain ⟨waits, -, last, final, decided⟩ := lawful.reads live empty
        rw [waits.data?_eq final, empty]
        cases expired : last.isExpired with
        | true =>
            obtain ⟨event, pending, -⟩ := decided.expired expired
            rw [event, pending, Exchange.data?_of_isExpired expired]
            rfl
        | false =>
            cases brings : last.data? with
            | some data =>
                obtain ⟨line, event, split, -⟩ := decided.data data brings
                rw [event, Option.toList_some, List.flatMap_singleton, split]
                rfl
            | none =>
                obtain ⟨event, ended⟩ := decided.ended expired brings
                rw [event, sound.ended ended]
                rfl
      · obtain ⟨exchanges, -, -, line, event, split⟩ := lawful.pending empty
        rw [exchanges, event, split]
        exact (List.append_nil _).symm

private theorem Turn.Lawful.stops (lawful : turn.Lawful) (stopped : turn.event = none) :
    turn.after.finished = true := by
  cases live : turn.before.finished with
  | true =>
      obtain ⟨-, -, -, same⟩ := lawful.ended live
      rw [same, live]
  | false =>
      by_cases empty : turn.before.pending = []
      · obtain ⟨-, -, last, -, decided⟩ := lawful.reads live empty
        cases expired : last.isExpired with
        | true => cases stopped.symm.trans (decided.expired expired).1
        | false =>
            cases brings : last.data? with
            | some data =>
                obtain ⟨line, event, -⟩ := decided.data data brings
                cases stopped.symm.trans event
            | none => exact (decided.ended expired brings).2
      · obtain ⟨-, -, -, line, event, -⟩ := lawful.pending empty
        cases stopped.symm.trans event

/-- What is still pending after some steps of a reader. -/
def leftover (reader : LineReader) (turns : List Turn) : Bytes :=
  (turns.getLast?.map (·.after.pending)).getD reader.pending

private theorem leftover_cons (reader : LineReader) (turn : Turn) (rest : List Turn) :
    leftover reader (turn :: rest) = leftover turn.after rest := by
  rw [leftover, leftover, List.getLast?_cons]
  cases rest.getLast? <;> rfl

private theorem turns_sound (sound : reader.Sound) (server : Server State)
    (deadlines : List (Option Deadline)) (state : State) :
    ∀ turn ∈ turns server reader deadlines state, turn.before.handle = reader.handle ∧
      turn.before.Sound ∧ turn.after.Sound ∧ turn.Lawful := by
  induction deadlines generalizing reader state with
  | nil => exact fun turn member => absurd member (List.not_mem_nil)
  | cons deadline rest ih =>
      obtain ⟨lawful, after⟩ := turn_lawful sound server deadline state
      intro turn member
      rcases List.mem_cons.mp member with rfl | later
      · exact ⟨rfl, sound, after, lawful⟩
      · obtain ⟨handle, known⟩ := ih after _ turn later
        exact ⟨handle.trans lawful.handle, known⟩

/-- What is read is handed out or still pending, nothing else is, and nothing twice. -/
theorem turns_conserve (sound : reader.Sound) (server : Server State)
    (deadlines : List (Option Deadline)) (state : State) :
    let turns := turns server reader deadlines state
    linesOf (turns.map (·.event)) ++ items (leftover reader turns) =
      items reader.pending ++
        ((turns.flatMap (·.exchanges)).filterMap Exchange.data?).flatMap items := by
  induction deadlines generalizing reader state with
  | nil => exact (List.append_nil _).symm
  | cons deadline rest ih =>
      obtain ⟨lawful, after⟩ := turn_lawful sound server deadline state
      have here := lawful.conserves after
      have later := ih after ((reader.advance deadline).run server state).2
      have split (event : Option LineEvent) (events : List (Option LineEvent)) :
          linesOf (event :: events) = linesOf [event] ++ linesOf events :=
        List.filterMap_append (l := [event])
      unfold turns
      dsimp only at later ⊢
      rw [leftover_cons, List.map_cons, split, List.flatMap_cons, List.filterMap_append,
        List.flatMap_append, List.append_assoc, later, ← List.append_assoc, here,
        List.append_assoc]
      rfl

private theorem turns_of_finished (sound : reader.Sound) (ended : reader.finished = true)
    (server : Server State) (deadlines : List (Option Deadline)) (state : State) :
    ∀ turn ∈ turns server reader deadlines state, turn.event = none ∧ turn.exchanges = [] := by
  induction deadlines generalizing reader state with
  | nil => exact fun turn member => absurd member (List.not_mem_nil)
  | cons deadline rest ih =>
      obtain ⟨lawful, after⟩ := turn_lawful sound server deadline state
      obtain ⟨event, exchanges, -, same⟩ := lawful.ended ended
      intro turn member
      rcases List.mem_cons.mp member with rfl | later
      · exact ⟨event, exchanges⟩
      · exact ih after (same ▸ ended) _ turn later

private theorem turns_pairwise (sound : reader.Sound) (server : Server State)
    (deadlines : List (Option Deadline)) (state : State) :
    (turns server reader deadlines state).Pairwise fun earlier later =>
      earlier.event = none → later.event = none ∧ later.exchanges = [] := by
  induction deadlines generalizing reader state with
  | nil => exact .nil
  | cons deadline rest ih =>
      obtain ⟨lawful, after⟩ := turn_lawful sound server deadline state
      refine .cons (fun later member stopped => ?_) (ih after _)
      exact turns_of_finished after (lawful.stops stopped) server rest _ later member

/-- What a reader by lines does on any server, whatever it answers and whatever the deadlines are.
A reader never holds more than its buffer. While something is pending a step hands out the next
line of it without a read; else it reads, once more for every read that expires and is extended,
and data, an expired read and every other answer make a line, a timeout and the end of it. The
lines are those of the deliveries, each taken apart on its own and without what was in the buffer
before, and after the end nothing more is read. -/
theorem turns_lawful (server : Server State) (state : State) (handle : Handle) (path : String)
    (deadlines : List (Option Deadline)) :
    let reader := start handle path
    let turns := turns server reader deadlines state
    (∀ turn ∈ turns, turn.before.handle = handle ∧ turn.before.Sound ∧ turn.after.Sound ∧
      turn.Lawful) ∧
    linesOf (turns.map (·.event)) ++ items (leftover reader turns) =
      ((turns.flatMap (·.exchanges)).filterMap Exchange.data?).flatMap items ∧
    turns.Pairwise (fun earlier later =>
      earlier.event = none → later.event = none ∧ later.exchanges = []) ∧
    ∀ (received buffer : Bytes) (wait : Option Duration), received ≠ [] →
      received.length ≤ buffer.length →
        Exchange.data? ⟨.readFrom handle buffer wait, ⟨received, .ok received.length⟩⟩ =
          some received := by
  have sound := sound_start handle path
  refine ⟨turns_sound sound server deadlines state, turns_conserve sound server deadlines state,
    turns_pairwise sound server deadlines state, ?_⟩
  intro received buffer wait some fits
  exact Exchange.data?_of_received some fits handle wait

/-- A read that expires and is extended, and then a delivery in two lines. -/
example :
    let script : Script := { reads := [⟨[], .error .timedOut⟩, ⟨[97, 10, 98, 99], .ok 4⟩] }
    let deadline : Deadline := ⟨.seconds 1, some [.seconds 1]⟩
    let ((event, reader, asked), played) :=
      ((start ⟨1, 4, 0⟩ "/s").advance deadline).run Script.server script
    (event, reader.pending, asked, played.asked.length) =
      (some (.line "a"), [98, 99], 1, 2) := by
  decide +kernel

end LineReader

end RemoteTree
