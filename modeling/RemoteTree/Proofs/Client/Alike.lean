import RemoteTree.Client.Step
import RemoteTree.Proofs.Client.Lines
import RemoteTree.Proofs.Server.Exchange
import RemoteTree.Proofs.Table

/-!
# Programs that overlook stale bytes

A read may leave more in its buffer than it claims to have delivered. Two programs are alike when
they make the same requests, up to the bytes of the buffers that they bring, and stay alike after
every two replies that deliver the same. All that can be done with a session is alike in this way
on two sessions that differ only in what their buffers hold, so nothing shows a stale byte.
-/

set_option autoImplicit false

namespace RemoteTree

/-- Two deliveries that claim the same, within the buffers, and bring the same bytes. -/
structure Delivery.Alike (left right : Delivery) (leftBuffer rightBuffer : Bytes) : Prop where
  claimed : left.claimed = right.claimed
  fits : ∀ count, left.claimed = .ok count → count ≤ leftBuffer.length
  bytes : ∀ count, left.claimed = .ok count →
    (Bytes.overlay left.received leftBuffer).take count =
      (Bytes.overlay right.received rightBuffer).take count

namespace Client

variable {First Second Third Fourth : Type}

/-- Programs that make the same requests, with buffers of the same size, and end in related
results wherever their reads deliver the same. -/
inductive Alike (related : First → Second → Prop) : Client First → Client Second → Prop where
  | done {first : First} {second : Second} :
      related first second → Alike related (.done first) (.done second)
  | ask {request : Request} {left : request.Reply → Client First}
      {right : request.Reply → Client Second} :
      request.isRead = false → (∀ reply, Alike related (left reply) (right reply)) →
      Alike related (.ask request left) (.ask request right)
  | read {handle : Handle} {leftBuffer rightBuffer : Bytes} {wait : Option Duration}
      {left : Delivery → Client First} {right : Delivery → Client Second} :
      leftBuffer.length = rightBuffer.length →
      (∀ first second, first.Alike second leftBuffer rightBuffer →
        Alike related (left first) (right second)) →
      Alike related (.ask (.readFrom handle leftBuffer wait) left)
        (.ask (.readFrom handle rightBuffer wait) right)

theorem Alike.andThen {related : First → Second → Prop} {further : Third → Fourth → Prop}
    {left : Client First} {right : Client Second} (alike : Alike related left right)
    {leftNext : First → Client Third} {rightNext : Second → Client Fourth}
    (next : ∀ first second, related first second →
      Alike further (leftNext first) (rightNext second)) :
    Alike further (left.andThen leftNext) (right.andThen rightNext) := by
  induction alike with
  | done same => exact next _ _ same
  | ask noRead _ ih => exact .ask noRead ih
  | read sizes _ ih => exact .read sizes ih

private theorem Alike.mono {related further : First → Second → Prop} {left : Client First}
    {right : Client Second} (alike : Alike related left right)
    (weaker : ∀ first second, related first second → further first second) :
    Alike further left right := by
  induction alike with
  | done same => exact .done (weaker _ _ same)
  | ask noRead _ ih => exact .ask noRead ih
  | read sizes _ ih => exact .read sizes ih

/-! ## Whole transfers -/

private theorem isEmpty_eq_of_length {left right : Bytes} (sizes : left.length = right.length) :
    left.isEmpty = right.isEmpty := by
  cases left <;> cases right <;> simp_all

private theorem collect_alike (handle : Handle) (path : String) (limit : Option Nat) (reads : Nat)
    (collected leftTail rightTail : Bytes) (sizes : leftTail.length = rightTail.length) :
    Alike Eq (collect handle path limit reads collected leftTail)
      (collect handle path limit reads collected rightTail) := by
  induction reads generalizing collected leftTail rightTail with
  | zero => exact .done rfl
  | succ reads ih =>
      have windows : (leftTail.take handle.transferSize).length =
          (rightTail.take handle.transferSize).length := by
        simp only [List.length_take, sizes]
      refine .read windows fun first second alike => ?_
      obtain ⟨claimed, _, bytes⟩ := alike
      cases claims : first.claimed with
      | error source =>
          rw [claims] at claimed
          simp only [← claimed]
          exact .done rfl
      | ok count =>
          rw [claims] at claimed
          cases count with
          | zero =>
              simp only [← claimed]
              exact .done rfl
          | succ count =>
              have tails :
                  ((Bytes.overlay first.received
                    (leftTail.take handle.transferSize)).drop (count + 1) ++
                      leftTail.drop handle.transferSize).length =
                  ((Bytes.overlay second.received
                    (rightTail.take handle.transferSize)).drop (count + 1) ++
                      rightTail.drop handle.transferSize).length := by
                simp only [List.length_append, List.length_drop, Bytes.length_overlay, windows,
                  sizes]
              simp only [← claimed, windows, bytes _ claims, isEmpty_eq_of_length tails]
              split
              · exact .done rfl
              · split
                · exact ih _ _ _ tails
                · split
                  · exact .done rfl
                  · split
                    · exact ih _ _ _ rfl
                    · exact .done rfl

private theorem readCapped_alike (handle : Handle) (path : String) (limit : Option Nat) :
    Alike Eq (readCapped handle path limit) (readCapped handle path limit) := by
  unfold readCapped
  dsimp only
  split
  · exact collect_alike handle path limit _ [] _ _ rfl
  · exact .done rfl

private theorem offer_alike (handle : Handle) (path : String) (writes : Nat) (data : Bytes) :
    Alike Eq (offer handle path writes data) (offer handle path writes data) := by
  induction writes generalizing data with
  | zero => cases data <;> exact .done rfl
  | succ writes ih =>
      cases data with
      | nil => exact .done rfl
      | cons byte rest =>
          refine .ask rfl fun reply => ?_
          cases reply with
          | error source => exact .done rfl
          | ok count =>
              dsimp only
              split
              · exact .done rfl
              · split
                · exact .done rfl
                · exact ih _

private theorem writeAll_alike (handle : Handle) (path : String) (data : Bytes) :
    Alike Eq (writeAll handle path data) (writeAll handle path data) :=
  offer_alike handle path data.length data

end Client

namespace Connection

open Client (Alike)

variable {First Second : Type}

theorem withOpened_alike {related : Except ClientError First → Except ClientError Second → Prop}
    (path : String) (mode : OpenMode) {left : Handle → Client (Except ClientError First)}
    {right : Handle → Client (Except ClientError Second)}
    (refused : ∀ error, related (.error error) (.error error))
    (next : ∀ handle, Alike related (left handle) (right handle)) :
    Alike related (withOpened path mode left) (withOpened path mode right) := by
  refine .ask rfl fun reply => ?_
  cases reply with
  | error source => exact .done (refused _)
  | ok handle => exact next handle

theorem closing_alike {related : First → Second → Prop} (handle : Handle) {left : Client First}
    {right : Client Second} (alike : Alike related left right) :
    Alike related (closing handle left) (closing handle right) :=
  alike.andThen fun _ _ same => .ask rfl fun _ => .done same

theorem read_alike (connection : Connection) (path : String) :
    Alike Eq (connection.read path) (connection.read path) :=
  withOpened_alike path .read (fun _ => rfl) fun handle =>
    closing_alike handle (Client.readCapped_alike handle path _)

theorem write_alike (connection : Connection) (path : String) (data : Bytes) :
    Alike Eq (connection.write path data) (connection.write path data) :=
  withOpened_alike path .write (fun _ => rfl) fun handle =>
    closing_alike handle (Client.writeAll_alike handle path data)

theorem create_alike (connection : Connection) (path : String) (data : Option Bytes) :
    Alike Eq (connection.create path data) (connection.create path data) := by
  refine .ask rfl fun reply => ?_
  cases reply with
  | error source => exact .done rfl
  | ok handle =>
      refine closing_alike handle ?_
      split
      · exact .done rfl
      · exact Client.writeAll_alike handle path _

theorem remove_alike (connection : Connection) (path : String) :
    Alike Eq (connection.remove path) (connection.remove path) :=
  .ask rfl fun _ => .done rfl

theorem stat_alike (connection : Connection) (path : String) :
    Alike Eq (connection.stat path) (connection.stat path) := by
  refine .ask rfl fun reply => ?_
  cases reply with
  | error source => exact .done rfl
  | ok raw => exact .done rfl

end Connection

/-! ## Readers -/

namespace LineReader

open Client (Alike)

/-- A reader without the bytes in its buffer. -/
def seen (reader : LineReader) : LineReader :=
  { reader with buffer := Bytes.zeros reader.buffer.length }

private theorem seen_withBuffer {reader : LineReader} {buffer : Bytes}
    (size : reader.buffer.length = buffer.length) :
    { reader with buffer := buffer }.seen = reader.seen := by
  simp only [seen, size]

/-- Readers that show the same differ in their buffers at most. -/
theorem eq_withBuffer_of_seen {left right : LineReader} (same : left.seen = right.seen) :
    right = { left with buffer := right.buffer } ∧ left.buffer.length = right.buffer.length := by
  simp only [seen, LineReader.mk.injEq, Bytes.zeros, List.replicate_inj] at same
  obtain ⟨handles, paths, ⟨sizes, _⟩, consumed, pending, finished⟩ := same
  exact ⟨by simp only [handles, paths, consumed, pending, finished], sizes⟩

/-- Two waits that ended in the same way, with the same bytes where there are any. -/
structure SameArrival (left right : Arrival × Bytes × Nat) : Prop where
  arrival : left.1 = right.1
  sizes : left.2.1.length = right.2.1.length
  asked : left.2.2 = right.2.2
  bytes : ∀ count, left.1 = .data count → left.2.1.take count = right.2.1.take count

private theorem arrival?_congr {left right : Delivery} {leftBuffer rightBuffer : Bytes}
    (alike : left.Alike right leftBuffer rightBuffer)
    (sizes : leftBuffer.length = rightBuffer.length) :
    arrival? leftBuffer.length left = arrival? rightBuffer.length right := by
  simp only [arrival?, alike.claimed, sizes]

private theorem claimed_of_arrival? {size count : Nat} {delivery : Delivery}
    (arrived : arrival? size delivery = some (.data count)) : delivery.claimed = .ok count := by
  unfold arrival? at arrived
  split at arrived
  · cases arrived
  · next claims =>
    split at arrived
    · cases arrived
    · cases arrived
      exact claims
  · cases arrived
  · cases arrived

private theorem sameArrival_of_arrival? {left right : Delivery} {leftBuffer rightBuffer : Bytes}
    (alike : left.Alike right leftBuffer rightBuffer)
    (sizes : leftBuffer.length = rightBuffer.length) {arrival : Arrival}
    (arrived : arrival? leftBuffer.length left = some arrival) (asked : Nat) :
    SameArrival (arrival, Bytes.overlay left.received leftBuffer, asked)
      (arrival, Bytes.overlay right.received rightBuffer, asked) := by
  refine ⟨rfl, by simp [sizes], rfl, ?_⟩
  rintro count same
  obtain rfl : arrival = .data count := same
  exact alike.bytes count (claimed_of_arrival? arrived)

private theorem await_alike (handle : Handle) (leftBuffer rightBuffer : Bytes)
    (wait : Option Duration) (asked : Nat) (extensions : List Duration)
    (sizes : leftBuffer.length = rightBuffer.length) :
    Alike SameArrival (await handle leftBuffer wait asked extensions)
      (await handle rightBuffer wait asked extensions) := by
  induction extensions generalizing leftBuffer rightBuffer wait asked with
  | nil =>
      refine .read sizes fun first second alike => ?_
      simp only [← arrival?_congr alike sizes]
      cases arrived : arrival? leftBuffer.length first with
      | some arrival => exact .done (sameArrival_of_arrival? alike sizes arrived asked)
      | none => exact .done ⟨rfl, by simp [sizes], rfl, by simp⟩
  | cons extension rest ih =>
      refine .read sizes fun first second alike => ?_
      simp only [← arrival?_congr alike sizes]
      cases arrived : arrival? leftBuffer.length first with
      | some arrival => exact .done (sameArrival_of_arrival? alike sizes arrived asked)
      | none =>
          dsimp only
          split
          · exact .done ⟨rfl, by simp [sizes], rfl, by simp⟩
          · exact ih _ _ _ _ (by simp [sizes])

private theorem awaitWith_alike (handle : Handle) (leftBuffer rightBuffer : Bytes)
    (wait : Option Duration) (extensions : Option (List Duration))
    (sizes : leftBuffer.length = rightBuffer.length) :
    Alike SameArrival (awaitWith handle leftBuffer wait extensions)
      (awaitWith handle rightBuffer wait extensions) := by
  cases extensions with
  | some extensions => exact await_alike handle _ _ wait 0 extensions sizes
  | none =>
      exact (await_alike handle _ _ wait 0 [] sizes).andThen fun _ _ same =>
        .done ⟨same.arrival, same.sizes, rfl, same.bytes⟩

/-- Steps that came to the same, and left readers that show the same. -/
def SameStep {Result : Type} (left right : Result × LineReader) : Prop :=
  left.1 = right.1 ∧ left.2.seen = right.2.seen

private theorem seen_takeLine (reader : LineReader) {buffer : Bytes}
    (size : reader.buffer.length = buffer.length) :
    reader.takeLine.2.seen = { reader with buffer := buffer }.takeLine.2.seen := by
  have kept : reader.takeLine.2.buffer = reader.buffer := by
    have same := takeLine_withBuffer reader reader.buffer
    exact congrArg (fun step => step.2.buffer) same
  rw [takeLine_withBuffer reader buffer]
  exact (seen_withBuffer (by rw [kept, size])).symm

/-- After waits that ended in the same way the same is handed out. -/
theorem arrive_same {reader : LineReader} {buffer : Bytes} {left right : Arrival × Bytes × Nat}
    (same : SameArrival left right) :
    (reader.arrive left).1 = ({ reader with buffer := buffer }.arrive right).1 ∧
      (reader.arrive left).2.1.seen = ({ reader with buffer := buffer }.arrive right).2.1.seen ∧
      (reader.arrive left).2.2 = ({ reader with buffer := buffer }.arrive right).2.2 := by
  obtain ⟨arrival, leftBuffer, asked⟩ := left
  obtain ⟨_, rightBuffer, _⟩ := right
  obtain ⟨arrivals, sizes, asks, bytes⟩ := same
  dsimp only at arrivals sizes asks bytes
  subst arrivals asks
  cases arrival with
  | data count =>
      have filled := takeLine_withBuffer
        { reader with buffer := leftBuffer, consumed := 0, pending := leftBuffer.take count }
        rightBuffer
      simp only [arrive, ← bytes count rfl]
      refine ⟨?_, ?_, trivial⟩
      · rw [filled]
      · exact seen_takeLine
          { reader with buffer := leftBuffer, consumed := 0, pending := leftBuffer.take count }
          sizes
  | timeout => exact ⟨rfl, by simp only [arrive, seen, sizes], rfl⟩
  | nothing => exact ⟨rfl, by simp only [arrive, seen, sizes], rfl⟩

theorem advance_alike {left right : LineReader} (same : left.seen = right.seen)
    (deadline : Option Deadline) :
    Alike
      (fun first second => first.1 = second.1 ∧ first.2.1.seen = second.2.1.seen ∧
        first.2.2 = second.2.2)
      (left.advance deadline) (right.advance deadline) := by
  obtain ⟨rightIs, sizes⟩ := eq_withBuffer_of_seen same
  generalize right.buffer = buffer at rightIs sizes
  subst rightIs
  by_cases finished : left.finished = true
  · rw [advance_of_finished left finished,
      advance_of_finished { left with buffer := buffer } finished]
    exact .done ⟨rfl, same, rfl⟩
  · have live : left.finished = false := by simpa using finished
    by_cases empty : left.pending = []
    · rw [advance_of_empty left live empty,
        advance_of_empty { left with buffer := buffer } live empty]
      exact (awaitWith_alike _ _ _ _ _ sizes).andThen fun _ _ arrivals =>
        .done (arrive_same arrivals)
    · rw [advance_of_pending left live empty,
        advance_of_pending { left with buffer := buffer } live empty]
      refine .done ⟨?_, seen_takeLine left sizes, rfl⟩
      rw [takeLine_withBuffer left buffer]

theorem next_alike {left right : LineReader} (same : left.seen = right.seen) :
    Alike SameStep left.next right.next := by
  refine (advance_alike same none).andThen ?_
  rintro ⟨event, left, asked⟩ ⟨_, right, _⟩ ⟨events, readers, asks⟩
  dsimp only at events readers asks
  subst events asks
  cases event with
  | none => exact .done ⟨rfl, readers⟩
  | some event => cases event <;> exact .done ⟨rfl, readers⟩

theorem take_alike (count : Nat) {left right : LineReader} (same : left.seen = right.seen) :
    Alike SameStep (left.take count) (right.take count) := by
  suffices loops : ∀ lines, Alike SameStep (take.loop count lines left)
      (take.loop count lines right) from loops []
  induction count generalizing left right with
  | zero => exact fun lines => .done ⟨rfl, same⟩
  | succ count ih =>
      intro lines
      refine (next_alike same).andThen ?_
      rintro ⟨line, left⟩ ⟨_, right⟩ ⟨rfl, readers⟩
      cases line with
      | none => exact .done ⟨rfl, readers⟩
      | some line => exact ih readers _

end LineReader

namespace DirectoryReader

open Client (Alike)

/-- A reader without the bytes in its buffer. -/
def seen (reader : DirectoryReader) : DirectoryReader :=
  { reader with buffer := Bytes.zeros reader.buffer.length }

theorem eq_withBuffer_of_seen {left right : DirectoryReader} (same : left.seen = right.seen) :
    right = { left with buffer := right.buffer } ∧ left.buffer.length = right.buffer.length := by
  simp only [seen, DirectoryReader.mk.injEq, Bytes.zeros, List.replicate_inj] at same
  obtain ⟨handles, paths, ⟨sizes, _⟩, consumed, pending, finished⟩ := same
  exact ⟨by simp only [handles, paths, consumed, pending, finished], sizes⟩

def SameStep {Result : Type} (left right : Result × DirectoryReader) : Prop :=
  left.1 = right.1 ∧ left.2.seen = right.2.seen

private theorem decodePending_same (reader : DirectoryReader) (buffer : Bytes)
    (size : reader.buffer.length = buffer.length) :
    SameStep reader.decodePending { reader with buffer := buffer }.decodePending := by
  simp only [decodePending]
  cases Stat.decodeNext ⟨reader.consumed, reader.pending⟩ with
  | error shortfall => exact ⟨rfl, by simp only [seen, size]⟩
  | ok decoded => exact ⟨rfl, by simp only [seen, size]⟩

theorem next_alike {left right : DirectoryReader} (same : left.seen = right.seen) :
    Alike SameStep left.next right.next := by
  obtain ⟨rightIs, sizes⟩ := eq_withBuffer_of_seen same
  generalize right.buffer = buffer at rightIs sizes
  subst rightIs
  unfold next
  split
  · exact .done ⟨rfl, same⟩
  · split
    · obtain ⟨entries, readers⟩ := decodePending_same left buffer sizes
      exact .done ⟨congrArg some entries, readers⟩
    · refine .read sizes fun first second alike => ?_
      obtain ⟨claimed, fits, bytes⟩ := alike
      cases claims : first.claimed with
      | error source =>
          rw [claims] at claimed
          simp only [← claimed]
          exact .done ⟨rfl, by simp only [seen, Bytes.length_overlay, sizes]⟩
      | ok count =>
          rw [claims] at claimed
          cases count with
          | zero =>
              simp only [← claimed]
              exact .done ⟨rfl, by simp only [seen, Bytes.length_overlay, sizes]⟩
          | succ count =>
              have within := fits _ claims
              simp only [← claimed, Bytes.length_overlay, ← bytes _ claims]
              rw [if_neg (by omega), if_neg (by omega)]
              obtain ⟨entries, readers⟩ := decodePending_same
                { left with
                  buffer := Bytes.overlay first.received left.buffer
                  consumed := 0
                  pending := (Bytes.overlay first.received left.buffer).take (count + 1) }
                (Bytes.overlay second.received buffer)
                (by simp only [Bytes.length_overlay, sizes])
              exact .done ⟨congrArg some entries, readers⟩

theorem take_alike (count : Nat) {left right : DirectoryReader} (same : left.seen = right.seen) :
    Alike SameStep (left.take count) (right.take count) := by
  suffices loops : ∀ entries, Alike SameStep (take.loop count entries left)
      (take.loop count entries right) from loops []
  induction count generalizing left right with
  | zero => exact fun entries => .done ⟨rfl, same⟩
  | succ count ih =>
      intro entries
      refine (next_alike same).andThen ?_
      rintro ⟨entry, left⟩ ⟨_, right⟩ ⟨rfl, readers⟩
      cases entry with
      | none => exact .done ⟨rfl, readers⟩
      | some entry => exact ih readers _

end DirectoryReader

end RemoteTree
