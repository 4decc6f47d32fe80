import RemoteTree.Client.Connection
import RemoteTree.Proofs.Client.Rounds
import RemoteTree.Proofs.Tree.Reading

/-!
# Whole transfers on servers of all kinds

What writing all of some data and reading a file at once come to, whatever a server answers. Both
are loops of transfers in which the last answer decides.
-/

set_option autoImplicit false

namespace RemoteTree.Client

variable {State : Type}

/-! ## Writing -/

/-- The write that is due when some bytes have been taken offers all that is left. -/
def Offers (handle : Handle) (data taken : Bytes) (request : Request) : Prop :=
  ∃ left, left ≠ [] ∧ data = taken ++ left ∧ request = .writeTo handle left

/-- How writing all of some data goes. -/
structure Offered (handle : Handle) (path : String) (data : Bytes) (log : List Exchange)
    (result : Except ClientError Unit) : Prop where
  course : Course (Offers handle data) log
  decided : result = resultOfWrites path (ending log)
  taken : moved log <+: data
  whole : result = .ok () ↔ (moved log).length = data.length
  few : log.length ≤ data.length

namespace Offered

variable {handle : Handle} {path : String} {data bytes left : Bytes} {log : List Exchange}
  {result : Except ClientError Unit} {reply : Except Refusal Nat}

private theorem nothing (handle : Handle) (path : String) : Offered handle path [] [] (.ok ()) :=
  ⟨.nil _, rfl, List.prefix_rfl, iff_of_true rfl rfl, Nat.le_refl _⟩

private theorem offers (some : data ≠ []) : Offers handle data [] (.writeTo handle data) :=
  ⟨data, some, rfl, rfl⟩

/-- A write that moves nothing is the last, and what it comes to is no success. -/
theorem last {transfer : Transfer} (some : data ≠ [])
    (comes : Exchange.transfer? ⟨.writeTo handle data, reply⟩ = .some transfer)
    (still : ∀ bytes, transfer ≠ .moved bytes) :
    Offered handle path data [⟨.writeTo handle data, reply⟩]
      (resultOfWrites path (.some transfer)) := by
  have ends : ending [⟨.writeTo handle data, reply⟩] = .some transfer := comes
  have fails : resultOfWrites path (.some transfer) ≠ .ok () := by
    cases transfer with
    | moved bytes => exact absurd rfl (still bytes)
    | nothing => nofun
    | overlong claimed offered => nofun
    | refused source => nofun
  have none : moved [⟨.writeTo handle data, reply⟩] = [] := by
    rw [moved_cons, moved_nil, List.append_nil, Exchange.moved_eq_nil comes still]
  have more := List.length_pos_of_ne_nil some
  refine ⟨.single (offers some), by rw [ends], ?_, ?_, more⟩
  · rw [none]
    exact List.nil_prefix
  · rw [none]
    exact iff_of_false fails (Nat.ne_of_lt more)

/-- A write that moves something is followed by the writes of what is left. -/
theorem cons (split : bytes ++ left = data)
    (transfer : Exchange.transfer? ⟨.writeTo handle data, reply⟩ = some (.moved bytes))
    (rest : Offered handle path left log result) :
    Offered handle path data (⟨.writeTo handle data, reply⟩ :: log) result := by
  subst split
  have some := Exchange.ne_nil_of_transfer? transfer
  have more := List.length_pos_of_ne_nil some
  have all : moved (⟨.writeTo handle (bytes ++ left), reply⟩ :: log) = bytes ++ moved log := by
    rw [moved_cons, Exchange.moved_of_transfer? transfer]
  refine ⟨.cons (offers (List.append_ne_nil_of_left_ne_nil some left)) transfer ?_, ?_, ?_, ?_, ?_⟩
  · refine ⟨fun before exchange after split => ?_, rest.course.moves⟩
    obtain ⟨further, there, same, request⟩ := rest.course.due before exchange after split
    exact ⟨further, there, by rw [same, List.append_assoc], request⟩
  · rw [rest.decided]
    cases log with
    | nil => rw [ending_singleton, transfer]; rfl
    | cons next log => rw [ending_cons _ (List.cons_ne_nil next log)]
  · rw [all]
    exact (List.prefix_append_right_inj bytes).mpr rest.taken
  · rw [rest.whole, all, List.length_append, List.length_append, Nat.add_left_cancel_iff]
  · have few := rest.few
    rw [List.length_cons, List.length_append]
    omega

end Offered

theorem WriteRounds.offered {server : Server State} {handle : Handle} {path : String} {data : Bytes}
    {state : State} {log : List Exchange} {ran : Except ClientError Unit × State}
    (rounds : WriteRounds server handle path data state log ran) :
    Offered handle path data log ran.1 := by
  induction rounds with
  | nothing state => exact .nothing handle path
  | last some round still => exact .last some round.comes still
  | next round split _ ih => exact .cons split round.comes ih

/-- Writing all of some data, whatever a server answers. Each write offers what has not been taken,
and what has been taken is a front of the data. It succeeds exactly if that is all of the data. A
write that is refused, that takes nothing or that is claimed to take more than it was offered is the
last one and decides how it fails. There are no more writes than bytes. -/
theorem writeAll_offers (server : Server State) (state : State) (handle : Handle) (path : String)
    (data : Bytes) :
    let log := (writeAll handle path data).exchanges server state
    let result := ((writeAll handle path data).run server state).1
    Course (Offers handle data) log ∧ moved log <+: data ∧
      (result = .ok () ↔ (moved log).length = data.length) ∧ (result = .ok () → moved log = data) ∧
      result = resultOfWrites path (ending log) ∧ log.length ≤ data.length := by
  intro log result
  have offered : Offered handle path data log result :=
    (writeAll_rounds server handle path data state).offered
  refine ⟨offered.course, offered.taken, offered.whole, fun succeeds => ?_, offered.decided,
    offered.few⟩
  exact offered.taken.eq_of_length (offered.whole.mp succeeds)

/-! ## Reading -/

/-- The size of the buffer when some number of bytes has been collected. A buffer that is smaller
than the limit grows when it is full. -/
def capacity (handle : Handle) (count : Nat) : Nat :=
  if count < min handle.transferSize readLimit then min handle.transferSize readLimit
  else readLimit

/-- The read that is due when some bytes have been collected. It asks for at least a byte, for no
more than goes in one transfer, and for no more than there is room for in a buffer that is
allowed. -/
def Asks (handle : Handle) (limit : Option Nat) (collected : Bytes) (request : Request) : Prop :=
  ∃ buffer, request = .readFrom handle buffer none ∧ 0 < buffer.length ∧
    buffer.length ≤ handle.transferSize ∧
    collected.length + buffer.length ≤ capacity handle collected.length ∧
    fits limit (capacity handle collected.length) = true

/-- Is a first buffer below the limit full that is not allowed to grow? -/
def Bursts (handle : Handle) (limit : Option Nat) (collected : Bytes) : Prop :=
  handle.transferSize < readLimit ∧ fits limit readLimit = false ∧
    collected.length = handle.transferSize

private theorem capacity_le (handle : Handle) (count : Nat) :
    capacity handle count ≤ readLimit := by
  unfold capacity
  split
  · exact Nat.min_le_right _ _
  · exact Nat.le_refl _

private theorem capacity_eq {handle : Handle} {count more : Nat} (grows : count ≤ more)
    (room : more < capacity handle count) : capacity handle more = capacity handle count := by
  unfold capacity at room ⊢
  split at room
  · next small => rw [if_pos room, if_pos small]
  · next large => rw [if_neg (by omega), if_neg large]

private theorem capacity_of_full {handle : Handle} {count : Nat}
    (full : capacity handle count < readLimit) :
    capacity handle count = handle.transferSize ∧
      capacity handle handle.transferSize = readLimit := by
  unfold capacity at full ⊢
  split at full
  · next small =>
    have size : min handle.transferSize readLimit = handle.transferSize := by omega
    rw [size] at small full ⊢
    exact ⟨if_pos small, if_neg (Nat.lt_irrefl _)⟩
  · exact absurd full (Nat.lt_irrefl _)

/-- How collecting goes on from some bytes. -/
structure Collected (handle : Handle) (path : String) (limit : Option Nat) (held : Bytes)
    (log : List Exchange) (result : Except ClientError Bytes) : Prop where
  course : Course (fun bytes => Asks handle limit (held ++ bytes)) log
  ended : ending log ≠ none
  decided : result = resultOfReads handle path (held ++ moved log) (ending log)
  full : ∀ bytes, ending log = .some (.moved bytes) →
    (held ++ moved log).length = readLimit ∨ Bursts handle limit (held ++ moved log)
  few : held.length + log.length ≤ readLimit

namespace Collected

variable {handle : Handle} {path : String} {limit : Option Nat} {held bytes : Bytes}
  {exchange : Exchange} {transfer : Transfer} {log : List Exchange}
  {result : Except ClientError Bytes}

private theorem few_of_asks {request : Request} (asks : Asks handle limit held request) :
    held.length + 1 ≤ readLimit := by
  obtain ⟨buffer, -, some, -, fits, -⟩ := asks
  have most := capacity_le handle held.length
  omega

private theorem single (asks : Asks handle limit held exchange.request)
    (comes : exchange.transfer? = .some transfer)
    (full : ∀ bytes, transfer = .moved bytes →
      (held ++ bytes).length = readLimit ∨ Bursts handle limit (held ++ bytes)) :
    Collected handle path limit held [exchange]
      (resultOfReads handle path (held ++ exchange.moved) (.some transfer)) := by
  have all : moved [exchange] = exchange.moved := List.append_nil _
  refine ⟨.single ?_, ?_, ?_, ?_, few_of_asks asks⟩
  · rwa [List.append_nil]
  · rw [ending_singleton, comes]
    exact Option.some_ne_none transfer
  · rw [all, ending_singleton, comes]
  · intro bytes moves
    rw [ending_singleton] at moves
    rw [all, Exchange.moved_of_transfer? moves]
    exact full bytes (Option.some.inj (comes.symm.trans moves))

theorem some (collected : Collected handle path limit held log result) : log ≠ [] := by
  rintro rfl
  exact collected.ended rfl

private theorem cons (asks : Asks handle limit held exchange.request)
    (moves : exchange.transfer? = .some (.moved bytes))
    (rest : Collected handle path limit (held ++ bytes) log result) :
    Collected handle path limit held (exchange :: log) result := by
  have more := List.length_pos_of_ne_nil (Exchange.ne_nil_of_transfer? moves)
  have all : held ++ moved (exchange :: log) = held ++ bytes ++ moved log := by
    rw [moved_cons, Exchange.moved_of_transfer? moves, List.append_assoc]
  have ends := ending_cons exchange rest.some
  refine ⟨.cons ?_ moves ?_, ends.symm ▸ rest.ended, ?_, ?_, ?_⟩
  · rwa [List.append_nil]
  · simpa only [List.append_assoc] using rest.course
  · rw [all, ends, rest.decided]
  · rw [all, ends]
    exact rest.full
  · have few := rest.few
    rw [List.length_append] at few
    rw [List.length_cons]
    omega

private theorem filled (asks : Asks handle limit held exchange.request)
    (moves : exchange.transfer? = .some (.moved bytes))
    (full : (held ++ bytes).length = readLimit) :
    Collected handle path limit held [exchange] (.ok (held ++ bytes)) := by
  have last : Collected handle path limit held [exchange] _ :=
    single asks moves fun other same => .inl (Transfer.moved.inj same ▸ full)
  rwa [Exchange.moved_of_transfer? moves, resultOfReads, if_pos full] at last

private theorem bursts (asks : Asks handle limit held exchange.request)
    (moves : exchange.transfer? = .some (.moved bytes))
    (refused : Bursts handle limit (held ++ bytes)) :
    Collected handle path limit held [exchange] (.error (.allocate path readLimit)) := by
  have below : (held ++ bytes).length ≠ readLimit := refused.2.2.trans_ne (Nat.ne_of_lt refused.1)
  have last : Collected handle path limit held [exchange] _ :=
    single asks moves fun other same => .inr (Transfer.moved.inj same ▸ refused)
  rwa [Exchange.moved_of_transfer? moves, resultOfReads, if_neg below] at last

end Collected

/-- What is known while collecting: there is room in a buffer that is allowed. -/
structure Collecting (handle : Handle) (limit : Option Nat) (held tail : Bytes) : Prop where
  some : tail ≠ []
  room : held.length + tail.length = capacity handle held.length
  budget : fits limit (capacity handle held.length) = true

namespace Collecting

variable {handle : Handle} {limit : Option Nat} {held tail bytes rest : Bytes}

private theorem start (budget : fits limit (min handle.transferSize readLimit) = true) :
    Collecting handle limit [] (Bytes.zeros (min handle.transferSize readLimit)) := by
  have positive : 0 < min handle.transferSize readLimit :=
    Nat.lt_min.mpr ⟨handle.transferSize_pos, by decide⟩
  have size : (Bytes.zeros (min handle.transferSize readLimit)).length =
      min handle.transferSize readLimit := List.length_replicate
  have first : capacity handle ([] : Bytes).length = min handle.transferSize readLimit :=
    if_pos positive
  refine ⟨List.length_pos_iff.mp (size.symm ▸ positive), ?_, first.symm ▸ budget⟩
  rw [first, size, List.length_nil, Nat.zero_add]

theorem asks (going : Collecting handle limit held tail) :
    Asks handle limit held (.readFrom handle (tail.take handle.transferSize) none) := by
  have more := List.length_pos_of_ne_nil going.some
  have size := handle.transferSize_pos
  have room := going.room
  have length : (tail.take handle.transferSize).length = min handle.transferSize tail.length :=
    List.length_take
  exact ⟨_, rfl, by omega, by omega, by omega, going.budget⟩

private theorem within (going : Collecting handle limit held tail) :
    held.length + tail.length ≤ readLimit :=
  going.room.trans_le (capacity_le handle held.length)

private theorem next (going : Collecting handle limit held tail)
    (left : rest.length + bytes.length = tail.length) (more : rest ≠ []) :
    Collecting handle limit (held ++ bytes) rest := by
  have positive := List.length_pos_of_ne_nil more
  have room := going.room
  have length : (held ++ bytes).length = held.length + bytes.length := List.length_append
  have same : capacity handle (held ++ bytes).length = capacity handle held.length :=
    capacity_eq (by omega) (by omega)
  refine ⟨more, ?_, same.symm ▸ going.budget⟩
  rw [same]
  omega

private theorem filled (going : Collecting handle limit held tail)
    (whole : bytes.length = tail.length)
    (full : readLimit ≤ (held ++ bytes).length) : (held ++ bytes).length = readLimit := by
  have within := going.within
  have length : (held ++ bytes).length = held.length + bytes.length := List.length_append
  omega

/-- When the buffer is full below the limit it is the first one. -/
theorem full (going : Collecting handle limit held tail)
    (whole : bytes.length = tail.length) (small : (held ++ bytes).length < readLimit) :
    (held ++ bytes).length = handle.transferSize ∧
      capacity handle (held ++ bytes).length = readLimit := by
  have room := going.room
  have length : (held ++ bytes).length = held.length + bytes.length := List.length_append
  obtain ⟨first, second⟩ :=
    capacity_of_full (show capacity handle held.length < readLimit by omega)
  have size : (held ++ bytes).length = handle.transferSize := by omega
  exact ⟨size, by rw [size, second]⟩

private theorem grow (going : Collecting handle limit held tail)
    (whole : bytes.length = tail.length) (small : (held ++ bytes).length < readLimit)
    (grows : fits limit readLimit = true) :
    Collecting handle limit (held ++ bytes)
      (Bytes.zeros (readLimit - (held ++ bytes).length)) := by
  obtain ⟨-, second⟩ := going.full whole small
  have zeros : (Bytes.zeros (readLimit - (held ++ bytes).length)).length =
      readLimit - (held ++ bytes).length := List.length_replicate
  refine ⟨List.length_pos_iff.mp (by omega), ?_, second.symm ▸ grows⟩
  rw [second]
  omega

private theorem bursts (going : Collecting handle limit held tail)
    (whole : bytes.length = tail.length) (small : (held ++ bytes).length < readLimit)
    (refused : fits limit readLimit = false) : Bursts handle limit (held ++ bytes) := by
  obtain ⟨size, -⟩ := going.full whole small
  exact ⟨size ▸ small, refused, size⟩

end Collecting

theorem ReadRounds.collected {server : Server State} {handle : Handle} {path : String}
    {limit : Option Nat} {held tail : Bytes} {state : State} {log : List Exchange}
    {ran : Except ClientError Bytes × State}
    (rounds : ReadRounds server handle path limit held tail state log ran)
    (going : Collecting handle limit held tail) : Collected handle path limit held log ran.1 := by
  induction rounds with
  | last round still =>
      have last : Collected handle path limit _ _ _ :=
        .single going.asks round.comes fun bytes moves => absurd moves (still bytes)
      rwa [Exchange.moved_eq_nil round.comes still, List.append_nil] at last
  | filled round whole full =>
      exact .filled going.asks round.comes (going.filled whole full)
  | bursts round whole small refused =>
      exact .bursts going.asks round.comes (going.bursts whole small refused)
  | next round left more _ ih => exact .cons going.asks round.comes (ih (going.next left more))
  | grow round whole small grows _ ih =>
      exact .cons going.asks round.comes (ih (going.grow whole small grows))

namespace Collected

variable {handle : Handle} {path : String} {limit : Option Nat} {held : Bytes} {log : List Exchange}
  {result : Except ClientError Bytes}

private theorem asks_of_still (collected : Collected handle path limit held log result)
    (still : ∀ bytes, ending log ≠ .some (.moved bytes)) :
    (held ++ moved log).length < readLimit ∧ ¬Bursts handle limit (held ++ moved log) := by
  obtain ⟨request, asks⟩ := collected.course.due_of_still collected.some still
  refine ⟨few_of_asks asks, ?_⟩
  rintro ⟨small, refused, size⟩
  obtain ⟨buffer, -, -, -, -, budget⟩ := asks
  have second : capacity handle (held ++ moved log).length = readLimit := by
    rw [size, capacity, if_neg (by omega)]
  rw [second, refused] at budget
  cases budget

theorem within (collected : Collected handle path limit held log result) :
    (held ++ moved log).length ≤ readLimit := by
  by_cases moves : ∃ bytes, ending log = .some (.moved bytes)
  · obtain ⟨bytes, moves⟩ := moves
    rcases collected.full bytes moves with full | ⟨small, -, size⟩
    · exact Nat.le_of_eq full
    · exact Nat.le_of_lt (size ▸ small)
  · exact Nat.le_of_lt (collected.asks_of_still (not_exists.mp moves)).1

/-- What has been collected is returned exactly if an empty answer came or the limit is reached. -/
theorem ok_iff (collected : Collected handle path limit held log result) (bytes : Bytes) :
    result = .ok bytes ↔
      bytes = held ++ moved log ∧ (ending log = .some .nothing ∨ bytes.length = readLimit) := by
  rw [collected.decided]
  cases ends : ending log with
  | none => exact absurd ends collected.ended
  | some transfer =>
      have still (none : ∀ bytes, transfer ≠ .moved bytes) :
          (held ++ moved log).length ≠ readLimit := by
        refine Nat.ne_of_lt (collected.asks_of_still fun bytes moves => none bytes ?_).1
        exact Option.some.inj (ends.symm.trans moves)
      cases transfer with
      | refused source =>
          refine iff_of_false nofun ?_
          rintro ⟨rfl, ended | full⟩
          · cases ended
          · exact still nofun full
      | overlong claimed requested =>
          refine iff_of_false nofun ?_
          rintro ⟨rfl, ended | full⟩
          · cases ended
          · exact still nofun full
      | nothing =>
          constructor
          · intro succeeds
            cases succeeds
            exact ⟨rfl, .inl rfl⟩
          · rintro ⟨rfl, -⟩
            rfl
      | moved front =>
          rw [resultOfReads]
          constructor
          · intro succeeds
            split at succeeds
            · next full =>
              cases succeeds
              exact ⟨rfl, .inr full⟩
            · cases succeeds
          · rintro ⟨rfl, ended | full⟩
            · cases ended
            · exact if_pos full

theorem allocate_iff (collected : Collected handle path limit held log result) :
    result = .error (.allocate path readLimit) ↔ Bursts handle limit (held ++ moved log) := by
  rw [collected.decided]
  cases ends : ending log with
  | none => exact absurd ends collected.ended
  | some transfer =>
      have still (none : ∀ bytes, transfer ≠ .moved bytes) :
          ¬Bursts handle limit (held ++ moved log) := by
        refine (collected.asks_of_still fun bytes moves => none bytes ?_).2
        exact Option.some.inj (ends.symm.trans moves)
      cases transfer with
      | refused source => exact iff_of_false nofun (still nofun)
      | overlong claimed requested => exact iff_of_false nofun (still nofun)
      | nothing => exact iff_of_false nofun (still nofun)
      | moved front =>
          rw [resultOfReads]
          split
          · next full =>
            refine iff_of_false nofun fun bursts => ?_
            exact absurd (full.symm.trans bursts.2.2) (Nat.ne_of_gt bursts.1)
          · next below =>
            exact iff_of_true rfl ((collected.full front ends).resolve_left below)

end Collected

theorem readCapped_of_fits {handle : Handle} {limit : Option Nat} (path : String)
    (budget : fits limit (min handle.transferSize readLimit) = true) (server : Server State)
    (state : State) :
    Collected handle path limit [] ((readCapped handle path limit).exchanges server state)
      ((readCapped handle path limit).run server state).1 :=
  (readCapped_rounds server path budget state).collected (.start budget)

theorem readCapped_of_not_fits {handle : Handle} {limit : Option Nat} (path : String)
    (refused : fits limit (min handle.transferSize readLimit) = false) :
    readCapped handle path limit =
      .done (.error (.allocate path (min handle.transferSize readLimit))) := by
  rw [readCapped, if_neg (by simp [refused])]

end RemoteTree.Client
