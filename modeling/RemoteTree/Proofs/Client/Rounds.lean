import RemoteTree.Proofs.Client.Custody
import RemoteTree.Proofs.Server.Transfer

/-!
# The rounds of whole transfers

Writing all of some data and reading a file at once make one transfer after the other, until one
moves nothing or there is nothing left to move. The runs of both loops are relations, and that the
loops run in this way is shown here, once for all servers. What holds of a run on a server of some
kind is then an induction on its rounds, which carries an invariant of the server's state from each
round to the next.
-/

set_option autoImplicit false

namespace RemoteTree.Client

variable {State : Type}

/-- One transfer: the answer that a server gives in a state, what it comes to and the state that is
left. -/
structure Round (server : Server State) (state : State) (exchange : Exchange) (transfer : Transfer)
    (after : State) : Prop where
  answered : server.answer exchange.request state = (exchange.reply, after)
  comes : exchange.transfer? = some transfer

/-- A request is answered in one way. -/
theorem Round.unique {server : Server State} {state after otherAfter : State} {request : Request}
    {reply otherReply : request.Reply} {transfer other : Transfer}
    (round : Round server state ⟨request, reply⟩ transfer after)
    (otherRound : Round server state ⟨request, otherReply⟩ other otherAfter) :
    transfer = other ∧ after = otherAfter := by
  obtain ⟨rfl, rfl⟩ := Prod.mk.inj (round.answered.symm.trans otherRound.answered)
  exact ⟨Option.some.inj (round.comes.symm.trans otherRound.comes), rfl⟩

/-! ## Writing -/

/-- The result of writing all of some data, by what the last write came to. -/
def resultOfWrites (path : String) : Option Transfer → Except ClientError Unit
  | some (.refused source) => .error (.write path source)
  | some .nothing => .error (.write path (.failed "server accepted no bytes" none))
  | some (.overlong claimed offered) => .error (.protocol path (.overlongWrite claimed offered))
  | some (.moved _) => .ok ()
  | none => .ok ()

/-- The runs that write all of some data. A write that moves nothing is the last one. -/
inductive WriteRounds (server : Server State) (handle : Handle) (path : String) :
    Bytes → State → List Exchange → Except ClientError Unit × State → Prop where
  | nothing (state : State) : WriteRounds server handle path [] state [] (.ok (), state)
  | last {data : Bytes} {state after : State} {reply : Except Refusal Nat} {transfer : Transfer}
      (some : data ≠ []) (round : Round server state ⟨.writeTo handle data, reply⟩ transfer after)
      (still : ∀ bytes, transfer ≠ .moved bytes) :
      WriteRounds server handle path data state [⟨.writeTo handle data, reply⟩]
        (resultOfWrites path (.some transfer), after)
  | next {data bytes left : Bytes} {state middle : State} {reply : Except Refusal Nat}
      {log : List Exchange} {ran : Except ClientError Unit × State}
      (round : Round server state ⟨.writeTo handle data, reply⟩ (.moved bytes) middle)
      (split : bytes ++ left = data)
      (rounds : WriteRounds server handle path left middle log ran) :
      WriteRounds server handle path data state (⟨.writeTo handle data, reply⟩ :: log) ran

theorem WriteRounds.of_nil {server : Server State} {handle : Handle} {path : String} {state : State}
    {log : List Exchange} {ran : Except ClientError Unit × State}
    (rounds : WriteRounds server handle path [] state log ran) :
    log = [] ∧ ran = (.ok (), state) := by
  cases rounds with
  | nothing => exact ⟨rfl, rfl⟩
  | last some => exact absurd rfl some
  | next round split =>
      have some := Exchange.ne_nil_of_transfer? round.comes
      exact absurd (List.append_eq_nil_iff.mp split).1 some

/-- Offering some data goes in rounds, whatever the server answers. -/
theorem offer_rounds (server : Server State) (handle : Handle) (path : String) {writes : Nat}
    {data : Bytes} (enough : data.length ≤ writes) (state : State) :
    WriteRounds server handle path data state
      ((offer handle path writes data).exchanges server state)
      ((offer handle path writes data).run server state) := by
  -- The induction is on the writes allowed. They are enough since each but the last takes a byte.
  induction writes generalizing data state with
  | zero =>
      obtain rfl := List.eq_nil_of_length_eq_zero (Nat.le_zero.mp enough)
      exact .nothing state
  | succ writes ih =>
      cases data with
      | nil => exact .nothing state
      | cons byte rest =>
          have some := List.cons_ne_nil byte rest
          rcases answered : server.answer (.writeTo handle (byte :: rest)) state with ⟨reply, later⟩
          simp only [offer, exchanges, run, answered]
          cases reply with
          | error source =>
              refine .last some ⟨answered, rfl⟩ fun bytes moves => ?_
              cases moves
          | ok count =>
              dsimp only
              split
              · next beyond =>
                have comes := Transfer.ofClaim_overlong beyond
                refine .last some ⟨answered, congrArg _ comes⟩ fun bytes moves => ?_
                cases moves
              · next within =>
                split
                · next zero =>
                  subst zero
                  refine .last some ⟨answered, rfl⟩ fun bytes moves => ?_
                  cases moves
                · next positive =>
                  have moves := Transfer.ofClaim_moved positive (Nat.le_of_not_lt within)
                  have size : ((byte :: rest).drop count).length ≤ writes := by
                    rw [List.length_drop]
                    omega
                  exact .next ⟨answered, congrArg _ moves⟩ (List.take_append_drop count _)
                    (ih size later)

theorem writeAll_rounds (server : Server State) (handle : Handle) (path : String) (data : Bytes)
    (state : State) :
    WriteRounds server handle path data state ((writeAll handle path data).exchanges server state)
      ((writeAll handle path data).run server state) :=
  offer_rounds server handle path (Nat.le_refl data.length) state

/-! ## Reading -/

/-- The result of reading a file at once, by what has been collected and what the last read came
to. -/
def resultOfReads (handle : Handle) (path : String) (collected : Bytes) :
    Option Transfer → Except ClientError Bytes
  | some (.refused source) => .error (.read path source)
  | some .nothing => .ok collected
  | some (.overlong claimed requested) => .error (.protocol path (.overlongRead claimed requested))
  | some (.moved _) =>
      if collected.length = readLimit then .ok collected else .error (.allocate path readLimit)
  | none => .error (.allocate path (min handle.transferSize readLimit))

/-- An answered read into the buffer that is left. -/
abbrev readInto (handle : Handle) (tail : Bytes) (delivery : Delivery) : Exchange :=
  ⟨.readFrom handle (tail.take handle.transferSize) none, delivery⟩

/-- The runs that read a file at once, from what is held and the buffer behind it. A read that moves
nothing is the last one, and so is one that fills a buffer which does not grow. -/
inductive ReadRounds (server : Server State) (handle : Handle) (path : String)
    (limit : Option Nat) :
    Bytes → Bytes → State → List Exchange → Except ClientError Bytes × State → Prop where
  | last {held tail : Bytes} {state after : State} {delivery : Delivery} {transfer : Transfer}
      (round : Round server state (readInto handle tail delivery) transfer after)
      (still : ∀ bytes, transfer ≠ .moved bytes) :
      ReadRounds server handle path limit held tail state [readInto handle tail delivery]
        (resultOfReads handle path held (some transfer), after)
  | filled {held tail bytes : Bytes} {state after : State} {delivery : Delivery}
      (round : Round server state (readInto handle tail delivery) (.moved bytes) after)
      (whole : bytes.length = tail.length) (full : readLimit ≤ (held ++ bytes).length) :
      ReadRounds server handle path limit held tail state [readInto handle tail delivery]
        (.ok (held ++ bytes), after)
  | bursts {held tail bytes : Bytes} {state after : State} {delivery : Delivery}
      (round : Round server state (readInto handle tail delivery) (.moved bytes) after)
      (whole : bytes.length = tail.length) (small : (held ++ bytes).length < readLimit)
      (refused : fits limit readLimit = false) :
      ReadRounds server handle path limit held tail state [readInto handle tail delivery]
        (.error (.allocate path readLimit), after)
  | next {held tail bytes rest : Bytes} {state middle : State} {delivery : Delivery}
      {log : List Exchange} {ran : Except ClientError Bytes × State}
      (round : Round server state (readInto handle tail delivery) (.moved bytes) middle)
      (left : rest.length + bytes.length = tail.length) (more : rest ≠ [])
      (rounds : ReadRounds server handle path limit (held ++ bytes) rest middle log ran) :
      ReadRounds server handle path limit held tail state (readInto handle tail delivery :: log) ran
  | grow {held tail bytes : Bytes} {state middle : State} {delivery : Delivery}
      {log : List Exchange} {ran : Except ClientError Bytes × State}
      (round : Round server state (readInto handle tail delivery) (.moved bytes) middle)
      (whole : bytes.length = tail.length) (small : (held ++ bytes).length < readLimit)
      (grows : fits limit readLimit = true)
      (rounds : ReadRounds server handle path limit (held ++ bytes)
        (Bytes.zeros (readLimit - (held ++ bytes).length)) middle log ran) :
      ReadRounds server handle path limit held tail state (readInto handle tail delivery :: log) ran

/-- A delivery leaves of a buffer what it did not fill. -/
theorem length_left {received tail : Bytes} {size count : Nat}
    (within : count ≤ (Bytes.overlay received (tail.take size)).length) :
    ((Bytes.overlay received (tail.take size)).drop count ++ tail.drop size).length +
      ((Bytes.overlay received (tail.take size)).take count).length = tail.length := by
  rw [Bytes.length_overlay, List.length_take] at within
  rw [List.length_append, List.length_drop, List.length_drop, List.length_take,
    Bytes.length_overlay, List.length_take]
  omega

/-- Collecting goes in rounds, whatever the server answers. -/
theorem collect_rounds (server : Server State) (handle : Handle) (path : String)
    (limit : Option Nat) {reads : Nat} {held tail : Bytes}
    (within : held.length + tail.length ≤ readLimit) (enough : readLimit < held.length + reads)
    (state : State) :
    ReadRounds server handle path limit held tail state
      ((collect handle path limit reads held tail).exchanges server state)
      ((collect handle path limit reads held tail).run server state) := by
  -- The induction is on the reads allowed. They are enough since each but the last brings a byte.
  induction reads generalizing held tail state with
  | zero => omega
  | succ reads ih =>
      rcases answered : server.answer (.readFrom handle (tail.take handle.transferSize) none) state
        with ⟨⟨received, claimed⟩, later⟩
      have comes : (readInto handle tail ⟨received, claimed⟩).transfer? =
        some (.ofClaim (Bytes.overlay received (tail.take handle.transferSize)) claimed) := rfl
      have length := Bytes.length_overlay received (tail.take handle.transferSize)
      rcases claimed with source | _ | count
      · simp only [collect, exchanges, run, answered]
        refine .last ⟨answered, comes⟩ fun bytes moves => ?_
        cases moves
      · simp only [collect, exchanges, run, answered]
        refine .last ⟨answered, comes⟩ fun bytes moves => ?_
        cases moves
      · simp only [collect, exchanges, run, answered]
        split
        · next beyond =>
          rw [← length] at beyond
          rw [Transfer.ofClaim_overlong beyond, length] at comes
          refine .last ⟨answered, comes⟩ fun bytes moves => ?_
          cases moves
        · next fit =>
          rw [← length, Nat.not_lt] at fit
          rw [Transfer.ofClaim_moved (Nat.succ_ne_zero count) fit] at comes
          have positive := List.length_pos_of_ne_nil (Exchange.ne_nil_of_transfer? comes)
          have left := length_left fit
          generalize (Bytes.overlay received (tail.take handle.transferSize)).take (count + 1) =
            bytes at comes positive left ⊢
          generalize (Bytes.overlay received (tail.take handle.transferSize)).drop (count + 1) ++
            tail.drop handle.transferSize = rest at left ⊢
          have round : Round server state (readInto handle tail ⟨received, .ok (count + 1)⟩)
              (.moved bytes) later := ⟨answered, comes⟩
          have size : (held ++ bytes).length = held.length + bytes.length := List.length_append
          split
          · next more =>
            exact .next round left (by simpa using more) (ih (by omega) (by omega) later)
          · next none =>
            have none : rest = [] := by simpa using none
            rw [none, List.length_nil, Nat.zero_add] at left
            split
            · next full => exact .filled round left full
            · next short =>
              have small := Nat.lt_of_not_le short
              split
              · next grows =>
                have zeros : (Bytes.zeros (readLimit - (held ++ bytes).length)).length =
                    readLimit - (held ++ bytes).length := List.length_replicate
                exact .grow round left small grows (ih (by omega) (by omega) later)
              · next refused =>
                exact .bursts round left small (Bool.eq_false_of_not_eq_true refused)

theorem start_ne_nil (handle : Handle) : Bytes.zeros (min handle.transferSize readLimit) ≠ [] := by
  apply List.ne_nil_of_length_pos
  rw [Bytes.zeros, List.length_replicate]
  exact Nat.lt_min.mpr ⟨handle.transferSize_pos, by decide⟩

theorem length_start_le (handle : Handle) :
    ([] : Bytes).length + (Bytes.zeros (min handle.transferSize readLimit)).length ≤ readLimit := by
  rw [List.length_nil, Nat.zero_add, Bytes.zeros, List.length_replicate]
  exact Nat.min_le_right _ _

theorem lt_length_start : readLimit < ([] : Bytes).length + (readLimit + 1) :=
  Nat.lt_of_lt_of_le (Nat.lt_succ_self readLimit) (Nat.le_add_left _ _)

theorem readCapped_rounds (server : Server State) {handle : Handle} (path : String)
    {limit : Option Nat} (budget : fits limit (min handle.transferSize readLimit) = true)
    (state : State) :
    ReadRounds server handle path limit [] (Bytes.zeros (min handle.transferSize readLimit)) state
      ((readCapped handle path limit).exchanges server state)
      ((readCapped handle path limit).run server state) := by
  rw [readCapped, if_pos budget]
  exact collect_rounds server handle path limit (length_start_le handle) lt_length_start state

end RemoteTree.Client
