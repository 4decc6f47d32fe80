import RemoteTree.Bytes.Lemmas
import RemoteTree.Proofs.Server.Exchange

/-!
# Transfers

What the answer to a read or a write comes to for the client that made it, and loops of transfers:
each exchange is made when the ones before it have moved some bytes, and only the last may move
none.
-/

set_option autoImplicit false

namespace RemoteTree

/-- What an exchange comes to. Some bytes change hands, or none do, or the server claims more than
it was offered room or bytes for, or it refuses. -/
inductive Transfer where
  | moved (bytes : Bytes)
  | nothing
  | overlong (claimed most : Nat)
  | refused (source : Refusal)
  deriving DecidableEq

/-- What a claim comes to when the front of some bytes is what changes hands. -/
def Transfer.ofClaim (bytes : Bytes) : Except Refusal Nat → Transfer
  | .error source => .refused source
  | .ok count =>
      if count = 0 then .nothing
      else if bytes.length < count then .overlong count bytes.length
      else .moved (bytes.take count)

namespace Exchange

/-- What a read or a write comes to. A read moves what stands in its buffer then, a write what it
offers. -/
def transfer? : Exchange → Option Transfer
  | ⟨.readFrom _ buffer _, delivery⟩ =>
      some (.ofClaim (Bytes.overlay delivery.received buffer) delivery.claimed)
  | ⟨.writeTo _ data, reply⟩ => some (.ofClaim data reply)
  | _ => none

/-- The bytes that change hands in an exchange. -/
def moved (exchange : Exchange) : Bytes :=
  match exchange.transfer? with
  | some (.moved bytes) => bytes
  | _ => []

end Exchange

/-- The bytes that change hands in some exchanges, in order. -/
def moved (log : List Exchange) : Bytes := log.flatMap Exchange.moved

/-- What the last of some exchanges comes to. -/
def ending (log : List Exchange) : Option Transfer := log.getLast?.bind Exchange.transfer?

namespace Transfer

theorem ofClaim_overlong {bytes : Bytes} {count : Nat} (beyond : bytes.length < count) :
    ofClaim bytes (.ok count) = .overlong count bytes.length := by
  have some : count ≠ 0 := by omega
  rw [ofClaim, if_neg some, if_pos beyond]

theorem ofClaim_moved {bytes : Bytes} {count : Nat} (some : count ≠ 0)
    (within : count ≤ bytes.length) : ofClaim bytes (.ok count) = .moved (bytes.take count) := by
  rw [ofClaim, if_neg some, if_neg (Nat.not_lt.mpr within)]

private theorem ne_nil_of_ofClaim {bytes front : Bytes} {claimed : Except Refusal Nat}
    (moves : ofClaim bytes claimed = .moved front) : front ≠ [] := by
  unfold ofClaim at moves
  split at moves
  · cases moves
  · split at moves
    · cases moves
    · split at moves
      · cases moves
      · next count some within =>
        cases moves
        intro none
        rcases List.take_eq_nil_iff.mp none with zero | empty
        · exact some zero
        · subst empty
          exact within (Nat.pos_of_ne_zero some)

end Transfer

namespace Exchange

variable {exchange : Exchange} {bytes : Bytes}

theorem moved_of_transfer? (moves : exchange.transfer? = some (.moved bytes)) :
    exchange.moved = bytes := by
  rw [moved, moves]

theorem moved_eq_nil {transfer : Transfer} (comes : exchange.transfer? = some transfer)
    (still : ∀ bytes, transfer ≠ .moved bytes) : exchange.moved = [] := by
  rw [moved, comes]
  split
  · next bytes moves => exact absurd (Option.some.inj moves) (still bytes)
  · rfl

theorem ne_nil_of_transfer? (moves : exchange.transfer? = some (.moved bytes)) : bytes ≠ [] := by
  unfold transfer? at moves
  split at moves
  · exact Transfer.ne_nil_of_ofClaim (Option.some.inj moves)
  · exact Transfer.ne_nil_of_ofClaim (Option.some.inj moves)
  · cases moves

/-- A read that is answered with some bytes, all of them counted, moves these, whatever the buffer
held before. -/
theorem transfer?_of_received {received buffer : Bytes} (some : received ≠ [])
    (fits : received.length ≤ buffer.length) (handle : Handle) (wait : Option Duration) :
    transfer? ⟨.readFrom handle buffer wait, ⟨received, .ok received.length⟩⟩ =
      .some (.moved received) := by
  have counted : received.length ≠ 0 := mt List.eq_nil_of_length_eq_zero some
  have within : received.length ≤ (Bytes.overlay received buffer).length := by
    rwa [Bytes.length_overlay]
  rw [transfer?, Transfer.ofClaim_moved counted within, Bytes.take_overlay fits]

/-- What a read brings is what is received, if all of it is counted. -/
theorem moved_of_received {received buffer : Bytes} (fits : received.length ≤ buffer.length)
    (handle : Handle) (wait : Option Duration) :
    moved ⟨.readFrom handle buffer wait, ⟨received, .ok received.length⟩⟩ = received := by
  by_cases none : received = []
  · subst none
    rfl
  · exact moved_of_transfer? (transfer?_of_received none fits handle wait)

end Exchange

@[simp] theorem moved_nil : moved [] = [] := rfl

theorem moved_cons (exchange : Exchange) (rest : List Exchange) :
    moved (exchange :: rest) = exchange.moved ++ moved rest := List.flatMap_cons

private theorem moved_append (first rest : List Exchange) :
    moved (first ++ rest) = moved first ++ moved rest := List.flatMap_append

@[simp] theorem ending_singleton (exchange : Exchange) :
    ending [exchange] = exchange.transfer? := rfl

theorem ending_cons (exchange : Exchange) {rest : List Exchange} (some : rest ≠ []) :
    ending (exchange :: rest) = ending rest := by
  rw [ending, ending, List.getLast?_cons_of_ne_nil some]

/-- How a loop of transfers goes. What is asked for is due once the exchanges before have moved what
they have, and all of them have moved something. -/
structure Course (due : Bytes → Request → Prop) (log : List Exchange) : Prop where
  due : ∀ before exchange after, log = before ++ exchange :: after →
    due (moved before) exchange.request
  moves : ∀ exchange ∈ log.dropLast, ∃ bytes, exchange.transfer? = some (.moved bytes)

namespace Course

variable {due : Bytes → Request → Prop} {log : List Exchange} {exchange : Exchange} {bytes : Bytes}

theorem nil (due : Bytes → Request → Prop) : Course due [] := by
  constructor
  · intro before exchange after split
    exact absurd split.symm (List.append_ne_nil_of_right_ne_nil _ (List.cons_ne_nil _ _))
  · intro exchange member
    cases member

theorem single (first : due [] exchange.request) : Course due [exchange] := by
  constructor
  · intro before other after split
    obtain ⟨rfl, rest⟩ | ⟨later, -, rest⟩ := List.cons_eq_append_iff.mp split
    · cases rest
      exact first
    · exact absurd rest.symm (List.append_ne_nil_of_right_ne_nil _ (List.cons_ne_nil _ _))
  · intro other member
    cases member

/-- An exchange that moves something goes in front of what is due afterwards. -/
theorem cons (first : due [] exchange.request) (moves : exchange.transfer? = some (.moved bytes))
    (rest : Course (fun later => due (bytes ++ later)) log) : Course due (exchange :: log) := by
  constructor
  · intro before other after split
    obtain ⟨rfl, same⟩ | ⟨earlier, rfl, same⟩ := List.cons_eq_append_iff.mp split
    · cases same
      exact first
    · rw [moved_cons, Exchange.moved_of_transfer? moves]
      exact rest.due earlier other after same
  · intro other member
    cases log with
    | nil => cases member
    | cons next log =>
        rw [List.dropLast_cons_of_ne_nil (List.cons_ne_nil next log)] at member
        rcases List.mem_cons.mp member with rfl | later
        · exact ⟨bytes, moves⟩
        · exact rest.moves other later

/-- If the last exchange moved nothing it was due at all that has been moved. -/
theorem due_of_still (course : Course due log) (some : log ≠ [])
    (still : ∀ bytes, ending log ≠ .some (.moved bytes)) : ∃ request, due (moved log) request := by
  obtain ⟨earlier, last, rfl⟩ := (List.eq_nil_or_concat' log).resolve_left some
  have ends : ending (earlier ++ [last]) = last.transfer? := by
    rw [ending, List.getLast?_concat, Option.bind_some]
  have nothing : last.moved = [] := by
    unfold Exchange.moved
    split
    · next bytes moves => exact absurd (ends.trans moves) (still bytes)
    · rfl
  refine ⟨last.request, ?_⟩
  rw [moved_append, moved_cons, nothing, moved_nil, List.append_nil, List.append_nil]
  exact course.due earlier last [] rfl

end Course

end RemoteTree
