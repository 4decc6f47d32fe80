import Mathlib
import RemoteTree.Bytes.Lemmas
import RemoteTree.Proofs.Client.AlikeSession
import RemoteTree.Proofs.Tape.Player
import RemoteTree.Proofs.Tape.Transparent
import RemoteTree.Proofs.Tree.Deliveries
import RemoteTree.Tape.Recorder

/-!
# Replaying what was recorded

A player of the calls that a session recorded answers the same session as the server did: every
request gets the reply that stands for it on the tape, up to stale bytes, which nothing shows.
When the session is over the tape is used up.
-/

set_option autoImplicit false

namespace RemoteTree

namespace Player

variable {player : Player} {rest : List Interaction}

private theorem Holds.playAnswer {Result : Type} {seq : UInt64} {method : String} {input : Json}
    (toJson : Result → Json) (ofJson? : Json → Option Result)
    (back : ∀ result, ofJson? (toJson result) = some result) (answer : Except Refusal Result)
    (holds : player.Holds (⟨seq, fileService, method, input, answerToJson toJson answer⟩ :: rest)) :
    ∃ next, player.playAnswer method ofJson? = (answer, next) ∧ next.Holds rest := by
  obtain ⟨next, played, left⟩ := holds.play rfl
  refine ⟨next, ?_, left⟩
  simp only [Player.playAnswer, played, answerOfJson_answerToJson _ method toJson ofJson? back]

/-- What was recorded for a request without a buffer is played to it. -/
theorem Holds.answer {seq : UInt64} {request : Request} {reply : request.Reply} {output : Json}
    (noRead : request.isRead = false) (recorded : request.output? reply = some output)
    (holds : player.Holds (⟨seq, fileService, request.method, request.input, output⟩ :: rest)) :
    ∃ next, server.answer request player = (reply, next) ∧ next.Holds rest := by
  cases request with
  | readFrom => cases noRead
  | openFile path mode =>
      cases recorded
      exact holds.playAnswer Handle.toJson Handle.ofJson? Handle.ofJson?_toJson reply
  | createFile path permissions mode =>
      cases recorded
      exact holds.playAnswer Handle.toJson Handle.ofJson? Handle.ofJson?_toJson reply
  | writeTo handle data =>
      cases recorded
      exact holds.playAnswer Json.ofNat countOfJson? countOfJson?_ofNat reply
  | removeFile path =>
      cases recorded
      exact holds.playAnswer (fun _ => .null) nothingOfJson? (fun _ => rfl) reply
  | statFile path =>
      cases recorded
      exact holds.playAnswer (fun bytes => (Payload.ofBytes bytes).toJson) bytesOfJson?
        bytesOfJson?_ofBytes reply
  | closeFile handle =>
      obtain ⟨next, played, left⟩ := holds.play rfl
      exact ⟨next, by simp only [server, Request.method] at played ⊢; rw [played], left⟩
  | unmount =>
      obtain ⟨next, played, left⟩ := holds.play rfl
      exact ⟨next, by simp only [server, Request.method] at played ⊢; rw [played], left⟩

private theorem deliver_alike {delivery : Delivery} {buffer other : Bytes}
    {outcome : Except Refusal Bytes} (delivered : delivery.delivered? buffer = some outcome)
    (sizes : buffer.length = other.length) :
    delivery.Alike (deliver other.length outcome) buffer other := by
  unfold Delivery.delivered? at delivered
  cases claims : delivery.claimed with
  | error refusal =>
      simp only [claims, Option.some.injEq] at delivered
      subst delivered
      exact ⟨claims, by simp [claims], by simp [claims]⟩
  | ok count =>
      simp only [claims] at delivered
      split at delivered
      · cases delivered
      · next within =>
        simp only [Option.some.injEq] at delivered
        subst delivered
        generalize receivedIs :
          (Bytes.overlay delivery.received buffer).take count = received
        have size : received.length = count := by
          rw [← receivedIs, List.length_take, Bytes.length_overlay]
          omega
        have fits : received.length ≤ other.length := by omega
        simp only [deliver]
        rw [if_neg (by omega)]
        refine ⟨by rw [claims, size], ?_, ?_⟩
        · intro same claimed
          cases claims.symm.trans claimed
          omega
        · intro same claimed
          cases claims.symm.trans claimed
          rw [receivedIs, ← size, Bytes.take_overlay fits]

/-- What a tape delivers is what it had recorded, whatever else was in the buffer. -/
theorem delivered?_deliver {delivery : Delivery} {buffer other : Bytes}
    {outcome : Except Refusal Bytes} (delivered : delivery.delivered? buffer = some outcome)
    (sizes : buffer.length = other.length) :
    (deliver other.length outcome).delivered? other = some outcome := by
  cases outcome with
  | error refusal => rfl
  | ok bytes =>
      have fits : bytes.length ≤ other.length := by
        unfold Delivery.delivered? at delivered
        split at delivered
        · cases delivered
        · split at delivered
          · cases delivered
          · cases delivered
            rw [List.length_take, Bytes.length_overlay, sizes]
            exact Nat.min_le_right _ _
      rw [deliver, if_neg (Nat.not_lt.mpr fits), Delivery.delivered?]
      dsimp only
      rw [if_neg (Nat.not_lt.mpr fits), Bytes.take_overlay fits]

/-- What was recorded for a read is delivered to a read with a buffer of any size. -/
theorem Holds.answer_read {seq : UInt64} (handle : Handle) (buffer : Bytes)
    (wait : Option Duration) {input : Json} {outcome : Except Refusal Bytes}
    (holds : player.Holds (⟨seq, fileService, (Request.readFrom handle buffer wait).method, input,
      answerToJson (fun bytes => (Payload.ofBytes bytes).toJson) outcome⟩ :: rest)) :
    ∃ next, server.answer (.readFrom handle buffer wait) player =
      (deliver buffer.length outcome, next) ∧ next.Holds rest := by
  obtain ⟨next, played, left⟩ := holds.playAnswer
    (fun bytes => (Payload.ofBytes bytes).toJson) bytesOfJson? bytesOfJson?_ofBytes outcome
  refine ⟨next, ?_, left⟩
  simp only [server, Request.method] at played ⊢
  rw [played]

end Player

private theorem Server.StaysWithin.delivered? {State : Type} {server : Server State}
    (honest : server.StaysWithin) (handle : Handle) (buffer : Bytes) (wait : Option Duration)
    (state : State) :
    ∃ outcome, (server.answer (.readFrom handle buffer wait) state).1.delivered? buffer =
      some outcome := by
  unfold Delivery.delivered?
  cases claims : (server.answer (.readFrom handle buffer wait) state).1.claimed with
  | error refusal => exact ⟨_, rfl⟩
  | ok count =>
      have within := honest handle buffer wait state count claims
      simp only [if_neg (Nat.not_lt.mpr within)]
      exact ⟨_, rfl⟩

private theorem Request.output?_of_not_read {request : Request} (noRead : request.isRead = false)
    (reply : request.Reply) : ∃ output, request.output? reply = some output := by
  cases request with
  | readFrom => cases noRead
  | _ => exact ⟨_, rfl⟩

private theorem Request.output?_read {handle : Handle} {buffer : Bytes} {wait : Option Duration}
    {delivery : Delivery} {outcome : Except Refusal Bytes}
    (delivered : delivery.delivered? buffer = some outcome) :
    (Request.readFrom handle buffer wait).output? delivery =
      some (answerToJson (fun bytes => (Payload.ofBytes bytes).toJson) outcome) := by
  simp only [Request.output?, delivered, Option.map_some]

namespace Client

variable {First Second State : Type}

/-- The first program is recorded to its end. The second, recorded anew on a player that holds what
the first adds to its tape, comes to the like, adds the same and leaves what comes later. -/
def Rerecords (related : First → Second → Prop) (left : Client First) (right : Client Second)
    (server : Server State) (state : State) (recorder : Recorder) : Prop :=
  ∃ result after recorded fresh, left.record server state recorder =
      some (result, after, recorded) ∧
    recorded.interactions.toList = recorder.interactions.toList ++ fresh ∧
    ∀ (player : Player) (later : List Interaction) (again : Recorder),
      player.Holds (fresh ++ later) → again.interactions = recorder.interactions →
        ∃ replayed next rerecorded, right.record Player.server player again =
            some (replayed, next, rerecorded) ∧
          related result replayed ∧ next.Holds later ∧
          rerecorded.interactions = recorded.interactions

variable {related : First → Second → Prop} {server : Server State} {state : State}
  {recorder : Recorder}

/-- Requests that are recorded alike, where a player has the reply that is recorded like the first. -/
theorem Rerecords.ask {first second : Request} {left : first.Reply → Client First}
    {right : second.Reply → Client Second} {output : Json} {played : second.Reply}
    (method : second.method = first.method) (input : second.input = first.input)
    (noted : first.output? (server.answer first state).1 = some output)
    (renoted : second.output? played = some output)
    (answers : ∀ (player : Player) (seq : UInt64) (rest : List Interaction),
      player.Holds (⟨seq, fileService, first.method, first.input, output⟩ :: rest) →
        ∃ next, Player.server.answer second player = (played, next) ∧ next.Holds rest)
    (rest : Rerecords related (left (server.answer first state).1) (right played) server
      (server.answer first state).2
      (recorder.record fileService first.method first.input output)) :
    Rerecords related (.ask first left) (.ask second right) server state recorder := by
  obtain ⟨result, after, recorded, fresh, ran, grown, replays⟩ := rest
  refine ⟨result, after, recorded,
    ⟨UInt64.ofNat recorder.interactions.size, fileService, first.method, first.input, output⟩ ::
      fresh, ?_, ?_, ?_⟩
  · simpa only [Client.record, Recorder.note, noted, Option.map_some] using ran
  · rw [grown]
    simp only [Recorder.record, Array.toList_push, List.append_assoc, List.singleton_append]
  · intro player later again holds same
    obtain ⟨next, answered, left⟩ := answers player _ _ holds
    have heard : (again.record fileService second.method second.input output).interactions =
        (recorder.record fileService first.method first.input output).interactions := by
      simp only [Recorder.record, same, method, input]
    obtain ⟨replayed, last, rerecorded, reran, alike, unplayed, equal⟩ :=
      replays next later _ left heard
    refine ⟨replayed, last, rerecorded, ?_, alike, unplayed, equal⟩
    simpa only [Client.record, Recorder.note, answered, renoted, Option.map_some] using reran

/-- Of two programs that are alike the second, recorded on a player of what was recorded of the
first, is recorded as the first was. -/
theorem Alike.rerecords {left : Client First} {right : Client Second}
    (alike : Alike related left right) (honest : server.StaysWithin) (state : State)
    (recorder : Recorder) : Rerecords related left right server state recorder := by
  -- After each request the player still holds what the rest of the first program records.
  induction alike generalizing state recorder with
  | done same =>
      refine ⟨_, state, recorder, [], rfl, by simp, ?_⟩
      intro player later again holds equal
      exact ⟨_, player, again, rfl, same, holds, equal⟩
  | @ask request left right noRead _ ih =>
      obtain ⟨output, noted⟩ :=
        Request.output?_of_not_read noRead (server.answer request state).1
      apply Rerecords.ask rfl rfl noted noted
      · intro player seq rest holds
        exact holds.answer noRead noted
      · exact ih _ _ _
  | @read handle leftBuffer rightBuffer wait left right sizes _ ih =>
      obtain ⟨outcome, delivered⟩ := honest.delivered? handle leftBuffer wait state
      have method : (Request.readFrom handle rightBuffer wait).method =
          (Request.readFrom handle leftBuffer wait).method := rfl
      have input : (Request.readFrom handle rightBuffer wait).input =
          (Request.readFrom handle leftBuffer wait).input := by
        simp only [Request.input, sizes]
      have redelivered := Player.delivered?_deliver delivered sizes
      apply Rerecords.ask method input (Request.output?_read delivered)
        (Request.output?_read redelivered)
      · intro player seq rest holds
        exact holds.answer_read handle rightBuffer wait
      · exact ih _ _ (Player.deliver_alike delivered sizes) _ _

/-- Of two programs that are alike the second, run on a player of what was recorded of the first,
ends as the first did. -/
theorem Alike.replayed {left : Client First} {right : Client Second}
    (alike : Alike related left right) (honest : server.StaysWithin) (state : State)
    (recorder : Recorder) :
    ∃ result after recorded fresh, left.record server state recorder =
        some (result, after, recorded) ∧
      recorded.interactions.toList = recorder.interactions.toList ++ fresh ∧
      ∀ (player : Player) (later : List Interaction), player.Holds (fresh ++ later) →
        ∃ replayed next, right.run Player.server player = (replayed, next) ∧
          related result replayed ∧ next.Holds later := by
  obtain ⟨result, after, recorded, fresh, ran, grown, replays⟩ :=
    alike.rerecords honest state recorder
  refine ⟨result, after, recorded, fresh, ran, grown, ?_⟩
  intro player later holds
  obtain ⟨replayed, next, _, reran, same, left, -⟩ := replays player later recorder holds rfl
  exact ⟨replayed, next, run_of_record reran, same, left⟩

end Client

/-- A session of any steps that is recorded over any server, and played again from the tape, comes
to the same in every step, and uses the tape up. -/
theorem Session.play_replays_record {State : Type} (server : Server State)
    (honest : server.StaysWithin) (state : State) (connection : Connection) (name : String)
    (address : Option String) (script : List Step) (wording : Wording) :
    ∃ outcomes after recorded replayed player,
      ((Session.start connection).play script).record server state
          { name := name, address := address } = some (outcomes, after, recorded) ∧
      ((Session.start connection).play script).run Player.server
          (Player.ofInteractions wording recorded.interactions.toList) = (replayed, player) ∧
      replayed.map Outcome.seen = outcomes.map Outcome.seen ∧ player.remaining = 0 := by
  obtain ⟨outcomes, after, recorded, fresh, ran, grown, replays⟩ :=
    ((Session.start connection).play_alike script).replayed honest state
      { name := name, address := address }
  simp only [List.nil_append] at grown
  obtain ⟨replayed, player, rerun, same, left⟩ :=
    replays (Player.ofInteractions wording fresh) []
      (by simpa using Player.holds_ofInteractions wording fresh)
  exact ⟨outcomes, after, recorded, replayed, player, ran, by rw [grown, rerun], same.symm,
    left.remaining⟩

/-- A session with a stream that stalls, a directory, a refused open and a reader that outlives its
connection, over a tree in memory. -/
theorem Session.play_replays_record_of_events :
    Tree.server.StaysWithin ∧
    ∃ outcomes after recorded replayed player,
      ((Session.start ⟨"mem!test", none⟩).play
          [.openLines "events" "/event",
            .advance "events" (some ⟨.ofMilliseconds 5, some [.ofMilliseconds 7]⟩),
            .openDirectory "entries" "/", .nextEntry "entries", .read "/none", .disconnect,
            .nextLine "events"]).record Tree.server
          ((Tree.empty {} 0).addStream "/event" [.stall, .data [0x61, 0x0A, 0xFF], .stall])
          { name := "events", address := some "mem!test" } = some (outcomes, after, recorded) ∧
      ((Session.start ⟨"mem!test", none⟩).play
          [.openLines "events" "/event",
            .advance "events" (some ⟨.ofMilliseconds 5, some [.ofMilliseconds 7]⟩),
            .openDirectory "entries" "/", .nextEntry "entries", .read "/none", .disconnect,
            .nextLine "events"]).run Player.server
          (Player.ofInteractions (fun _ _ => "invalid type") recorded.interactions.toList) =
        (replayed, player) ∧
      replayed.map Outcome.seen = outcomes.map Outcome.seen ∧ player.remaining = 0 :=
  ⟨Tree.server_staysWithin,
    Session.play_replays_record Tree.server Tree.server_staysWithin _ _ _ _ _ _⟩

end RemoteTree
