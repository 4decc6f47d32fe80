import RemoteTree.Proofs.Client.Command
import RemoteTree.Proofs.Tape.Transparent
import RemoteTree.Proofs.Tree.Deliveries

/-!
# Recordings of the program

The program comes to the same with and without a recording, up to the recording itself. On it are
the calls of the session, from the first to the one that unmounts the tree.
-/

set_option autoImplicit false

namespace RemoteTree

namespace Exchange

/-- The recorded form of what an exchange brought, if it has one. -/
def output (exchange : Exchange) : Json :=
  (exchange.request.output? exchange.reply).getD .null

/-- An exchange as the call of a number on a tape. -/
def interaction (number : Nat) (exchange : Exchange) : Interaction :=
  ⟨UInt64.ofNat number, fileService, exchange.request.method, exchange.request.input,
    exchange.output⟩

private theorem output?_eq (exchange : Exchange) (fits : ¬exchange.Overclaims) :
    exchange.request.output? exchange.reply = some exchange.output := by
  cases brought : exchange.request.output? exchange.reply with
  | some output => rw [Exchange.output, brought, Option.getD_some]
  | none =>
      have unnoted : ({ name := "" } : Recorder).note exchange.request exchange.reply = none :=
        congrArg (Option.map _) brought
      exact absurd ((Recorder.note_eq_none_iff _ exchange).mp unnoted) fits

end Exchange

namespace Recorder

/-- The recorder that has noted one more exchange. -/
def noting (recorder : Recorder) (exchange : Exchange) : Recorder :=
  recorder.record fileService exchange.request.method exchange.request.input exchange.output

private theorem note_eq (recorder : Recorder) {exchange : Exchange} (fits : ¬exchange.Overclaims) :
    recorder.note exchange.request exchange.reply = some (recorder.noting exchange) := by
  rw [note, exchange.output?_eq fits, Option.map_some, noting]

private theorem noteAll_eq (recorder : Recorder) {exchanges : List Exchange}
    (fit : ∀ exchange ∈ exchanges, ¬exchange.Overclaims) :
    recorder.noteAll exchanges = some (exchanges.foldl noting recorder) := by
  induction exchanges generalizing recorder with
  | nil => rfl
  | cons exchange rest ih =>
      rw [noteAll, recorder.note_eq (fit exchange List.mem_cons_self)]
      exact ih _ fun other member => fit other (List.mem_cons_of_mem _ member)

private theorem interactions_foldl_noting (recorder : Recorder) (exchanges : List Exchange) :
    (exchanges.foldl noting recorder).interactions.toList =
      recorder.interactions.toList ++
        exchanges.mapIdx fun index exchange =>
          exchange.interaction (recorder.interactions.size + index) := by
  induction exchanges generalizing recorder with
  | nil => exact (List.append_nil _).symm
  | cons exchange rest ih =>
      have here : (recorder.noting exchange).interactions =
          recorder.interactions.push (exchange.interaction recorder.interactions.size) := rfl
      simp only [List.foldl_cons, ih, here, Array.toList_push, Array.size_push, List.mapIdx_cons,
        List.append_assoc, List.singleton_append, Nat.add_zero, Nat.add_assoc, Nat.add_comm 1]

private theorem address_foldl_noting (recorder : Recorder) (exchanges : List Exchange) :
    (exchanges.foldl noting recorder).address = recorder.address := by
  induction exchanges generalizing recorder with
  | nil => rfl
  | cons exchange rest ih => exact ih _

private theorem name_foldl_noting (recorder : Recorder) (exchanges : List Exchange) :
    (exchanges.foldl noting recorder).name = recorder.name := by
  induction exchanges generalizing recorder with
  | nil => rfl
  | cons exchange rest ih => exact ih _

end Recorder

private theorem Server.StaysWithin.exchanges {State Result : Type} {server : Server State}
    (honest : server.StaysWithin) (program : Client Result) (state : State) :
    ∀ exchange ∈ program.exchanges server state, ¬exchange.Overclaims := by
  induction program generalizing state with
  | done result => exact fun exchange member => absurd member List.not_mem_nil
  | ask request next ih =>
      intro exchange member
      rcases List.mem_cons.mp member with rfl | later
      · intro overclaims
        cases request with
        | readFrom handle buffer wait =>
            obtain ⟨count, claimed, excess⟩ := overclaims
            exact absurd (honest handle buffer wait state count claimed) (Nat.not_le.mpr excess)
        | _ => exact overclaims
      · exact ih _ _ exchange later

private theorem Player.server_staysWithin : server.StaysWithin := by
  intro handle buffer wait player count claimed
  change (deliver buffer.length (player.playAnswer "read" bytesOfJson?).1).claimed = .ok count
    at claimed
  cases answer : (player.playAnswer "read" bytesOfJson?).1 with
  | error refusal =>
      rw [answer] at claimed
      cases claimed
  | ok bytes =>
      rw [answer, deliver] at claimed
      split at claimed
      · cases claimed
      · next fits =>
        cases claimed
        exact Nat.not_lt.mp fits

private theorem Mounted.server_staysWithin : server.StaysWithin := by
  intro handle buffer wait state count claimed
  cases state with
  | tree tree => exact Tree.server_staysWithin handle buffer wait tree count claimed
  | player player => exact Player.server_staysWithin handle buffer wait player count claimed

namespace Program

/-- The calls of the session of a command. Without a mount there is no session. -/
def calls {State : Type} (server : Server State) (mounted : Except ClientError State)
    (command : Command) (address : String) (input : Except String Bytes) (console : Console) :
    List Exchange :=
  match mounted with
  | .error _ => []
  | .ok state => (session command address input console).exchanges server state

/-- The tape of some calls, numbered in their order. -/
def tapeOf (address recordedAt : String) (calls : List Exchange) : Tape :=
  { name := recordingName
    recordedAt := recordedAt
    address := address
    interactions := calls.mapIdx fun number call => call.interaction number }

private theorem tape_foldl_noting (address recordedAt : String) (made : List Exchange) :
    (made.foldl Recorder.noting (Recorder.noteAddress { name := recordingName } address)).tape
      recordedAt = tapeOf address recordedAt made := by
  rw [Recorder.tape, Recorder.interactions_foldl_noting, Recorder.address_foldl_noting,
    Recorder.name_foldl_noting]
  simp [tapeOf, Recorder.noteAddress]

private theorem record_eq {State : Type} {server : Server State} (honest : server.StaysWithin)
    (mounted : Except ClientError State) (command : Command) (address : String)
    (input : Except String Bytes) (console : Console) :
    ∃ recorder, record server mounted command address input console =
        (run server mounted command address input console, some recorder) ∧
      ∀ recordedAt, recorder.tape recordedAt =
        tapeOf address recordedAt (calls server mounted command address input console) := by
  cases mounted with
  | error error => exact ⟨_, rfl, fun _ => rfl⟩
  | ok state =>
      have fit := honest.exchanges (session command address input console) state
      have released := (session_releases server state command address input console).1
      have noted := Recorder.noteAll_eq (Recorder.noteAddress { name := recordingName } address) fit
      -- Every call can be noted, and nothing holds on to the recorder at the end.
      refine ⟨_, ?_, fun recordedAt => tape_foldl_noting address recordedAt _⟩
      simp only [record, Client.record_eq, noted, Option.map_some, released, ↓reduceIte]
      rfl

section

variable {World : Type → Type} [Monad World]

/-- Keeps the tape of some calls where the settings ask for it. -/
def keepTape (host : Host World) (settings : Settings) (report : Report)
    (made : List Exchange) : World Report :=
  match settings.record with
  | none => return report
  | some path => do
      let tape := tapeOf settings.address (← host.timestamp) made
      return kept report path (← host.writeFile path tape.text)

private theorem runFor_eq (host : Host World) (settings : Settings)
    (mounted : Except ClientError Mounted) (command : Command) (input : Except String Bytes)
    (console : Console) :
    runFor host settings mounted command input console =
      keepTape host settings
        (run Mounted.server mounted command settings.address input console)
        (calls Mounted.server mounted command settings.address input console) := by
  obtain ⟨recorder, recorded, tape⟩ := record_eq Mounted.server_staysWithin mounted command
    settings.address input console
  unfold runFor keepTape
  rw [recorded]
  cases settings.record with
  | none => rfl
  | some path => simp only [tape]

/-- A recording that is asked for is the tape of all the calls of the session, on every way out of
the command, and a session leaves nothing behind. The report is the one without a recording, unless
the tape cannot be kept. -/
theorem dispatch_keeps_tape (host : Host World) (invocation : Invocation) :
    (dispatch host invocation = do
      let settings ← settings host invocation.address
      let mounted ← mount host settings.address
      let input ←
        if invocation.command.readsInput && mounted.toBool then host.input else pure (.ok [])
      let console : Console := { room := ← host.room }
      keepTape host settings
        (run Mounted.server mounted invocation.command settings.address input console)
        (calls Mounted.server mounted invocation.command settings.address input console)) ∧
    (∀ (address : String) (input : Except String Bytes) (console : Console),
      (∀ error,
        calls Mounted.server (.error error) invocation.command address input console = []) ∧
      ∀ state : Mounted,
        let made := calls Mounted.server (.ok state) invocation.command address input console
        ((session invocation.command address input console).run Mounted.server state).1.2.isOver =
          true ∧
        Orderly made ∧ (opened made).Perm (closed made) ∧ EndsUnmounted made ∧
        ∀ call ∈ made, call.request.output? call.reply = some call.output) ∧
    ∀ report path,
      (kept report path (.ok ())).result = report.result ∧
      ∀ fault, (kept report path (.error fault)).result = .error (.recording fault) := by
  refine ⟨?_, fun address input console => ⟨fun error => rfl, fun state => ?_⟩,
    fun report path => ⟨rfl, fun fault => rfl⟩⟩
  · simp only [dispatch, runFor_eq]
  · obtain ⟨released, orderly, balanced, ended⟩ :=
      session_releases Mounted.server state invocation.command address input console
    exact ⟨released, orderly, balanced, ended, fun call member => call.output?_eq
      (Mounted.server_staysWithin.exchanges _ state call member)⟩

end

/-- A line that there is no room to print: the stream is closed and the tree unmounted even so. -/
example :
    let tree := (Tree.empty {} 0).addStream "/event" [.data [97, 10]]
    let command : Command := .follow "/event" none none
    ((session command "mem!" (.ok []) { room := some ⟨0, "broken pipe"⟩ }).exchanges Mounted.server
        (.tree tree)).map (·.request.method) =
      ["open", "read", "close", "unmount"] := by
  decide +kernel

end Program

end RemoteTree
