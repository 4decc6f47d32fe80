import RemoteTree.Client.Step
import RemoteTree.Proofs.Client.Custody
import RemoteTree.Server.Script
import RemoteTree.Tape.Recorder

/-!
# Runs with and without a recorder

A recorder notes every exchange of a run and changes none. It cannot note a read whose server
claims more bytes than there was room for, and a run with such a read breaks off. Without a
recorder the client reports it, or takes it for the end of the file.
-/

set_option autoImplicit false

namespace RemoteTree

/-- The reply to a read that claims more bytes than there was room for. -/
def Exchange.Overclaims : Exchange → Prop
  | ⟨.readFrom _ buffer _, delivery⟩ =>
      ∃ count, delivery.claimed = .ok count ∧ buffer.length < count
  | _ => False

/-- A server that keeps a list of the exchanges that reach it. -/
def Server.logging {State : Type} (server : Server State) : Server (State × List Exchange) where
  answer request state :=
    let (reply, next) := server.answer request state.1
    (reply, next, state.2 ++ [⟨request, reply⟩])

namespace Recorder

/-- The recorder after some exchanges, unless there is one that it cannot note. -/
def noteAll (recorder : Recorder) : List Exchange → Option Recorder
  | [] => some recorder
  | exchange :: rest =>
      (recorder.note exchange.request exchange.reply).bind fun recorder => recorder.noteAll rest

theorem note_eq_none_iff (recorder : Recorder) (exchange : Exchange) :
    recorder.note exchange.request exchange.reply = none ↔ exchange.Overclaims := by
  obtain ⟨request, reply⟩ := exchange
  cases request with
  | readFrom handle buffer wait =>
      simp only [note, Request.output?, Delivery.delivered?, Exchange.Overclaims,
        Option.map_eq_none_iff]
      cases claimed : reply.claimed with
      | error refusal => simp
      | ok count => simp
  | _ => simp [note, Request.output?, Exchange.Overclaims]

private theorem noteAll_eq_none_iff (recorder : Recorder) (exchanges : List Exchange) :
    recorder.noteAll exchanges = none ↔ ∃ exchange ∈ exchanges, exchange.Overclaims := by
  induction exchanges generalizing recorder with
  | nil => simp [noteAll]
  | cons exchange rest ih =>
      have first := recorder.note_eq_none_iff exchange
      rw [noteAll, List.exists_mem_cons_iff, ← first]
      cases recorder.note exchange.request exchange.reply with
      | none => simp
      | some recorder => simp [ih]

end Recorder

namespace Client

variable {First Second State : Type}

/-- Some read of a run is over-reported. -/
def Overclaimed (server : Server State) (program : Client First) (state : State) : Prop :=
  ∃ exchange ∈ program.exchanges server state, exchange.Overclaims

/-- A recorded run is the run, with its exchanges noted one after the other. -/
theorem record_eq (server : Server State) (program : Client First) (state : State)
    (recorder : Recorder) :
    program.record server state recorder =
      (recorder.noteAll (program.exchanges server state)).map fun recorded =>
        ((program.run server state).1, (program.run server state).2, recorded) := by
  induction program generalizing state recorder with
  | done result => rfl
  | ask request next ih =>
      simp only [record, exchanges, run, Recorder.noteAll]
      cases recorder.note request (server.answer request state).1 with
      | none => rfl
      | some recorder => exact ih _ _ recorder

theorem run_of_record {server : Server State} {program : Client First} {state after : State}
    {recorder recorded : Recorder} {result : First}
    (ran : program.record server state recorder = some (result, after, recorded)) :
    program.run server state = (result, after) := by
  rw [record_eq, Option.map_eq_some_iff] at ran
  obtain ⟨noted, -, same⟩ := ran
  cases same
  rfl

private theorem run_logging (server : Server State) (program : Client First) (state : State)
    (log : List Exchange) :
    program.run server.logging (state, log) =
      ((program.run server state).1, (program.run server state).2,
        log ++ program.exchanges server state) := by
  induction program generalizing state log with
  | done result => simp [run, exchanges]
  | ask request next ih =>
      simp only [run, exchanges, Server.logging] at ih ⊢
      rw [ih, List.append_assoc, List.singleton_append]

private theorem exchanges_logging (server : Server State) (program : Client First) (state : State)
    (log : List Exchange) :
    program.exchanges server.logging (state, log) = program.exchanges server state := by
  induction program generalizing state log with
  | done result => rfl
  | ask request next ih =>
      simp only [exchanges, Server.logging] at ih ⊢
      rw [ih]

/-! ## What comes of a read that is over-reported -/

/-- Whatever the answers are, the result is as wanted. -/
def Returns : Client First → (First → Prop) → Prop
  | .done result, wanted => wanted result
  | .ask _ next, wanted => ∀ reply, (next reply).Returns wanted

/-- Whatever the answers are, the result is as wanted if one of them claims too much. -/
def Reports : Client First → (First → Prop) → Prop
  | .done _, _ => True
  | .ask request next, wanted =>
      ∀ reply, (next reply).Reports wanted ∧
        (Exchange.Overclaims ⟨request, reply⟩ → (next reply).Returns wanted)

variable {wanted : First → Prop} {further : Second → Prop} {program : Client First}

private theorem Returns.run (returns : program.Returns wanted) (server : Server State)
    (state : State) : wanted (program.run server state).1 := by
  induction program generalizing state with
  | done result => exact returns
  | ask request next ih => exact ih _ (returns _) _

/-- The result of a run in which a read was over-reported. -/
theorem Reports.run (reports : program.Reports wanted) (server : Server State) (state : State)
    (overclaimed : program.Overclaimed server state) :
    wanted (program.run server state).1 := by
  induction program generalizing state with
  | done result =>
      obtain ⟨exchange, member, -⟩ := overclaimed
      cases member
  | ask request next ih =>
      obtain ⟨later, here⟩ := reports (server.answer request state).1
      rcases (List.exists_mem_cons_iff ..).mp overclaimed with first | rest
      · exact (here first).run server _
      · exact ih _ later _ rest

private theorem Returns.andThen (returns : program.Returns wanted) {next : First → Client Second}
    (rest : ∀ result, wanted result → (next result).Returns further) :
    (program.andThen next).Returns further := by
  induction program with
  | done result => exact rest result returns
  | ask request program ih =>
      intro reply
      exact ih reply (returns reply)

private theorem Reports.andThen (reports : program.Reports wanted) {next : First → Client Second}
    (returns : ∀ result, wanted result → (next result).Returns further)
    (rest : ∀ result, (next result).Reports further) :
    (program.andThen next).Reports further := by
  induction program with
  | done result => exact rest result
  | ask request program ih =>
      intro reply
      obtain ⟨later, here⟩ := reports reply
      constructor
      · exact ih reply later
      · intro overclaims
        exact (here overclaims).andThen returns

/-- The failure of an operation on a path whose server claimed more bytes than were asked for. -/
def Overlong {Result : Type} (path : String) (result : Except ClientError Result) : Prop :=
  ∃ claimed requested, requested < claimed ∧
    result = .error (.protocol path (.overlongRead claimed requested))

private theorem collect_reports (handle : Handle) (path : String) (limit : Option Nat) (reads : Nat)
    (collected tail : Bytes) :
    (collect handle path limit reads collected tail).Reports (Overlong path) := by
  induction reads generalizing collected tail with
  | zero => trivial
  | succ reads ih =>
      intro delivery
      constructor
      · dsimp only
        split
        · trivial
        · trivial
        · split
          · trivial
          · split
            · exact ih _ _
            · split
              · trivial
              · split
                · exact ih _ _
                · trivial
      · rintro ⟨count, claimed, excess⟩
        cases count with
        | zero => cases excess
        | succ count =>
            simp only [claimed, excess, ↓reduceIte]
            exact ⟨_, _, excess, rfl⟩

private theorem readCapped_reports (handle : Handle) (path : String) (limit : Option Nat) :
    (readCapped handle path limit).Reports (Overlong path) := by
  unfold readCapped
  dsimp only
  split
  · exact collect_reports handle path limit _ _ _
  · trivial

end Client

private theorem Connection.read_reports (connection : Connection) (path : String) :
    (connection.read path).Reports (Client.Overlong path) := by
  intro reply
  constructor
  · cases reply with
    | error source => trivial
    | ok handle =>
        apply (Client.readCapped_reports handle path connection.bufferLimit).andThen
        · intro result overlong reply
          exact overlong
        · intro result reply
          exact ⟨trivial, False.elim⟩
  · exact False.elim

private theorem DirectoryReader.next_reports (reader : DirectoryReader) :
    reader.next.Reports fun result =>
      result.2.finished = true ∧ ∃ entry, result.1 = some entry ∧
        Client.Overlong reader.path entry := by
  unfold next
  split
  · trivial
  · split
    · trivial
    · intro delivery
      constructor
      · dsimp only
        split
        · trivial
        · trivial
        · split <;> trivial
      · rintro ⟨count, claimed, excess⟩
        cases count with
        | zero => cases excess
        | succ count =>
            have excess : (Bytes.overlay delivery.received reader.buffer).length < count + 1 := by
              rwa [Bytes.length_overlay]
            simp only [claimed, excess, ↓reduceIte]
            exact ⟨rfl, _, rfl, _, _, excess, rfl⟩

namespace LineReader

private theorem arrival?_of_overclaims {handle : Handle} {buffer : Bytes} {wait : Option Duration}
    {delivery : Delivery}
    (overclaims : Exchange.Overclaims ⟨.readFrom handle buffer wait, delivery⟩) :
    arrival? buffer.length delivery = some .nothing := by
  obtain ⟨count, claimed, excess⟩ := overclaims
  cases count with
  | zero => cases excess
  | succ count => simp only [arrival?, claimed, excess, ↓reduceIte]

private theorem await_reports (handle : Handle) (buffer : Bytes) (wait : Option Duration)
    (asked : Nat) (extensions : List Duration) :
    (await handle buffer wait asked extensions).Reports fun arrived => arrived.1 = .nothing := by
  induction extensions generalizing buffer wait asked with
  | nil =>
      intro delivery
      constructor
      · dsimp only
        split <;> trivial
      · intro overclaims
        simp only [arrival?_of_overclaims overclaims]
        rfl
  | cons extension rest ih =>
      intro delivery
      constructor
      · dsimp only
        split
        · trivial
        · split
          · trivial
          · exact ih _ _ _
      · intro overclaims
        simp only [arrival?_of_overclaims overclaims]
        rfl

private theorem awaitWith_reports (handle : Handle) (buffer : Bytes) (wait : Option Duration)
    (extensions : Option (List Duration)) :
    (awaitWith handle buffer wait extensions).Reports fun arrived => arrived.1 = .nothing := by
  cases extensions with
  | some extensions => exact await_reports handle buffer wait 0 extensions
  | none =>
      apply (await_reports handle buffer wait 0 []).andThen
      · intro arrived nothing
        exact nothing
      · intro arrived
        trivial

private theorem advance_reports (reader : LineReader) (deadline : Option Deadline) :
    (reader.advance deadline).Reports fun result =>
      result.1 = none ∧ result.2.1.finished = true := by
  unfold advance
  split
  · trivial
  · split
    · trivial
    · apply (awaitWith_reports reader.handle reader.buffer _ _).andThen
      · rintro ⟨arrival, buffer, asked⟩ rfl
        exact ⟨rfl, rfl⟩
      · rintro ⟨arrival, buffer, asked⟩
        cases arrival <;> trivial

private theorem next_reports (reader : LineReader) :
    reader.next.Reports fun result => result.1 = none ∧ result.2.finished = true := by
  apply (reader.advance_reports none).andThen
  · rintro ⟨event, last, asked⟩ ⟨rfl, finished⟩
    exact ⟨rfl, finished⟩
  · rintro ⟨event, last, asked⟩
    dsimp only
    split <;> trivial

end LineReader

namespace Session

/-- A recorded session has the outcomes of the plain one and brings the server the same calls,
exactly if no read of it is over-reported. If one is, the recorded session breaks off without an
outcome, where the plain operations report a breach of protocol or the end of the file. -/
theorem record_transparent_iff {State : Type} (server : Server State) (connection : Connection)
    (script : List Step) (state : State) (recorder : Recorder) :
    let session := (start connection).play script
    let plain := session.run server state
    let calls := session.exchanges server state
    let recording := session.record server.logging (state, []) recorder
    ((∃ recorded, recording = some (plain.1, (plain.2, calls), recorded)) ↔
      ¬ session.Overclaimed server state) ∧
    (session.Overclaimed server state → recording = none) ∧
    (∀ path current, (connection.read path).Overclaimed server current →
      ∃ claimed requested, requested < claimed ∧ ((connection.read path).run server current).1 =
        .error (.protocol path (.overlongRead claimed requested))) ∧
    (∀ (reader : DirectoryReader) current, reader.next.Overclaimed server current →
      (reader.next.run server current).1.2.finished = true ∧
        ∃ claimed requested, requested < claimed ∧ (reader.next.run server current).1.1 =
          some (.error (.protocol reader.path (.overlongRead claimed requested)))) ∧
    (∀ (reader : LineReader) deadline current, (reader.advance deadline).Overclaimed server current →
      ((reader.advance deadline).run server current).1.1 = none ∧
        ((reader.advance deadline).run server current).1.2.1.finished = true) ∧
    ∀ (reader : LineReader) current, reader.next.Overclaimed server current →
      (reader.next.run server current).1.1 = none ∧
        (reader.next.run server current).1.2.finished = true := by
  intro session plain calls recording
  have recording_eq : recording =
      (recorder.noteAll calls).map fun recorded => (plain.1, (plain.2, calls), recorded) := by
    change session.record server.logging (state, []) recorder = _
    rw [Client.record_eq, Client.exchanges_logging, Client.run_logging, List.nil_append]
  have broken := recorder.noteAll_eq_none_iff calls
  refine ⟨?_, ?_, ?_, ?_, ?_, ?_⟩
  · rw [recording_eq, Client.Overclaimed, ← broken]
    cases recorder.noteAll calls with
    | none => simp
    | some recorded => simp
  · intro overclaimed
    rw [recording_eq, broken.mpr overclaimed, Option.map_none]
  · intro path state overclaimed
    exact (connection.read_reports path).run server state overclaimed
  · intro reader state overclaimed
    obtain ⟨finished, entry, reported, claimed, requested, excess, rfl⟩ :=
      reader.next_reports.run server state overclaimed
    exact ⟨finished, claimed, requested, excess, reported⟩
  · intro reader deadline state overclaimed
    exact (reader.advance_reports deadline).run server state overclaimed
  · intro reader state overclaimed
    exact reader.next_reports.run server state overclaimed

/-- A read of five bytes into a buffer of four is a breach of protocol to a plain session, whether
a file is read or a directory, and the end of a file that is read by lines. A recorded session
breaks off. -/
theorem record_breaks_off :
    let connection : Connection := ⟨"mem!test", none⟩
    let handle : Handle := ⟨1, 4, 0⟩
    let data : Bytes := [0x61, 0x62, 0x63, 0x64]
    let script : Script := { opens := [.ok handle], reads := [⟨data, .ok 5⟩] }
    let violation : ClientError := .protocol "/f" (.overlongRead 5 4)
    let entries := DirectoryReader.start handle "/f"
    let lines := LineReader.start handle "/f"
    let read := (start connection).play [.read "/f"]
    let entry := (start connection).play [.openDirectory "d" "/f", .nextEntry "d"]
    let line := (start connection).play [.openLines "l" "/f", .nextLine "l"]
    (read.run Script.server script).1 = [.bytes (.error violation)] ∧
      (entry.run Script.server script).1 =
        [.openedDirectory (.ok entries),
          .entry (some (.error violation)) { entries with buffer := data, finished := true }] ∧
      (line.run Script.server script).1 =
        [.openedLines (.ok lines), .line none { lines with buffer := data, finished := true }] ∧
      ∀ recorder, read.record Script.server script recorder = none ∧
        entry.record Script.server script recorder = none ∧
        line.record Script.server script recorder = none := by
  intro connection handle data script violation entries lines read entry line
  refine ⟨?_, ?_, ?_, ?_⟩
  · with_unfolding_all rfl
  · with_unfolding_all rfl
  · with_unfolding_all rfl
  · intro recorder
    exact ⟨rfl, rfl, rfl⟩

end Session

end RemoteTree
