import RemoteTree.Proofs.Client.Loops
import RemoteTree.Proofs.Client.Transfer

/-!
# Waiting and moving without a bound

The loops of a client without a count of turns: waiting under a callback that may answer for ever,
collecting what a file delivers, and offering what is to be written. On every server the programs
that run are these loops: a list of answers is a callback that ends, and the reads and writes that
a transfer is allowed are always enough.
-/

set_option autoImplicit false

namespace RemoteTree

/-- How long a step may wait, and the callback that is asked for extensions, if there is one. It
gives an answer to every number of earlier questions. -/
structure Timeout where
  after : Duration
  extension : Option (Nat → Duration)

namespace Timeout

/-- The wait of the first read, and the callback. A timeout of no length is none. -/
def waits : Option Timeout → Option Duration × Option (Nat → Duration)
  | some timeout =>
      if timeout.after.isZero then (none, none) else (some timeout.after, timeout.extension)
  | none => (none, none)

/-- The callback that gives the answers of a list and then extends no more. -/
def answering (answers : List Duration) (asked : Nat) : Duration := answers[asked]?.getD .zero

def ofDeadline (deadline : Deadline) : Timeout :=
  ⟨deadline.after, deadline.extensions.map answering⟩

private theorem waits_ofDeadline (deadline : Option Deadline) :
    waits (deadline.map ofDeadline) =
      ((Deadline.waits deadline).1, (Deadline.waits deadline).2.map answering) := by
  rcases deadline with _ | ⟨after, extensions⟩
  · rfl
  · simp only [Option.map_some, waits, ofDeadline, Deadline.waits]
    split <;> rfl

end Timeout

namespace LineReader

open Client (Turned Loops)

/-- A reader in the middle of a step: the bound of the next read, and the number of extensions that
have been asked for. -/
structure Attempt where
  reader : LineReader
  wait : Option Duration
  asked : Nat

/-- What a delivery brings a step to. -/
def judge (extension : Option (Nat → Duration)) (attempt : Attempt) (delivery : Delivery) :
    Turned Attempt (Option LineEvent × LineReader × Nat) :=
  let filled := Bytes.overlay delivery.received attempt.reader.buffer
  match arrival? attempt.reader.buffer.length delivery with
  | some arrival => .ended (attempt.reader.arrive (arrival, filled, attempt.asked))
  | none =>
      match extension with
      | none => .ended (attempt.reader.arrive (.timeout, filled, attempt.asked))
      | some answer =>
          if (answer attempt.asked).isZero then
            .ended (attempt.reader.arrive (.timeout, filled, attempt.asked + 1))
          else
            .again ⟨{ attempt.reader with buffer := filled }, some (answer attempt.asked),
              attempt.asked + 1⟩

/-- One turn of a step: a line that is pending, or one read. -/
def attemptOnce (extension : Option (Nat → Duration)) (attempt : Attempt) :
    Client (Turned Attempt (Option LineEvent × LineReader × Nat)) :=
  if attempt.reader.finished then .done (.ended (none, attempt.reader, attempt.asked))
  else if !attempt.reader.pending.isEmpty then
    .done (.ended
      (some (.line attempt.reader.takeLine.1), attempt.reader.takeLine.2, attempt.asked))
  else
    .ask (.readFrom attempt.reader.handle attempt.reader.buffer attempt.wait) fun delivery =>
      .done (judge extension attempt delivery)

/-- A step of a reader under a timeout, as a loop that its callback may keep going. -/
def Steps {State : Type} (server : Server State) (reader : LineReader) (timeout : Option Timeout) :
    State → List Exchange → Option LineEvent × LineReader × Nat → State → Prop :=
  Loops server (attemptOnce (Timeout.waits timeout).2) ⟨reader, (Timeout.waits timeout).1, 0⟩

variable {State : Type} {server : Server State} {reader : LineReader}

private theorem attemptOnce_of_finished (finished : reader.finished = true)
    (extension : Option (Nat → Duration)) (wait : Option Duration) (asked : Nat) :
    attemptOnce extension ⟨reader, wait, asked⟩ = .done (.ended (none, reader, asked)) :=
  if_pos finished

private theorem attemptOnce_of_pending (live : reader.finished = false)
    (pending : reader.pending ≠ [])
    (extension : Option (Nat → Duration)) (wait : Option Duration) (asked : Nat) :
    attemptOnce extension ⟨reader, wait, asked⟩ =
      .done (.ended (some (.line reader.takeLine.1), reader.takeLine.2, asked)) := by
  rw [attemptOnce, if_neg (by simp [live]), if_pos (by simpa using pending)]

private theorem attemptOnce_of_empty (live : reader.finished = false) (empty : reader.pending = [])
    (extension : Option (Nat → Duration)) (wait : Option Duration) (asked : Nat) :
    attemptOnce extension ⟨reader, wait, asked⟩ =
      .ask (.readFrom reader.handle reader.buffer wait) fun delivery =>
        .done (judge extension ⟨reader, wait, asked⟩ delivery) := by
  rw [attemptOnce, if_neg (by simp [live]), if_neg (by simp [empty])]

section Reads

variable {extension : Option (Nat → Duration)} {wait : Option Duration} {asked : Nat}
  {state middle after : State} {delivery : Delivery} {log : List Exchange}
  {result : Option LineEvent × LineReader × Nat} {next : Attempt}

variable (extension asked) in
private theorem run_attemptOnce (live : reader.finished = false) (empty : reader.pending = [])
    (answered : server.answer (.readFrom reader.handle reader.buffer wait) state =
      (delivery, middle)) :
    (attemptOnce extension ⟨reader, wait, asked⟩).run server state =
        (judge extension ⟨reader, wait, asked⟩ delivery, middle) ∧
      (attemptOnce extension ⟨reader, wait, asked⟩).exchanges server state =
        [⟨.readFrom reader.handle reader.buffer wait, delivery⟩] := by
  rw [attemptOnce_of_empty live empty]
  simp only [Client.run, Client.exchanges, answered, and_self]

private theorem loops_last (live : reader.finished = false) (empty : reader.pending = [])
    (answered : server.answer (.readFrom reader.handle reader.buffer wait) state =
      (delivery, after))
    (judged : judge extension ⟨reader, wait, asked⟩ delivery = .ended result) :
    Loops server (attemptOnce extension) ⟨reader, wait, asked⟩ state
      [⟨.readFrom reader.handle reader.buffer wait, delivery⟩] result after := by
  obtain ⟨ran, log⟩ := run_attemptOnce extension asked live empty answered
  rw [judged] at ran
  exact log ▸ .ended ran

private theorem loops_more (live : reader.finished = false) (empty : reader.pending = [])
    (answered : server.answer (.readFrom reader.handle reader.buffer wait) state =
      (delivery, middle))
    (judged : judge extension ⟨reader, wait, asked⟩ delivery = .again next)
    (rest : Loops server (attemptOnce extension) next middle log result after) :
    Loops server (attemptOnce extension) ⟨reader, wait, asked⟩ state
      (⟨.readFrom reader.handle reader.buffer wait, delivery⟩ :: log) result after := by
  obtain ⟨ran, first⟩ := run_attemptOnce extension asked live empty answered
  rw [judged] at ran
  have more := Loops.again ran rest
  rwa [first] at more

end Reads

/-- A wait with a list of answers is a loop with the callback that gives them. -/
theorem loops_await (live : reader.finished = false) (empty : reader.pending = [])
    {answers : Nat → Duration} {extensions : List Duration} {asked : Nat}
    (gives : ∀ index, answers (asked + index) = extensions[index]?.getD .zero) (buffer : Bytes)
    (wait : Option Duration) (state : State) :
    let waiting := await reader.handle buffer wait asked extensions
    Loops server (attemptOnce (some answers)) ⟨{ reader with buffer := buffer }, wait, asked⟩ state
      (waiting.exchanges server state) (reader.arrive (waiting.run server state).1)
      (waiting.run server state).2 := by
  induction extensions generalizing asked buffer wait state with
  | nil =>
      rcases answered : server.answer (.readFrom reader.handle buffer wait) state
        with ⟨delivery, after⟩
      have spent : (answers asked).isZero = true := by
        rw [← Nat.add_zero asked, gives]
        rfl
      simp only [await, Client.run, Client.exchanges, answered]
      cases arrives : arrival? buffer.length delivery with
      | some arrival =>
          refine loops_last live empty answered ?_
          simp only [judge, arrives]
          rfl
      | none =>
          refine loops_last live empty answered ?_
          simp only [judge, arrives, spent, if_true]
          rfl
  | cons extension extensions ih =>
      rcases answered : server.answer (.readFrom reader.handle buffer wait) state
        with ⟨delivery, after⟩
      have first : answers asked = extension := by
        rw [← Nat.add_zero asked, gives]
        rfl
      have others : ∀ index, answers (asked + 1 + index) = extensions[index]?.getD .zero := by
        intro index
        rw [Nat.add_assoc, Nat.add_comm 1, gives]
        rfl
      simp only [await, Client.run, Client.exchanges, answered]
      cases arrives : arrival? buffer.length delivery with
      | some arrival =>
          refine loops_last live empty answered ?_
          simp only [judge, arrives]
          rfl
      | none =>
          dsimp only
          split
          · next spent =>
            refine loops_last live empty answered ?_
            simp only [judge, arrives, first, spent, if_true]
            rfl
          · next more =>
            refine loops_more live empty answered ?_ (ih others _ (some extension) after)
            simp only [judge, arrives, first, if_neg more]

/-- Without a callback one read decides. -/
theorem loops_await_once (live : reader.finished = false) (empty : reader.pending = [])
    (wait : Option Duration) (state : State) :
    let waiting := awaitWith reader.handle reader.buffer wait none
    Loops server (attemptOnce none) ⟨reader, wait, 0⟩ state
      (waiting.exchanges server state) (reader.arrive (waiting.run server state).1)
      (waiting.run server state).2 := by
  rcases answered : server.answer (.readFrom reader.handle reader.buffer wait) state
    with ⟨delivery, after⟩
  simp only [awaitWith, await, Client.run_andThen, Client.exchanges_andThen, Client.run,
    Client.exchanges, answered]
  cases arrives : arrival? reader.buffer.length delivery with
  | some arrival =>
      refine loops_last live empty answered ?_
      simp only [judge, arrives]
      rfl
  | none =>
      refine loops_last live empty answered ?_
      simp only [judge, arrives]
      rfl

/-- A step under a deadline is a step under the callback that gives the deadline's answers. -/
theorem steps_advance (server : Server State) (reader : LineReader) (deadline : Option Deadline)
    (state : State) :
    Steps server reader (deadline.map Timeout.ofDeadline) state
      ((reader.advance deadline).exchanges server state)
      ((reader.advance deadline).run server state).1
      ((reader.advance deadline).run server state).2 := by
  rw [Steps, Timeout.waits_ofDeadline]
  by_cases finished : reader.finished = true
  · rw [advance_of_finished reader finished]
    exact .of_done (attemptOnce_of_finished finished _ _ _) state
  · have live : reader.finished = false := by simpa using finished
    by_cases empty : reader.pending = []
    · rw [advance_of_empty reader live empty, Client.exchanges_andThen, Client.run_andThen]
      simp only [Client.exchanges, Client.run, List.append_nil]
      cases (Deadline.waits deadline).2 with
      | none => exact loops_await_once live empty _ state
      | some extensions =>
          refine loops_await live empty (fun index => ?_) reader.buffer _ state
          rw [Nat.zero_add]
          rfl
    · rw [advance_of_pending reader live empty]
      exact .of_done (attemptOnce_of_pending live empty _ _ _) state

end LineReader

namespace Client

variable {State : Type}

/-! ## Transfers -/

/-- One read of a file that is read at once, with what has been collected and the buffer behind
it. -/
def collectOnce (handle : Handle) (path : String) (limit : Option Nat) :
    Bytes × Bytes → Client (Turned (Bytes × Bytes) (Except ClientError Bytes))
  | (collected, tail) =>
      let window := tail.take handle.transferSize
      .ask (.readFrom handle window none) fun delivery =>
        match delivery.claimed with
        | .error source => .done (.ended (.error (.read path source)))
        | .ok 0 => .done (.ended (.ok collected))
        | .ok count =>
            if window.length < count then
              .done (.ended (.error (.protocol path (.overlongRead count window.length))))
            else
              let filled := Bytes.overlay delivery.received window
              let collected := collected ++ filled.take count
              let tail := filled.drop count ++ tail.drop handle.transferSize
              if !tail.isEmpty then .done (.again (collected, tail))
              else if readLimit ≤ collected.length then .done (.ended (.ok collected))
              else if fits limit readLimit then
                .done (.again (collected, Bytes.zeros (readLimit - collected.length)))
              else .done (.ended (.error (.allocate path readLimit)))

/-- One write of data that is written at once, with what the server has not taken yet. -/
def offerOnce (handle : Handle) (path : String) :
    Bytes → Client (Turned Bytes (Except ClientError Unit))
  | [] => .done (.ended (.ok ()))
  | remaining =>
      .ask (.writeTo handle remaining) fun reply =>
        match reply with
        | .error source => .done (.ended (.error (.write path source)))
        | .ok count =>
            if remaining.length < count then
              .done (.ended (.error (.protocol path (.overlongWrite count remaining.length))))
            else if count = 0 then .done (.ended (.error (.write path acceptedNothing)))
            else .done (.again (remaining.drop count))

theorem collect_succ (handle : Handle) (path : String) (limit : Option Nat) (reads : Nat)
    (held tail : Bytes) :
    collect handle path limit (reads + 1) held tail =
      (collectOnce handle path limit (held, tail)).andThen
        (Turned.follow fun next => collect handle path limit reads next.1 next.2) := by
  rw [collect, collectOnce, andThen]
  congr 1
  funext delivery
  obtain ⟨received, claimed⟩ := delivery
  rcases claimed with source | _ | count
  · rfl
  · rfl
  · show (if _ then _ else _) = Client.andThen (if _ then _ else _) _
    split
    · rfl
    · dsimp only
      split_ifs <;> rfl

theorem offer_succ (handle : Handle) (path : String) (writes : Nat) (remaining : Bytes) :
    offer handle path (writes + 1) remaining =
      (offerOnce handle path remaining).andThen (Turned.follow (offer handle path writes)) := by
  cases remaining with
  | nil => rfl
  | cons byte rest =>
      rw [offer, offerOnce, andThen]
      · congr 1
        funext reply
        cases reply with
        | error source => rfl
        | ok count =>
            dsimp only
            split_ifs <;> rfl
      all_goals simp

/-- Collecting goes on only behind a read that brings something, and within the limit. -/
theorem collectOnce_again {State : Type} {server : Server State} {state after : State}
    {handle : Handle} {path : String} {limit : Option Nat} {held tail : Bytes}
    {next : Bytes × Bytes} (within : held.length + tail.length ≤ readLimit)
    (ran : (collectOnce handle path limit (held, tail)).run server state = (.again next, after)) :
    held.length < next.1.length ∧ next.1.length + next.2.length ≤ readLimit := by
  rcases answered : server.answer (.readFrom handle (tail.take handle.transferSize) none) state
    with ⟨⟨received, claimed⟩, later⟩
  have length := Bytes.length_overlay received (tail.take handle.transferSize)
  rcases claimed with source | _ | count
  · simp only [collectOnce, run, answered] at ran
    cases ran
  · simp only [collectOnce, run, answered] at ran
    cases ran
  · simp only [collectOnce, run, answered] at ran
    split at ran
    · cases ran
    · next fit =>
      rw [← length, Nat.not_lt] at fit
      have left := length_left fit
      have size := List.length_take_of_le fit
      split at ran
      · cases ran
        dsimp only
        rw [List.length_append]
        omega
      · split at ran
        · cases ran
        · next short =>
          split at ran
          · cases ran
            dsimp only
            rw [List.length_append] at short ⊢
            rw [Bytes.zeros, List.length_replicate]
            omega
          · cases ran

/-- What is read at once is collected by a loop. -/
theorem loops_collect (server : Server State) (handle : Handle) (path : String)
    (limit : Option Nat) {reads : Nat} {held tail : Bytes}
    (within : held.length + tail.length ≤ readLimit) (enough : readLimit < held.length + reads)
    (state : State) :
    Loops server (collectOnce handle path limit) (held, tail) state
      ((collect handle path limit reads held tail).exchanges server state)
      ((collect handle path limit reads held tail).run server state).1
      ((collect handle path limit reads held tail).run server state).2 := by
  refine Loops.of_fuel
    (fun reads (stage : Bytes × Bytes) => collect handle path limit reads stage.1 stage.2)
    (fun reads stage _ => stage.1.length + stage.2.length ≤ readLimit ∧
      readLimit < stage.1.length + reads)
    (fun reads stage => collect_succ handle path limit reads stage.1 stage.2)
    (fun stage state ready => ?_) (fun reads stage state next after ready ran => ?_)
    ⟨within, enough⟩
  · obtain ⟨within, enough⟩ := ready
    omega
  · obtain ⟨within, enough⟩ := ready
    obtain ⟨brings, stays⟩ := collectOnce_again within ran
    exact ⟨stays, by omega⟩

/-- What is written at once is offered by a loop. -/
theorem loops_offer (server : Server State) (handle : Handle) (path : String) {writes : Nat}
    {data : Bytes} (enough : data.length ≤ writes) (state : State) :
    Loops server (offerOnce handle path) data state
      ((offer handle path writes data).exchanges server state)
      ((offer handle path writes data).run server state).1
      ((offer handle path writes data).run server state).2 := by
  refine Loops.of_fuel (offer handle path) (fun writes data _ => data.length ≤ writes)
    (offer_succ handle path) (fun data state none => ?_)
    (fun writes data state next after enough ran => ?_) enough
  · obtain rfl := List.eq_nil_of_length_eq_zero (Nat.le_zero.mp none)
    exact ⟨_, rfl, rfl⟩
  · cases data with
    | nil => cases ran
    | cons byte rest =>
        rcases answered : server.answer (.writeTo handle (byte :: rest)) state with ⟨reply, later⟩
        cases reply with
        | error source =>
            simp only [offerOnce, run, answered] at ran
            cases ran
        | ok count =>
            simp only [offerOnce, run, answered] at ran
            split at ran
            · cases ran
            · split at ran
              · cases ran
              · cases ran
                rw [List.length_drop]
                omega

end Client

end RemoteTree
