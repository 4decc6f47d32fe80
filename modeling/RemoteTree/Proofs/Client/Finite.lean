import RemoteTree.Proofs.Client.Costs
import RemoteTree.Proofs.Client.Entries
import RemoteTree.Proofs.Client.Following
import RemoteTree.Proofs.Tape.Order
import RemoteTree.Proofs.Tree.Refused

/-!
# Finite servers

Retrying, transferring and iterating end on a tree in memory and on a tape, even under a callback
that always extends a wait. A timeout costs a tree a stall, and whatever a tape answers without a
refusal costs it a recorded call.
-/

set_option autoImplicit false

namespace RemoteTree

open Client (Loops Pays PaysReads PaysWrites PaysTransfers Turned)

/-! ## Iterating until nothing is left -/

section

variable {State : Type} {server : Server State} {fund : State → Nat}

namespace Client

variable {Reader Item : Type} {next : Reader → Client (Option Item × Reader)}
  {size : Reader → Nat}

private theorem takeOnce_pays
    (pays : ∀ reader, Pays server (next reader) (fun state => fund state + 1)
      (fun result state => fund state + result.1.isSome.toNat)) (taken : List Item × Reader) :
    Pays server (takeOnce next taken) (fun state => fund state + 1)
      (Turned.fund (fun _ state => fund state + 1) (fun _ state => fund state)) := by
  refine (pays taken.2).andThen fun (item, later) => ?_
  cases item with
  | none => exact .done fun state => Nat.le_refl _
  | some item => exact .done fun state => Nat.le_refl _

theorem run_takeOnce_again {taken further : List Item × Reader} {state after : State}
    (ran : (takeOnce next taken).run server state = (.again further, after)) :
    ∃ item later, (next taken.2).run server state = ((some item, later), after) ∧
      further = (taken.1 ++ [item], later) ∧
      (takeOnce next taken).exchanges server state = (next taken.2).exchanges server state := by
  rcases step : (next taken.2).run server state with ⟨⟨item, later⟩, middle⟩
  rw [takeOnce, run_andThen, step] at ran
  cases item with
  | none => cases ran
  | some item =>
      cases ran
      refine ⟨item, later, rfl, rfl, ?_⟩
      rw [takeOnce, exchanges_andThen, step]
      exact List.append_nil _

/-- Items run out if every step is paid for and a step without an exchange makes a reader
smaller. -/
theorem takes_of_pays
    (pays : ∀ reader, Pays server (next reader) (fun state => fund state + 1)
      (fun result state => fund state + result.1.isSome.toNat))
    (shrinks : ∀ reader state item later after,
      (next reader).run server state = ((some item, later), after) →
      (next reader).exchanges server state = [] → size later < size reader)
    (reader : Reader) (state : State) :
    ∃ log result after, Loops server (takeOnce next) ([], reader) state log result after ∧
      log.length ≤ fund state + 1 := by
  have descends : ∀ (taken : List Item × Reader) (state : State) (further : List Item × Reader)
      (after : State), (takeOnce next taken).run server state = (.again further, after) →
      toLex (fund after, size further.2) < toLex (fund state, size taken.2) := by
    intro taken state further after ran
    obtain ⟨item, later, step, rfl, -⟩ := run_takeOnce_again ran
    have paid : _ + (fund after + 1) ≤ fund state + 1 := (pays taken.2).covers step
    rw [Prod.Lex.toLex_lt_toLex]
    cases log : (next taken.2).exchanges server state with
    | nil =>
        have smaller := shrinks taken.2 state item later after step log
        dsimp only
        omega
    | cons exchange rest =>
        rw [log, List.length_cons] at paid
        dsimp only
        omega
  obtain ⟨log, result, after, run⟩ := Loops.exists_of_descends descends ([], reader) state
  have paid := Loops.length_le (takeOnce_pays pays) run
  exact ⟨log, result, after, run, by omega⟩

end Client

namespace LineReader

private theorem length_takeLine (reader : LineReader) (pending : reader.pending ≠ []) :
    reader.takeLine.2.pending.length < reader.pending.length := by
  obtain ⟨consumed, taken⟩ := reader.takeLine_eq
  have some := List.length_pos_of_ne_nil pending
  rw [taken, List.length_drop]
  omega

private theorem attemptOnce_silent {extension : Option (Nat → Duration)} {attempt : Attempt}
    {turned : Turned Attempt (Option LineEvent × LineReader × Nat)} {state after : State}
    (ran : (attemptOnce extension attempt).run server state = (turned, after))
    (silent : (attemptOnce extension attempt).exchanges server state = []) :
    ∃ event later, turned = .ended (event, later, attempt.asked) ∧
      (event ≠ none → later.pending.length < attempt.reader.pending.length) := by
  unfold attemptOnce at ran silent
  split at ran
  · cases ran
    exact ⟨none, _, rfl, fun some => (some rfl).elim⟩
  · next live =>
    rw [if_neg live] at silent
    split at ran
    · next pending =>
      cases ran
      exact ⟨_, _, rfl, fun _ => length_takeLine _ (by simpa using pending)⟩
    · next empty =>
      rw [if_neg empty] at silent
      cases silent

private theorem attemptOnce_busy {extension : Option (Nat → Duration)} (attempt : Attempt)
    (state : State) (next : Attempt) (after : State)
    (ran : (attemptOnce extension attempt).run server state = (.again next, after)) :
    (attemptOnce extension attempt).exchanges server state ≠ [] := by
  intro silent
  obtain ⟨event, later, ended, -⟩ := attemptOnce_silent ran silent
  cases ended

private theorem timedOut_of_arrival? {size : Nat} {delivery : Delivery}
    (expired : arrival? size delivery = none) : delivery.claimed = .error .timedOut := by
  unfold arrival? at expired
  split at expired
  · cases expired
  · split at expired
    · cases expired
    · cases expired
  · next claimed => exact claimed
  · cases expired

/-- A reader that steps until a step yields nothing, each step under the timeout that the events
before it lead to. -/
inductive Listens (server : Server State) (timeouts : List LineEvent → Option Timeout) :
    List LineEvent → LineReader → State → List Exchange → List LineEvent × LineReader → State →
      Prop where
  | ended {heard : List LineEvent} {reader later : LineReader} {state after : State}
      {log : List Exchange} {asked : Nat}
      (step : reader.Steps server (timeouts heard) state log (none, later, asked) after) :
      Listens server timeouts heard reader state log (heard, later) after
  | again {heard : List LineEvent} {reader later : LineReader} {state middle after : State}
      {log more : List Exchange} {event : LineEvent} {asked : Nat}
      {result : List LineEvent × LineReader}
      (step : reader.Steps server (timeouts heard) state log (some event, later, asked) middle)
      (rest : Listens server timeouts (heard ++ [event]) later middle more result after) :
      Listens server timeouts heard reader state (log ++ more) result after

private theorem steps_end (paid : PaysReads server fund) (reader : LineReader)
    (timeout : Option Timeout) (state : State) :
    ∃ log result after, reader.Steps server timeout state log result after ∧
      log.length + left fund result after ≤ fund state + 1 := by
  exact Loops.exists_of_pays (attemptOnce_pays paid _) attemptOnce_busy _ state

theorem Steps.silent {reader later : LineReader} {timeout : Option Timeout} {state after : State}
    {event : LineEvent} {asked : Nat} {log : List Exchange}
    (steps : reader.Steps server timeout state log (some event, later, asked) after)
    (silent : log = []) : later.pending.length < reader.pending.length := by
  cases steps with
  | ended ran =>
      obtain ⟨_, _, ended, shrinks⟩ := attemptOnce_silent ran silent
      cases ended
      exact shrinks nofun
  | again ran rest =>
      obtain ⟨_, _, ended, -⟩ := attemptOnce_silent ran (List.append_eq_nil_iff.mp silent).1
      cases ended

private theorem listens_end (paid : PaysReads server fund)
    (timeouts : List LineEvent → Option Timeout)
    (heard : List LineEvent) (reader : LineReader) (state : State) :
    ∃ log result after, Listens server timeouts heard reader state log result after ∧
      log.length ≤ fund state + 1 := by
  induction rank : toLex (fund state, reader.pending.length) using WellFoundedLT.induction
    generalizing heard reader state with
  | ind _ ih =>
    subst rank
    obtain ⟨log, ⟨event, later, asked⟩, middle, step, paidFor⟩ :=
      steps_end paid reader (timeouts heard) state
    cases event with
    | none =>
        refine ⟨log, (heard, later), middle, .ended step, ?_⟩
        omega
    | some event =>
        change log.length + (fund middle + 1) ≤ fund state + 1 at paidFor
        -- Either the fund has paid for a read, or a line was pending.
        have lower : toLex (fund middle, later.pending.length) <
            toLex (fund state, reader.pending.length) := by
          rw [Prod.Lex.toLex_lt_toLex]
          cases log with
          | nil =>
              have shorter := step.silent rfl
              dsimp only
              omega
          | cons exchange rest =>
              rw [List.length_cons] at paidFor
              dsimp only
              omega
        obtain ⟨more, result, after, rest, within⟩ :=
          ih _ lower (heard ++ [event]) later middle rfl
        refine ⟨log ++ more, result, after, .again step rest, ?_⟩
        rw [List.length_append]
        omega

private theorem next_silent (reader : LineReader) {state after : State} {line : String}
    {later : LineReader} (ran : reader.next.run server state = ((some line, later), after))
    (silent : reader.next.exchanges server state = []) :
    later.pending.length < reader.pending.length := by
  rcases step : (reader.advance none).run server state with ⟨⟨event, second, asked⟩, middle⟩
  have steps := steps_advance server reader none state
  rw [next, Client.exchanges_andThen] at silent
  rw [step, (List.append_eq_nil_iff.mp silent).1] at steps
  rw [next, Client.run_andThen, step] at ran
  rcases event with _ | (_ | _)
  · cases ran
  · cases ran
    exact Steps.silent steps rfl
  · cases ran

end LineReader

namespace DirectoryReader

/-- What a reader can hand out without a read, in bytes, and one more while it is live. -/
def unread (reader : DirectoryReader) : Nat :=
  if reader.finished then 0 else reader.pending.length + 1

private theorem unread_decodePending {reader : DirectoryReader} (live : reader.finished = false) :
    reader.decodePending.2.unread < reader.unread := by
  unfold decodePending
  split
  · next stat cursor decoded =>
    obtain ⟨body, -, split, -⟩ := Stat.decodeNext_ok decoded
    simp only [unread, live, Bool.false_eq_true, ↓reduceIte]
    change reader.pending = _ at split
    rw [split, List.length_append, Stat.length_counted]
    omega
  · simp [unread, live]

private theorem next_silent (reader : DirectoryReader) {state after : State}
    {entry : Except ClientError Stat} {later : DirectoryReader}
    (ran : reader.next.run server state = ((some entry, later), after))
    (silent : reader.next.exchanges server state = []) : later.unread < reader.unread := by
  unfold next at ran silent
  split at ran
  · cases ran
  · next live =>
    rw [if_neg live] at silent
    split at ran
    · cases ran
      exact unread_decodePending (by simpa using live)
    · next empty =>
      rw [if_neg empty] at silent
      cases silent

end DirectoryReader

end

/-! ## Trees -/

namespace Tree

/-- The stalls in the queue of the stream that an open file reads. -/
def stallsAhead (tree : Tree) (fid : UInt32) : Nat :=
  ((tree.pathOf? fid).bind tree.queue?).elim 0 (List.count .stall)

private theorem stallsAhead_of_stream {tree : Tree} {fid : UInt32} {opened : OpenFile}
    {queue : List Chunk} (found : Table.find? fid tree.openFiles = some opened)
    (stream : tree.queue? opened.path = some queue) :
    tree.stallsAhead fid = queue.count .stall := by
  rw [stallsAhead, pathOf?_eq found, Option.bind_some, stream]
  rfl

private theorem stallsAhead_timedOut {tree after : Tree} {handle : Handle} {buffer : Bytes}
    {wait : Option Duration} {delivery : Delivery}
    (answered : Tree.server.answer (.readFrom handle buffer wait) tree = (delivery, after))
    (expired : delivery.claimed = .error .timedOut) :
    after.stallsAhead handle.fid < tree.stallsAhead handle.fid := by
  obtain ⟨-, left⟩ := readFrom_refused (readFrom_of_refused answered expired) expired
  generalize counted : tree.countRead = reading at left
  cases left with
  | @timedOut opened node skipped later found there holds empty waits =>
      subst counted
      have before : tree.countRead.stallsAhead handle.fid = _ :=
        stallsAhead_of_stream found (queue?_eq_some.mpr ⟨node, there, holds⟩)
      have behind : (tree.countRead.setContent opened.path node (.stream later)).stallsAhead
          handle.fid = _ :=
        stallsAhead_of_stream found (queue?_setContent _ _ _ _)
      change _ < tree.countRead.stallsAhead handle.fid
      rw [before, behind, List.count_append, List.count_cons_self]
      omega

private theorem attemptOnce_pays (extension : Option (Nat → Duration))
    (attempt : LineReader.Attempt) : Pays Tree.server (LineReader.attemptOnce extension attempt)
      (fun tree => tree.stallsAhead attempt.reader.handle.fid + 1)
      (Turned.fund (fun next tree => tree.stallsAhead next.reader.handle.fid + 1)
        (fun _ _ => 0)) := by
  unfold LineReader.attemptOnce
  split
  · exact .done fun tree => Nat.zero_le _
  · split
    · exact .done fun tree => Nat.zero_le _
    · refine .ask (fun (delivery : Delivery) tree =>
        if delivery.claimed = .error .timedOut then
          tree.stallsAhead attempt.reader.handle.fid + 1
        else 0) ?_ fun delivery => .done fun tree => ?_
      · intro tree delivery after answered
        split
        · next expired =>
          have fewer := stallsAhead_timedOut answered expired
          omega
        · omega
      · unfold LineReader.judge
        dsimp only
        cases arrives : LineReader.arrival? attempt.reader.buffer.length delivery with
        | some arrival => exact Nat.zero_le _
        | none =>
            rw [if_pos (LineReader.timedOut_of_arrival? arrives)]
            dsimp only
            split
            · exact Nat.zero_le _
            · split
              · exact Nat.zero_le _
              · exact Nat.le_refl _

end Tree

/-! ## Tapes -/

namespace Player

/-- The recorded calls of a method of the file server that have not been played yet. -/
def unserved (player : Player) (method : String) : Nat :=
  (player.pendingOf (fileService, method)).length

private theorem pendingOf_play (player : Player) (service method : String)
    (pair : String × String) : (player.play service method).2.pendingOf pair =
      if pair = (service, method) then (player.pendingOf pair).tail else player.pendingOf pair := by
  unfold play
  by_cases same : pair = (service, method)
  · subst same
    rw [if_pos rfl]
    split
    · next absent => simp only [pendingOf, absent, List.tail_nil]
    · next queue found =>
      split
      · next empty => simp only [pendingOf, found, empty, List.tail_nil]
      · next pending =>
        simp only [pendingOf, found, pending, Table.find?_insert, ↓reduceIte, List.tail_cons]
  · rw [if_neg same]
    split
    · rfl
    · split
      · rfl
      · simp only [pendingOf, Table.find?_insert, if_neg (Ne.symm same)]

private theorem play_of_pendingOf_nil {player : Player} {service method : String}
    (none : player.pendingOf (service, method) = []) :
    ∃ unplayable, player.play service method = (.error unplayable, player) := by
  unfold pendingOf at none
  unfold play
  split
  · exact ⟨_, rfl⟩
  · next queue found =>
    rw [found] at none
    dsimp only at none
    rw [none]
    exact ⟨_, rfl⟩

private theorem playAnswer_plays {Result : Type} (player : Player) (method : String)
    (ofJson? : Json → Option Result) :
    (player.playAnswer method ofJson?).2 = (player.play fileService method).2 := by
  unfold playAnswer
  split
  · next played => rw [played]
  · next played => rw [played]

/-- Whatever a tape is asked, it plays one call of the method at most. -/
theorem answer_plays (request : Request) (player : Player) :
    (server.answer request player).2 = (player.play fileService request.method).2 := by
  cases request with
  | openFile path mode => exact playAnswer_plays player "open" _
  | createFile path permissions mode => exact playAnswer_plays player "create" _
  | readFrom handle buffer wait => exact playAnswer_plays player "read" _
  | writeTo handle data => exact playAnswer_plays player "write" _
  | removeFile path => exact playAnswer_plays player "remove" _
  | statFile path => exact playAnswer_plays player "stat" _
  | closeFile handle => rfl
  | unmount => rfl

private theorem unserved_played (request : Request) (player : Player) :
    (server.answer request player).2.unserved request.method =
      player.unserved request.method - 1 := by
  rw [answer_plays, unserved, pendingOf_play, if_pos rfl, List.length_tail, unserved]

private theorem unserved_le (request : Request) (player : Player) (method : String) :
    (server.answer request player).2.unserved method ≤ player.unserved method := by
  rw [answer_plays, unserved, pendingOf_play]
  split
  · rw [List.length_tail]
    exact Nat.sub_le _ _
  · exact Nat.le_refl _

private theorem price_le (delivery : Delivery) : delivery.price ≤ 1 := by
  unfold Delivery.price
  split
  · exact Nat.zero_le _
  · exact Nat.le_refl _

private theorem paysReads : PaysReads server (fun player => player.unserved "read") where
  saves request player := unserved_le request player "read"
  reads handle buffer wait player delivery after answered := by
    have plays := unserved_played (.readFrom handle buffer wait) player
    rw [answered] at plays
    change after.unserved "read" = player.unserved "read" - 1 at plays
    cases pending : player.pendingOf (fileService, "read") with
    | nil =>
        obtain ⟨unplayable, refused⟩ := play_of_pendingOf_nil pending
        simp only [server, playAnswer, refused] at answered
        cases answered
        exact Nat.le_refl _
    | cons interaction rest =>
        have some : player.unserved "read" = rest.length + 1 := by
          rw [unserved, pending, List.length_cons]
        have price := price_le delivery
        omega

private theorem paysWrites : PaysWrites server (fun player => player.unserved "write") where
  saves request player := unserved_le request player "write"
  writes handle data player count after answered := by
    have plays := unserved_played (.writeTo handle data) player
    rw [answered] at plays
    change after.unserved "write" = player.unserved "write" - 1 at plays
    cases pending : player.pendingOf (fileService, "write") with
    | nil =>
        obtain ⟨unplayable, refused⟩ := play_of_pendingOf_nil pending
        simp only [server, playAnswer, refused] at answered
        cases answered
    | cons interaction rest =>
        have some : player.unserved "write" = rest.length + 1 := by
          rw [unserved, pending, List.length_cons]
        omega

private theorem paysTransfers :
    PaysTransfers server (fun player => player.unserved "read" + player.unserved "write") where
  saves request player :=
    Nat.add_le_add (paysReads.saves request player) (paysWrites.saves request player)
  reads handle buffer wait player delivery after answered := by
    have reads := paysReads.reads handle buffer wait player delivery after answered
    have writes := paysWrites.saves (.readFrom handle buffer wait) player
    rw [answered] at writes
    dsimp only at reads writes ⊢
    omega
  writes handle data player count after answered := by
    have reads := paysReads.saves (.writeTo handle data) player
    have writes := paysWrites.writes handle data player count after answered
    rw [answered] at reads
    dsimp only at reads writes ⊢
    omega

end Player

/-! ## Transfers -/

namespace Client

variable {State : Type} {server : Server State} {fund : State → Nat}

private theorem collectOnce_busy {handle : Handle} {path : String} {limit : Option Nat}
    (stage : Bytes × Bytes) (state : State) (next : Bytes × Bytes) (after : State)
    (_ : (collectOnce handle path limit stage).run server state = (.again next, after)) :
    (collectOnce handle path limit stage).exchanges server state ≠ [] :=
  List.cons_ne_nil _ _

/-- The loop that reads a file at once ends, and it is what runs if the buffer may be made. -/
theorem collecting_ends (paid : PaysReads server fund) (handle : Handle) (path : String)
    (limit : Option Nat) (state : State) :
    ∃ log result after,
      Loops server (collectOnce handle path limit)
          ([], Bytes.zeros (min handle.transferSize readLimit)) state log result after ∧
        log.length ≤ fund state + 1 ∧
        (fits limit (min handle.transferSize readLimit) = true →
          (readCapped handle path limit).exchanges server state = log ∧
            (readCapped handle path limit).run server state = (result, after)) := by
  obtain ⟨log, result, after, run, within⟩ :=
    Loops.exists_of_pays (collectOnce_pays paid handle path limit) collectOnce_busy
      ([], Bytes.zeros (min handle.transferSize readLimit)) state
  refine ⟨log, result, after, run, by omega, fun room => ?_⟩
  obtain ⟨sameLog, same, sameAfter⟩ := run.unique
    (loops_collect server handle path limit (length_start_le handle) lt_length_start state)
  rw [readCapped, if_pos room]
  exact ⟨sameLog, Prod.ext same sameAfter⟩

private theorem offering_ends (paid : PaysWrites server fund) (handle : Handle) (path : String)
    (data : Bytes) (state : State) :
    ∃ log result after,
      Loops server (offerOnce handle path) data state log result after ∧
        log.length ≤ fund state + 1 ∧
        (writeAll handle path data).exchanges server state = log ∧
        (writeAll handle path data).run server state = (result, after) := by
  have runs := loops_offer server handle path (Nat.le_refl data.length) state
  have within := Loops.length_le (offerOnce_pays paid handle path) runs
  exact ⟨_, _, _, runs, by omega, rfl, rfl⟩

end Client

/-! ## Loops on trees and tapes -/

/-- The steps of a reader under a list of answers are steps under a callback. Under every callback
one of them makes one read more than there are stalls ahead on a tree, at most. On a tape it makes
one more than there are recorded reads left; so does a reader that steps until nothing is left,
whichever timeouts it steps under, and so do the iterators over lines and entries and the loop that
reads a file at once. What a session does in a step takes recorded reads and writes, and four
exchanges more at most. Whatever is asked of a tape, it plays one call at most. -/
theorem finite_servers_end :
    (∀ (State : Type) (server : Server State) (reader : LineReader) (deadline : Option Deadline)
        (state : State),
      reader.Steps server (deadline.map Timeout.ofDeadline) state
        ((reader.advance deadline).exchanges server state)
        ((reader.advance deadline).run server state).1
        ((reader.advance deadline).run server state).2) ∧
    (∀ (tree : Tree) (reader : LineReader) (timeout : Option Timeout),
      ∃ log result after, reader.Steps Tree.server timeout tree log result after ∧
        log.length ≤ tree.stallsAhead reader.handle.fid + 1) ∧
    ∀ player : Player,
      (∀ (reader : LineReader) (timeout : Option Timeout),
        ∃ log result after, reader.Steps Player.server timeout player log result after ∧
          log.length ≤ player.unserved "read" + 1) ∧
      (∀ (reader : LineReader) (timeouts : List LineEvent → Option Timeout),
        ∃ log result after,
          LineReader.Listens Player.server timeouts [] reader player log result after ∧
            log.length ≤ player.unserved "read" + 1) ∧
      (∀ reader : LineReader,
        ∃ log result after,
          Loops Player.server (Client.takeOnce LineReader.next) ([], reader) player log result
              after ∧
            log.length ≤ player.unserved "read" + 1) ∧
      (∀ reader : DirectoryReader,
        ∃ log result after,
          Loops Player.server (Client.takeOnce DirectoryReader.next) ([], reader) player log result
              after ∧
            log.length ≤ player.unserved "read" + 1) ∧
      (∀ (handle : Handle) (path : String) (limit : Option Nat),
        ∃ log result after,
          Loops Player.server (Client.collectOnce handle path limit)
              ([], Bytes.zeros (min handle.transferSize Client.readLimit)) player log result
              after ∧
            log.length ≤ player.unserved "read" + 1 ∧
            (Client.fits limit (min handle.transferSize Client.readLimit) = true →
              (Client.readCapped handle path limit).exchanges Player.server player = log ∧
                (Client.readCapped handle path limit).run Player.server player =
                  (result, after))) ∧
      (∀ (handle : Handle) (path : String) (data : Bytes),
        ∃ log result after,
          Loops Player.server (Client.offerOnce handle path) data player log result after ∧
            log.length ≤ player.unserved "write" + 1 ∧
            (Client.writeAll handle path data).exchanges Player.server player = log ∧
            (Client.writeAll handle path data).run Player.server player = (result, after)) ∧
      (∀ (session : Session) (step : Step),
        ((session.step step).exchanges Player.server player).length ≤
          player.unserved "read" + player.unserved "write" + 4) ∧
      ∀ (request : Request) (pair : String × String),
        (Player.server.answer request player).2.pendingOf pair =
          if pair = (fileService, request.method) then (player.pendingOf pair).tail
          else player.pendingOf pair := by
  refine ⟨?_, ?_, ?_⟩
  · intro State server reader deadline state
    exact LineReader.steps_advance server reader deadline state
  · intro tree reader timeout
    obtain ⟨log, result, after, steps, within⟩ :=
      Loops.exists_of_pays (Tree.attemptOnce_pays (Timeout.waits timeout).2)
        LineReader.attemptOnce_busy ⟨reader, (Timeout.waits timeout).1, 0⟩ tree
    exact ⟨log, result, after, steps, within⟩
  · intro player
    have reads := Player.paysReads
    refine ⟨?_, ?_, ?_, ?_, ?_, ?_, ?_, ?_⟩
    · intro reader timeout
      obtain ⟨log, result, after, steps, within⟩ :=
        LineReader.steps_end reads reader timeout player
      exact ⟨log, result, after, steps, by omega⟩
    · intro reader timeouts
      exact LineReader.listens_end reads timeouts [] reader player
    · intro reader
      exact Client.takes_of_pays (LineReader.next_pays reads)
        (fun reader state line later after => reader.next_silent) reader player
    · intro reader
      exact Client.takes_of_pays (DirectoryReader.next_pays reads)
        (fun reader state entry later after => reader.next_silent) reader player
    · intro handle path limit
      exact Client.collecting_ends reads handle path limit player
    · intro handle path data
      exact Client.offering_ends Player.paysWrites handle path data player
    · intro session step
      have paid := session.step_costs Player.paysTransfers step player
      dsimp only at paid
      omega
    · intro request pair
      rw [Player.answer_plays, Player.pendingOf_play]

end RemoteTree
