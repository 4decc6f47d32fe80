import RemoteTree.Command.Basic
import RemoteTree.Proofs.Client.Files
import RemoteTree.Proofs.Client.Following
import RemoteTree.Proofs.Client.Loops
import RemoteTree.Proofs.Tree.InTime

/-!
# Printing lines as they come

What following a stream prints. Every line gets the same patience: without a deadline it waits for
any number of stalls, with one it gives up at the first of them, and with an extension at the
second. So what is printed is what arrives in time.
-/

set_option autoImplicit false

namespace RemoteTree

open Chunk (Meets due inTime windows)

namespace Deadline

/-- The stall at which a wait with extensions gives up. -/
def granted (extensions : List Duration) : Nat :=
  (extensions.takeWhile fun extension => !extension.isZero).length + 1

/-- The stall at which a step under a deadline gives up, with no bytes since the first one. -/
def allowed (deadline : Option Deadline) : Option Nat :=
  match waits deadline with
  | (none, _) => none
  | (some _, none) => some 1
  | (some _, some extensions) => some (granted extensions)

private theorem granted_cons (extension : Duration) (rest : List Duration) :
    granted (extension :: rest) = if extension.isZero then 1 else granted rest + 1 := by
  unfold granted
  cases zero : extension.isZero <;> simp [zero]

private theorem allowed_ne_zero (deadline : Option Deadline) : allowed deadline ≠ some 0 := by
  unfold allowed
  split <;> simp [granted]

private theorem isSome_allowed (deadline : Option Deadline) :
    (waits deadline).1.isSome = (allowed deadline).isSome := by
  unfold allowed
  split
  · next split => rw [split]; rfl
  · next split => rw [split]; rfl
  · next split => rw [split]; rfl

private theorem allowed_eq (deadline : Option Deadline) (stalls : Nat)
    (limit : allowed deadline = some stalls) :
    stalls = 0 + granted ((waits deadline).2.getD []) := by
  rw [Nat.zero_add]
  unfold allowed at limit
  split at limit
  · cases limit
  · next split =>
    cases limit
    rw [split]
    rfl
  · next split =>
    cases limit
    rw [split]
    rfl

end Deadline

namespace LineReader

variable {tree : Tree} {path : Path} {handle : Handle} {queue rest : List Chunk} {buffer : Bytes}
  {room past : Nat} {allowed : Option Nat} {wait : Option Duration} {delivery : Delivery}

/-! ## Waiting -/

/-- What a wait makes of the windows that are due, with the buffer and the queue as they are then.
Where it brings nothing, nothing was due. -/
inductive Arrives (room : Nat) (allowed : Option Nat) (past : Nat) (queue : List Chunk)
    (filled : Bytes) : Arrival → List Chunk → Prop where
  | data {window : Bytes} (some : window ≠ []) (front : filled.take window.length = window)
      {rest : List Chunk} (next : due room allowed past queue = window :: due room allowed 0 rest) :
      Arrives room allowed past queue filled (.data window.length) rest
  | timeout (ended : due room allowed past queue = []) (rest : List Chunk) :
      Arrives room allowed past queue filled .timeout rest
  | nothing (ended : due room allowed past queue = []) (rest : List Chunk) :
      Arrives room allowed past queue filled .nothing rest

/-- One read: it brings what is due, or a stall has passed. -/
theorem read_arrives (feeds : tree.Feeds handle.fid path queue) (positive : 0 < buffer.length)
    (limited : wait.isSome = allowed.isSome) (past : Nat) :
    ∃ delivery after rest,
      Tree.server.answer (.readFrom handle buffer wait) tree = (delivery, after) ∧
      (Bytes.overlay delivery.received buffer).length = buffer.length ∧ tree.Steady after ∧
      after.Feeds handle.fid path rest ∧
      ((∃ arrival, arrival? buffer.length delivery = some arrival ∧
          Arrives (Tree.capped tree.limits.mostRead buffer.length) allowed past queue
            (Bytes.overlay delivery.received buffer) arrival rest) ∨
        arrival? buffer.length delivery = none ∧ ∃ stalls, allowed = some stalls ∧
          due (Tree.capped tree.limits.mostRead buffer.length) allowed past queue =
            if stalls = past + 1 then []
            else due (Tree.capped tree.limits.mostRead buffer.length) allowed (past + 1) rest) := by
  obtain ⟨delivery, after, rest, answered, read, fits, steady, still⟩ :=
    feeds.read_queue buffer wait
  have meets := Tree.readQueue_meets (Tree.capped_pos feeds.some positive) (Tree.capped_le _ _)
    limited past queue
  rw [read] at meets
  refine ⟨delivery, after, rest, answered, Bytes.length_overlay _ _, steady, still, ?_⟩
  cases outcome : delivery.outcome buffer with
  | ok bytes =>
      rw [outcome] at meets
      obtain ⟨arrives, front⟩ := arrival?_of_ok fits outcome
      refine .inl ⟨_, arrives, ?_⟩
      cases meets with
      | window some next =>
          rw [if_neg some]
          exact .data some front next
      | nothing ended => exact .nothing ended rest
  | error refusal =>
      rw [outcome] at meets
      cases meets with
      | stall bounded next =>
          obtain ⟨stalls, rfl⟩ := Option.isSome_iff_exists.mp bounded
          refine .inr ⟨arrival?_of_timedOut outcome, stalls, rfl, ?_⟩
          simpa only [Option.some.injEq] using next

/-- A wait with some stalls past gives up at the stall that its extensions do not cover. -/
theorem run_await_inTime (feeds : tree.Feeds handle.fid path queue) (positive : 0 < buffer.length)
    (asked : Nat) {extensions : List Duration} (limited : wait.isSome = allowed.isSome)
    (covers : ∀ stalls, allowed = some stalls → stalls = past + Deadline.granted extensions) :
    ∃ arrival filled used after rest,
      (await handle buffer wait asked extensions).run Tree.server tree =
        ((arrival, filled, used), after) ∧
      filled.length = buffer.length ∧ tree.Steady after ∧ after.Feeds handle.fid path rest ∧
      Arrives (Tree.capped tree.limits.mostRead buffer.length) allowed past queue filled arrival
        rest := by
  induction extensions generalizing tree queue buffer wait past asked with
  | nil =>
      obtain ⟨delivery, after, rest, answered, size, steady, still, brings⟩ :=
        read_arrives feeds positive limited past
      simp only [await, Client.run, answered]
      rcases brings with ⟨arrival, arrives, brings⟩ | ⟨expired, stalls, limit, next⟩
      · rw [arrives]
        exact ⟨arrival, _, _, after, rest, rfl, size, steady, still, brings⟩
      · have last : stalls = past + 1 := covers stalls limit
        rw [if_pos last] at next
        rw [expired]
        exact ⟨_, _, _, after, rest, rfl, size, steady, still, .timeout next rest⟩
  | cons extension extensions ih =>
      obtain ⟨delivery, after, rest, answered, size, steady, still, brings⟩ :=
        read_arrives feeds positive limited past
      simp only [await, Client.run, answered]
      rcases brings with ⟨arrival, arrives, brings⟩ | ⟨expired, stalls, limit, next⟩
      · rw [arrives]
        exact ⟨arrival, _, _, after, rest, rfl, size, steady, still, brings⟩
      · have number := covers stalls limit
        rw [Deadline.granted_cons] at number
        rw [expired]
        dsimp only
        split
        · next spent =>
          rw [if_pos spent] at number
          rw [if_pos number] at next
          exact ⟨_, _, _, after, rest, rfl, size, steady, still, .timeout next rest⟩
        · next more =>
          -- The extension waits for what is behind the stall.
          rw [if_neg more] at number
          have further : stalls ≠ past + 1 := by
            unfold Deadline.granted at number
            omega
          have later : ∀ other, allowed = some other →
              other = past + 1 + Deadline.granted extensions := by
            intro other same
            cases limit.symm.trans same
            omega
          have bounded : (some extension).isSome = allowed.isSome := by rw [limit]; rfl
          rw [if_neg further] at next
          obtain ⟨arrival, filled, used, last, left, ran, grown, onward, feeding, brings⟩ :=
            ih still (size ▸ positive) (asked + 1) bounded later
          rw [size, steady.limits] at brings
          refine ⟨arrival, filled, used, last, left, ran, grown.trans size, steady.trans onward,
            feeding, ?_⟩
          cases brings with
          | data some front following => exact .data some front (next.trans following)
          | timeout ended => exact .timeout (next.trans ended) left
          | nothing ended => exact .nothing (next.trans ended) left

private theorem run_awaitWith_inTime (feeds : tree.Feeds handle.fid path queue)
    (positive : 0 < buffer.length) (deadline : Option Deadline) :
    ∃ arrival filled used after rest,
      (awaitWith handle buffer (Deadline.waits deadline).1 (Deadline.waits deadline).2).run
          Tree.server tree = ((arrival, filled, used), after) ∧
      filled.length = buffer.length ∧ tree.Steady after ∧ after.Feeds handle.fid path rest ∧
      Arrives (Tree.capped tree.limits.mostRead buffer.length) (Deadline.allowed deadline) 0 queue
        filled arrival rest := by
  have limited := Deadline.isSome_allowed deadline
  have covers := Deadline.allowed_eq deadline
  cases extensions : (Deadline.waits deadline).2 with
  | none =>
      rw [extensions, Option.getD_none] at covers
      obtain ⟨arrival, filled, used, after, rest, ran, facts⟩ :=
        run_await_inTime feeds positive 0 limited covers
      refine ⟨arrival, filled, 0, after, rest, ?_, facts⟩
      rw [awaitWith, Client.run_andThen, ran]
      rfl
  | some answers =>
      rw [extensions, Option.getD_some] at covers
      exact run_await_inTime feeds positive 0 limited covers

/-! ## Steps -/

/-- A reader on the way through a stream under a deadline, with the lines that it will yield before
it ends or gives up. -/
structure OnTime (reader : LineReader) (tree : Tree) (path : Path) (deadline : Option Deadline)
    (lines : List String) : Prop where
  live : reader.finished = false
  room : 0 < reader.buffer.length
  feeds : ∃ queue, tree.Feeds reader.handle.fid path queue ∧
    lines = linesIn reader.pending ++
      (due (Tree.capped tree.limits.mostRead reader.buffer.length) (Deadline.allowed deadline) 0
        queue).flatMap linesIn

/-- What a step yields of the lines in time: the first of them, or, when there are none, the end or
a timeout. -/
inductive Prompts : List String → Option LineEvent → List String → Prop where
  | line (text : String) (rest : List String) : Prompts (text :: rest) (some (.line text)) rest
  | timeout : Prompts [] (some .timeout) []
  | nothing : Prompts [] none []

variable {reader : LineReader} {deadline : Option Deadline} {lines : List String}

private theorem OnTime.advance_pending (prompt : reader.OnTime tree path deadline lines)
    (pending : reader.pending ≠ []) :
    ∃ text rest next, lines = text :: rest ∧
      reader.advance deadline = .done (some (.line text), next, 0) ∧
      next.handle = reader.handle ∧ next.OnTime tree path deadline rest := by
  obtain ⟨queue, feeds, rfl⟩ := prompt.feeds
  obtain ⟨consumed, taken⟩ := reader.takeLine_eq
  rw [linesIn_of_ne_nil pending, advance_of_pending reader prompt.live pending, taken]
  exact ⟨_, _, _, rfl, rfl, rfl, prompt.live, prompt.room, queue, feeds, rfl⟩

private theorem OnTime.advance (prompt : reader.OnTime tree path deadline lines) :
    ∃ event next asked after rest,
      (reader.advance deadline).run Tree.server tree = ((event, next, asked), after) ∧
      next.handle = reader.handle ∧ tree.Steady after ∧
      (∃ queue, after.Feeds reader.handle.fid path queue) ∧ Prompts lines event rest ∧
      ((∃ text, event = some (.line text)) → next.OnTime after path deadline rest) := by
  by_cases empty : reader.pending = []
  · obtain ⟨queue, feeds, rfl⟩ := prompt.feeds
    obtain ⟨arrival, filled, used, after, rest, ran, size, steady, still, brings⟩ :=
      run_awaitWith_inTime feeds prompt.room deadline
    rw [advance_of_empty reader prompt.live empty, Client.run_andThen, ran, empty, linesIn_nil,
      List.nil_append]
    have room : 0 < filled.length := size ▸ prompt.room
    cases brings with
    | @data window some front _ next =>
        obtain ⟨consumed, taken⟩ := takeLine_eq
          { reader with buffer := filled, consumed := 0, pending := filled.take window.length }
        rw [front] at taken
        simp only [Client.run, arrive, front, taken]
        refine ⟨_, _, _, _, _, rfl, rfl, steady, ⟨rest, still⟩, ?_, fun _ =>
          ⟨prompt.live, room, rest, still, rfl⟩⟩
        rw [next, List.flatMap_cons, linesIn_of_ne_nil some, steady.limits, size]
        exact .line _ _
    | timeout ended =>
        rw [ended]
        refine ⟨_, _, _, _, [], rfl, rfl, steady, ⟨rest, still⟩, .timeout, ?_⟩
        rintro ⟨text, same⟩
        cases same
    | nothing ended =>
        rw [ended]
        refine ⟨_, _, _, _, [], rfl, rfl, steady, ⟨rest, still⟩, .nothing, ?_⟩
        rintro ⟨text, same⟩
        cases same
  · obtain ⟨text, rest, next, rfl, step, handle, following⟩ := prompt.advance_pending empty
    obtain ⟨queue, feeds, -⟩ := prompt.feeds
    rw [step]
    exact ⟨_, _, _, _, rest, rfl, handle, ⟨rfl, rfl, rfl⟩, ⟨queue, feeds⟩, .line text rest,
      fun _ => following⟩

end LineReader

namespace Console

/-- Some lines as they are printed. -/
def textOf (lines : List String) : Bytes :=
  lines.flatMap fun line => Utf8.encode line ++ [LineReader.newline]

theorem printLine_of_unbounded {console : Console} (unbounded : console.room = none)
    (line : String) :
    ∃ later, console.printLine line = (.ok (), later) ∧ later.room = none ∧
      later.printed = console.printed ++ (Utf8.encode line ++ [LineReader.newline]) := by
  rw [printLine, print, unbounded]
  refine ⟨_, rfl, rfl, ?_⟩
  simp [printed]

end Console

namespace Command

open Client (Loops Turned)

/-- A turn of following: a step of the reader, and its line printed. -/
def followOnce (path : String) (timeout extension : Option Nat) (stage : LineReader × Console) :
    Client (Turned (LineReader × Console) ((Except CommandError Unit × Console) × LineReader)) :=
  (stage.1.advance (deadline timeout extension)).andThen fun (event, reader, _) =>
    match event with
    | none => .done (.ended ((.ok (), stage.2), reader))
    | some .timeout =>
        .done (.ended
          ((.ok (), stage.2.notice ("ixp: nothing read from " ++ path ++ " in time")), reader))
    | some (.line line) =>
        match stage.2.printLine line with
        | (.ok (), console) => .done (.again (reader, console))
        | (.error error, console) => .done (.ended ((.error error, console), reader))

private theorem followFrom_succ (path : String) (timeout extension : Option Nat) (lines : Nat)
    (stage : LineReader × Console) :
    followFrom path timeout extension (lines + 1) stage.1 stage.2 =
      (followOnce path timeout extension stage).andThen
        (Turned.follow fun next => followFrom path timeout extension lines next.1 next.2) := by
  rw [followFrom, followOnce, Client.andThen_assoc]
  congr 1
  funext stepped
  obtain ⟨event, reader, asked⟩ := stepped
  rcases event with _ | (line | _)
  · rfl
  · dsimp only
    rcases stage.2.printLine line with ⟨_ | _, console⟩
    · rfl
    · rfl
  · rfl

variable {tree : Tree} {place : Path} {path : String} {timeout extension : Option Nat}
  {reader : LineReader} {console : Console} {lines : List String}

/-- A turn prints the first line in time, or it is the last turn. -/
theorem run_followOnce
    (prompt : reader.OnTime tree place (deadline timeout extension) lines)
    (unbounded : console.room = none) :
    ∃ after, tree.Steady after ∧ (∃ queue, after.Feeds reader.handle.fid place queue) ∧
      match lines with
      | [] => ∃ last next, next.handle = reader.handle ∧ last.printed = console.printed ∧
          last.room = none ∧
          (followOnce path timeout extension (reader, console)).run Tree.server tree =
            (.ended ((.ok (), last), next), after)
      | line :: rest => ∃ later next, next.handle = reader.handle ∧
          next.OnTime after place (deadline timeout extension) rest ∧ later.room = none ∧
          later.printed = console.printed ++ (Utf8.encode line ++ [LineReader.newline]) ∧
          (followOnce path timeout extension (reader, console)).run Tree.server tree =
            (.again (next, later), after) := by
  obtain ⟨event, next, asked, after, rest, ran, handle, steady, feeding, yields, further⟩ :=
    prompt.advance
  refine ⟨after, steady, feeding, ?_⟩
  simp only [followOnce, Client.run_andThen, ran]
  cases yields with
  | line text rest =>
      obtain ⟨later, prints, room, printed⟩ := console.printLine_of_unbounded unbounded text
      exact ⟨later, next, handle, further ⟨text, rfl⟩, room, printed, by simp only [prints]; rfl⟩
  | timeout => exact ⟨console.notice _, next, handle, rfl, unbounded, rfl⟩
  | nothing => exact ⟨console, next, handle, rfl, unbounded, rfl⟩

variable (path) in
private theorem loops_followOnce
    (prompt : reader.OnTime tree place (deadline timeout extension) lines)
    (unbounded : console.room = none) :
    ∃ log last next after,
      Loops Tree.server (followOnce path timeout extension) (reader, console) tree log
        ((.ok (), last), next) after ∧
      next.handle = reader.handle ∧ last.printed = console.printed ++ Console.textOf lines ∧
      tree.Steady after ∧ ∃ queue, after.Feeds reader.handle.fid place queue := by
  induction lines generalizing reader console tree with
  | nil =>
      obtain ⟨after, steady, feeding, last, next, handle, printed, -, ran⟩ :=
        run_followOnce prompt unbounded
      rw [Console.textOf, List.flatMap_nil, List.append_nil]
      exact ⟨_, last, next, after, .ended ran, handle, printed, steady, feeding⟩
  | cons line rest ih =>
      obtain ⟨middle, steady, -, later, next, handle, further, room, printed, ran⟩ :=
        run_followOnce prompt unbounded
      obtain ⟨log, last, final, after, loops, same, all, onward, feeding⟩ := ih further room
      refine ⟨_, last, final, after, .again ran loops, same.trans handle, ?_,
        steady.trans onward, handle ▸ feeding⟩
      rw [all, printed, List.append_assoc]
      rfl

variable (path) in
/-- Following for a number of lines is following without a bound, if there are fewer in time. -/
theorem loops_followFrom {bound : Nat}
    (prompt : reader.OnTime tree place (deadline timeout extension) lines)
    (unbounded : console.room = none) (few : lines.length < bound) :
    let program := followFrom path timeout extension bound reader console
    Loops Tree.server (followOnce path timeout extension) (reader, console) tree
      (program.exchanges Tree.server tree) (program.run Tree.server tree).1
      (program.run Tree.server tree).2 := by
  refine Loops.of_fuel
    (fun bound (stage : LineReader × Console) =>
      followFrom path timeout extension bound stage.1 stage.2)
    (fun bound stage tree => stage.2.room = none ∧ ∃ lines : List String, lines.length < bound ∧
      stage.1.OnTime tree place (deadline timeout extension) lines)
    (followFrom_succ path timeout extension) ?_ ?_ ⟨unbounded, lines, few, prompt⟩
  · rintro stage tree ⟨-, lines, none, -⟩
    exact absurd none (Nat.not_lt_zero _)
  · rintro bound ⟨reader, console⟩ tree further after ⟨unbounded, lines, few, prompt⟩ again
    obtain ⟨middle, -, -, turn⟩ := run_followOnce prompt unbounded
    cases lines with
    | nil =>
        obtain ⟨last, next, -, -, -, ran⟩ := turn
        cases ran.symm.trans again
    | cons line rest =>
        obtain ⟨later, next, -, onward, room, -, ran⟩ := turn
        cases ran.symm.trans again
        exact ⟨room, rest, Nat.lt_of_succ_lt_succ few, onward⟩

/-! ## Following a stream -/

/-- The stall without bytes before it at which lines are no longer waited for. A wait of no length
is none. -/
def allowedStalls : Option Nat → Option Nat → Option Nat
  | none, _ => none
  | some 0, _ => none
  | some (_ + 1), none => some 1
  | some (_ + 1), some 0 => some 1
  | some (_ + 1), some (_ + 1) => some 2

private theorem allowed_deadline (timeout extension : Option Nat) :
    Deadline.allowed (deadline timeout extension) = allowedStalls timeout extension := by
  have lasting (count : Nat) : (Duration.seconds (count + 1)).isZero = false := by
    rw [Duration.isZero_seconds]
    rfl
  rcases timeout with _ | _ | after
  · rfl
  · rfl
  · have waits : Deadline.waits (deadline (some (after + 1)) extension) =
        (some (.seconds (after + 1)), some (extension.toList.map Duration.seconds)) := by
      simp only [Deadline.waits, deadline, Option.map_some, lasting, Bool.false_eq_true, if_false]
    rw [Deadline.allowed, waits]
    rcases extension with _ | _ | longer
    · rfl
    · rfl
    · simp only [Option.toList_some, List.map_cons, List.map_nil, Deadline.granted_cons, lasting]
      rfl

/-- What following a file comes to when it takes as many turns as it needs: the file is opened,
followed and closed. -/
def Follows {State : Type} (server : Server State) (connection : Connection) (path : String)
    (timeout extension : Option Nat) (console : Console) (state : State)
    (result : Except CommandError Unit × Console) (after : State) : Prop :=
  ∃ reader opened log last middle,
    (connection.openLines path).run server state = (.ok reader, opened) ∧
    Loops server (followOnce path timeout extension) (reader, console) opened log (result, last)
      middle ∧
    server.answer (.closeFile last.handle) middle = ((), after)

/-- Once its file is open, the command follows it and closes it. -/
theorem run_follow {State : Type} {server : Server State} {connection : Connection}
    {reader : LineReader} {state opened : State}
    (opens : (connection.openLines path).run server state = (.ok reader, opened))
    (input : Except String Bytes) (console : Console) :
    ((Command.follow path timeout extension).run connection input console).run server state =
      let following := (followFrom path timeout extension patience reader console).run server opened
      (following.1.1, (server.answer (.closeFile reader.handle) following.2).2) := by
  rw [run, runIn, runFollow, Session.openLines, Client.andThen_assoc, Client.andThen_assoc,
    Client.run_andThen, opens]
  -- The session has no reader yet, so none is dropped before the file is followed.
  change ((((followFrom path timeout extension patience reader console).andThen fun followed =>
    (Client.ask (.closeFile reader.handle) fun _ =>
      (Session.start connection).unmountIfOver).andThen fun session =>
        .done (followed.1, session)).andThen fun outcome =>
          .done outcome.1).run server opened) = _
  rw [Client.run_andThen, Client.run_andThen]
  rfl

/-- Following a stream without faults on an output without a limit prints, each with a newline
behind it, the lines of what arrives in time, and closes the file. -/
theorem follow_prints (connection : Connection) {tree : Tree} {path : String}
    {queue : List Chunk} (stream : tree.queue? (.ofText path) = some queue)
    (reliable : tree.limits.failAfterReads = none) (moving : tree.limits.mostRead ≠ some 0)
    (fits : Client.fits connection.bufferLimit tree.nextHandle.transferSize = true)
    (timeout extension : Option Nat) {console : Console} (unbounded : console.room = none) :
    let room := Tree.capped tree.limits.mostRead tree.nextHandle.transferSize
    let lines := (windows room (inTime (allowedStalls timeout extension) queue)).flatMap
      LineReader.linesIn
    ∃ last after,
      Follows Tree.server connection path timeout extension console tree (.ok (), last) after ∧
      (lines.length < patience → ∀ input,
        ((Command.follow path timeout extension).run connection input console).run Tree.server
          tree = ((.ok (), last), after)) ∧
      last.printed = console.printed ++ Console.textOf lines ∧
      after.openFiles = Table.erase tree.nextFid tree.openFiles ∧
      after.ledger.closes = tree.ledger.closes + 1 := by
  intro room lines
  obtain ⟨node, found, holds⟩ := Tree.queue?_eq_some.mp stream
  have plain : node.isDirectory = false := by rw [Node.isDirectory, holds]
  have issued := Tree.issue_plain found plain .read
  have opens : (connection.openLines path).run Tree.server tree =
      (.ok (LineReader.start tree.nextHandle path), tree.opening (.ofText path) .read) := by
    have ran := connection.run_openReader found LineReader.start (by rw [issued]; exact fits)
    rwa [issued] at ran
  have size : (LineReader.start tree.nextHandle path).buffer.length =
      tree.nextHandle.transferSize := List.length_replicate ..
  have prompt : (LineReader.start tree.nextHandle path).OnTime (tree.opening (.ofText path) .read)
      (.ofText path) (deadline timeout extension) lines := by
    refine ⟨rfl, ?_, queue, ⟨reliable, moving, stream, _,
      tree.find?_opening (.ofText path) .read, rfl, rfl⟩, ?_⟩
    · rw [size]
      exact Handle.transferSize_pos _
    · rw [size, due, ← Chunk.windows_inTime _ (Deadline.allowed_ne_zero _), allowed_deadline]
      simp [LineReader.start, Tree.opening, lines, room]
  obtain ⟨log, last, next, middle, loops, same, printed, steady, left, feeds⟩ :=
    loops_followOnce path prompt unbounded
  obtain ⟨file, held, -, -⟩ := feeds.opened
  have closed : middle.closeFid tree.nextFid =
      { middle with
        openFiles := Table.erase tree.nextFid middle.openFiles
        ledger := { middle.ledger with closes := middle.ledger.closes + 1 } } := by
    change Table.find? tree.nextFid middle.openFiles = some file at held
    rw [Tree.closeFid, held]
  refine ⟨last, middle.closeFid tree.nextFid, ⟨_, _, log, next, middle, opens, loops, ?_⟩, ?_,
    printed, ?_, ?_⟩
  · rw [same]
    rfl
  · intro few input
    obtain ⟨-, ended, left⟩ := loops.unique (loops_followFrom path prompt unbounded few)
    rw [run_follow opens]
    dsimp only
    rw [ended, left]
    rfl
  · rw [closed]
    change Table.erase tree.nextFid middle.openFiles = _
    rw [steady.openFiles]
    exact Table.erase_insert _ _ _
  · rw [closed]
    exact congrArg (· + 1) steady.closes

/-- One extension for every line, of which two stalls with an empty chunk between them take more. -/
theorem follow_prints_until_second_stall :
    let queue : List Chunk := [.stall, .data [97, 10, 98, 99], .data [], .stall, .data [100],
      .stall, .data [], .stall, .data [101]]
    let tree := (Tree.empty { iounit := 4, mostRead := some 3 } 7).addStream "/event" queue
    let connection : Connection := ⟨"mem!test", some 4⟩
    let console : Console := {}
    tree.queue? (.ofText "/event") = some queue ∧ tree.limits.failAfterReads = none ∧
      tree.limits.mostRead ≠ some 0 ∧
      Client.fits connection.bufferLimit tree.nextHandle.transferSize = true ∧
      console.room = none ∧
      ∃ last after,
        ((Command.follow "/event" (some 1) (some 5)).run connection (.ok []) console).run
          Tree.server tree = ((.ok (), last), after) ∧
        last.printed = Utf8.encode "a
b
c
d
" ∧ after.openFiles = [] ∧
        after.ledger.closes = 1 := by
  intro queue tree connection console
  have stream : tree.queue? (.ofText "/event") = some queue := by decide +kernel
  have fits : Client.fits connection.bufferLimit tree.nextHandle.transferSize = true := by
    decide +kernel
  obtain ⟨last, after, -, runs, printed, files, closes⟩ :=
    follow_prints connection stream rfl (by decide) fits (some 1) (some 5)
      (show console.room = none from rfl)
  have lines : (windows (Tree.capped tree.limits.mostRead tree.nextHandle.transferSize)
      (inTime (allowedStalls (some 1) (some 5)) queue)).flatMap LineReader.linesIn =
        ["a", "b", "c", "d"] := by
    decide +kernel
  rw [lines] at runs printed
  refine ⟨stream, rfl, by decide, fits, rfl, last, after, runs (by decide) (.ok []), ?_, files,
    closes⟩
  rw [printed]
  decide +kernel

end Command

end RemoteTree
