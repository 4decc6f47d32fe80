import RemoteTree.Proofs.Client.Lines
import RemoteTree.Proofs.Tree.Deliveries
import RemoteTree.Proofs.Tree.Stream
import RemoteTree.Proofs.Tree.Writing

/-!
# Following a stream by lines

A reader of a stream yields the lines of what reads bring of it, one read after the other, and then
nothing more. Deadlines make no difference to the lines: what a timeout takes is a stall, and never
a byte.
-/

set_option autoImplicit false

namespace RemoteTree

namespace Tree

/-- Is an open file fed by a stream with a given queue, without faults and some bytes at a time? -/
structure Feeds (tree : Tree) (fid : UInt32) (path : Path) (queue : List Chunk) : Prop where
  reliable : tree.limits.failAfterReads = none
  some : tree.limits.mostRead ≠ some 0
  stream : tree.queue? path = .some queue
  opened : ∃ opened, Table.find? fid tree.openFiles = .some opened ∧ opened.path = path ∧
    opened.mode.isReadable = true

variable {tree : Tree} {path : Path} {queue : List Chunk}

/-- Are the limits, the open files and the count of closed files as they were? Reads of streams leave
them alone. -/
structure Steady (tree after : Tree) : Prop where
  limits : after.limits = tree.limits
  openFiles : after.openFiles = tree.openFiles
  closes : after.ledger.closes = tree.ledger.closes

theorem Steady.trans {middle after : Tree} (first : tree.Steady middle)
    (second : middle.Steady after) : tree.Steady after :=
  ⟨second.limits.trans first.limits, second.openFiles.trans first.openFiles,
    second.closes.trans first.closes⟩

theorem Feeds.read_queue {handle : Handle} (feeds : tree.Feeds handle.fid path queue)
    (buffer : Bytes) (wait : Option Duration) :
    ∃ delivery after rest, server.answer (.readFrom handle buffer wait) tree = (delivery, after) ∧
      readQueue (capped tree.limits.mostRead buffer.length) wait queue = (delivery, rest) ∧
      Fits delivery buffer.length ∧ tree.Steady after ∧ after.Feeds handle.fid path rest := by
  obtain ⟨opened, found, rfl, readable⟩ := feeds.opened
  obtain ⟨node, there, holds⟩ := queue?_eq_some.mp feeds.stream
  have read := readFrom_eq_readNode feeds.reliable found readable there buffer.length wait
  simp only [readNode, holds] at read
  exact ⟨_, _, _, answer_readFrom read, rfl, fits_readFrom (congrArg Prod.fst read),
    ⟨rfl, rfl, rfl⟩, feeds.reliable, feeds.some, queue?_setContent .., opened, found, rfl,
    readable⟩

private theorem Feeds.read {handle : Handle} (feeds : tree.Feeds handle.fid path queue)
    (buffer : Bytes) (wait : Option Duration) :
    ∃ delivery after rest, server.answer (.readFrom handle buffer wait) tree = (delivery, after) ∧
      after.limits = tree.limits ∧ after.Feeds handle.fid path rest ∧
      Fits delivery buffer.length ∧
      Chunk.Takes (capped tree.limits.mostRead buffer.length) wait queue
        (delivery.outcome buffer) rest := by
  obtain ⟨delivery, after, rest, answered, read, fits, steady, still⟩ :=
    feeds.read_queue buffer wait
  have takes := readQueue_takes (capped_le tree.limits.mostRead buffer.length) wait queue
  rw [read] at takes
  exact ⟨delivery, after, rest, answered, steady.limits, still, fits, takes⟩

private theorem Feeds.spared {fid : UInt32} (feeds : tree.Feeds fid path queue) {after : Tree}
    (limits : after.limits = tree.limits) (stream : after.queue? path = tree.queue? path)
    (opened : Table.find? fid after.openFiles = Table.find? fid tree.openFiles) :
    after.Feeds fid path queue := by
  refine ⟨?_, ?_, stream.trans feeds.stream, ?_⟩
  · rw [limits]
    exact feeds.reliable
  · rw [limits]
    exact feeds.some
  · rw [opened]
    exact feeds.opened

end Tree

namespace LineReader

open Chunk (Takes windows)

/-! ## Lines of what is pending -/

/-- The lines that a reader hands out of some bytes before it reads again. -/
def linesIn (pending : Bytes) : List String :=
  if _more : pending = [] then []
  else
    let piece := pending.takeWhile (· != newline)
    Utf8.decodeLossy piece :: linesIn (pending.drop (piece.length + 1))
termination_by pending.length
decreasing_by
  have some := List.length_pos_of_ne_nil _more
  rw [List.length_drop]
  omega

@[simp] theorem linesIn_nil : linesIn [] = [] := by
  unfold linesIn
  rfl

theorem linesIn_of_ne_nil {pending : Bytes} (more : pending ≠ []) :
    linesIn pending = Utf8.decodeLossy (pending.takeWhile (· != newline)) ::
      linesIn (pending.drop ((pending.takeWhile (· != newline)).length + 1)) := by
  rw [linesIn, dif_neg more]

theorem takeLine_eq (reader : LineReader) :
    ∃ consumed, reader.takeLine =
      (Utf8.decodeLossy (reader.pending.takeWhile (· != newline)),
        { reader with
          consumed := consumed
          pending :=
            reader.pending.drop ((reader.pending.takeWhile (· != newline)).length + 1) }) := by
  unfold takeLine
  dsimp only
  rw [← List.tail_drop]
  cases reader.pending.drop (reader.pending.takeWhile (· != newline)).length with
  | nil => exact ⟨_, rfl⟩
  | cons first rest => exact ⟨_, rfl⟩

/-! ## Waiting -/

variable {delivery : Delivery} {buffer : Bytes}

theorem arrival?_of_ok (fits : Tree.Fits delivery buffer.length) {bytes : Bytes}
    (brings : delivery.outcome buffer = .ok bytes) :
    arrival? buffer.length delivery = some (if bytes = [] then .nothing else .data bytes.length) ∧
      (Bytes.overlay delivery.received buffer).take bytes.length = bytes := by
  obtain ⟨received, claimed⟩ := delivery
  cases claimed with
  | error refusal => cases brings
  | ok count =>
      have within := fits count rfl
      have front : (Bytes.overlay received buffer).take count = bytes := Except.ok.inj brings
      have size : bytes.length = count := by
        rw [← front, List.length_take, Bytes.length_overlay, Nat.min_eq_left within]
      refine ⟨?_, by rw [size, front]⟩
      cases count with
      | zero => rw [if_pos (List.eq_nil_of_length_eq_zero size)]; rfl
      | succ count =>
          have some : bytes ≠ [] := List.ne_nil_of_length_eq_add_one size
          simp only [arrival?, if_neg (Nat.not_lt.mpr within), if_neg some, size]

theorem arrival?_of_timedOut (expired : delivery.outcome buffer = .error .timedOut) :
    arrival? buffer.length delivery = none := by
  obtain ⟨received, claimed⟩ := delivery
  cases claimed with
  | error refusal =>
      obtain rfl : refusal = .timedOut := Except.error.inj expired
      rfl
  | ok count => cases expired

/-- What a wait on a queue comes to, with the buffer and the queue as they are then: it brings what
the next read of the queue brings, or uses up a stall, or finds that nothing is left. -/
inductive Comes (room : Nat) (wait : Option Duration) (queue : List Chunk) (buffer : Bytes) :
    Arrival → List Chunk → Prop where
  | data {window : Bytes} (some : window ≠ []) (front : buffer.take window.length = window)
      {rest : List Chunk} (next : windows room queue = window :: windows room rest) :
      Comes room wait queue buffer (.data window.length) rest
  | timeout (waits : wait.isSome = true) {rest : List Chunk}
      (fewer : rest.count .stall < queue.count .stall)
      (same : windows room queue = windows room rest) :
      Comes room wait queue buffer .timeout rest
  | nothing (ended : windows room queue = []) (rest : List Chunk) :
      Comes room wait queue buffer .nothing rest

variable {room : Nat} {wait other : Option Duration} {queue middle rest : List Chunk}
  {arrival : Arrival}

theorem Comes.later (waits : wait.isSome = true)
    (fewer : middle.count .stall < queue.count .stall)
    (same : windows room queue = windows room middle)
    (comes : Comes room other middle buffer arrival rest) :
    Comes room wait queue buffer arrival rest := by
  cases comes with
  | data some front next => exact .data some front (same.trans next)
  | timeout _ further still => exact .timeout waits (Nat.lt_trans further fewer) (same.trans still)
  | nothing ended => exact .nothing (same.trans ended) rest

private theorem comes_of_takes (some : 0 < room) (fits : Tree.Fits delivery buffer.length)
    (takes : Takes room wait queue (delivery.outcome buffer) rest) :
    Comes room wait queue (Bytes.overlay delivery.received buffer)
      ((arrival? buffer.length delivery).getD .timeout) rest := by
  cases outcome : delivery.outcome buffer with
  | ok bytes =>
      rw [outcome] at takes
      obtain ⟨arrives, front⟩ := arrival?_of_ok fits outcome
      have next := takes.windows_ok some
      rw [arrives, Option.getD_some]
      by_cases empty : bytes = []
      · rw [if_pos empty] at next ⊢
        exact .nothing next rest
      · rw [if_neg empty] at next ⊢
        exact .data empty front next
  | error refusal =>
      rw [outcome] at takes
      cases takes with
      | stall empty waits =>
          obtain ⟨same, fewer, waits⟩ := (Takes.stall empty waits rest).windows_timedOut
          rw [arrival?_of_timedOut outcome]
          exact .timeout waits fewer same

variable {tree : Tree} {path : Path} {handle : Handle}

private theorem run_await (feeds : tree.Feeds handle.fid path queue) (some : 0 < buffer.length)
    (wait : Option Duration) (asked : Nat) (extensions : List Duration) :
    ∃ arrival filled used after rest,
      (await handle buffer wait asked extensions).run Tree.server tree =
        ((arrival, filled, used), after) ∧
      filled.length = buffer.length ∧ after.limits = tree.limits ∧
      after.Feeds handle.fid path rest ∧ rest.count .stall ≤ queue.count .stall ∧
      Comes (Tree.capped tree.limits.mostRead buffer.length) wait queue filled arrival rest := by
  induction extensions generalizing tree queue buffer wait asked with
  | nil =>
      obtain ⟨delivery, after, rest, answered, limits, still, fits, takes⟩ :=
        feeds.read buffer wait
      have comes := comes_of_takes (Tree.capped_pos feeds.some some) fits takes
      have size := Bytes.length_overlay delivery.received buffer
      simp only [await, Client.run, answered]
      cases arrives : arrival? buffer.length delivery with
      | none =>
          rw [arrives] at comes
          exact ⟨_, _, _, after, rest, rfl, size, limits, still, takes.count_le, comes⟩
      | some arrival =>
          rw [arrives] at comes
          exact ⟨_, _, _, after, rest, rfl, size, limits, still, takes.count_le, comes⟩
  | cons extension extensions ih =>
      obtain ⟨delivery, after, rest, answered, limits, still, fits, takes⟩ :=
        feeds.read buffer wait
      have comes := comes_of_takes (Tree.capped_pos feeds.some some) fits takes
      have size := Bytes.length_overlay delivery.received buffer
      simp only [await, Client.run, answered]
      cases arrives : arrival? buffer.length delivery with
      | some arrival =>
          rw [arrives] at comes
          exact ⟨_, _, _, after, rest, rfl, size, limits, still, takes.count_le, comes⟩
      | none =>
          rw [arrives] at comes
          dsimp only
          split
          · exact ⟨_, _, _, after, rest, rfl, size, limits, still, takes.count_le, comes⟩
          · -- The stall is used up, and the extension waits for what is behind it.
            obtain ⟨arrival, filled, used, last, left, ran, grown, same, feeding, fewer, result⟩ :=
              ih still (size ▸ some) (.some extension) (asked + 1)
            rw [size, limits] at result
            refine ⟨arrival, filled, used, last, left, ran, grown.trans size, same.trans limits,
              feeding, Nat.le_trans fewer takes.count_le, ?_⟩
            cases comes with
            | timeout waits spent still => exact result.later waits spent still

private theorem run_awaitWith (feeds : tree.Feeds handle.fid path queue) (some : 0 < buffer.length)
    (wait : Option Duration) (extensions : Option (List Duration)) :
    ∃ arrival filled used after rest,
      (awaitWith handle buffer wait extensions).run Tree.server tree =
        ((arrival, filled, used), after) ∧
      filled.length = buffer.length ∧ after.limits = tree.limits ∧
      after.Feeds handle.fid path rest ∧ rest.count .stall ≤ queue.count .stall ∧
      Comes (Tree.capped tree.limits.mostRead buffer.length) wait queue filled arrival rest := by
  cases extensions with
  | none =>
      obtain ⟨arrival, filled, used, after, rest, ran, facts⟩ := run_await feeds some wait 0 []
      refine ⟨arrival, filled, 0, after, rest, ?_, facts⟩
      rw [awaitWith, Client.run_andThen, ran]
      rfl
  | some extensions => exact run_await feeds some wait 0 extensions

/-! ## Steps -/

/-- A reader on the way through a stream: the lines that it has yet to yield, and the most stalls
that can be in its way. -/
structure OnTheWay (reader : LineReader) (tree : Tree) (path : Path) (lines : List String)
    (stalls : Nat) : Prop where
  live : reader.finished = false
  room : 0 < reader.buffer.length
  feeds : ∃ queue, tree.Feeds reader.handle.fid path queue ∧ queue.count .stall ≤ stalls ∧
    lines = linesIn reader.pending ++
      (windows (Tree.capped tree.limits.mostRead reader.buffer.length) queue).flatMap linesIn

/-- The lines that remain for a reader. After the end there are none. -/
def Remaining (reader : LineReader) (tree : Tree) (path : Path) (lines : List String)
    (stalls : Nat) : Prop :=
  reader.OnTheWay tree path lines stalls ∨ reader.finished = true ∧ lines = []

/-- What a step under a deadline yields of the lines that remain: the first of them, or a timeout
that uses up a stall, or the end when there are none. -/
inductive Advances (deadline : Option Deadline) :
    List String → Nat → Option LineEvent → List String → Nat → Prop where
  | line (text : String) (rest : List String) (stalls : Nat) :
      Advances deadline (text :: rest) stalls (some (.line text)) rest stalls
  | timeout (waits : (Deadline.waits deadline).1.isSome = true) (lines : List String)
      {stalls fewer : Nat} (spent : fewer < stalls) :
      Advances deadline lines stalls (some .timeout) lines fewer
  | nothing (stalls : Nat) : Advances deadline [] stalls none [] stalls

variable {reader : LineReader} {lines : List String} {stalls : Nat}

private theorem OnTheWay.advance_pending (way : reader.OnTheWay tree path lines stalls)
    (pending : reader.pending ≠ []) (deadline : Option Deadline) :
    ∃ text rest next, lines = text :: rest ∧
      reader.advance deadline = .done (some (.line text), next, 0) ∧
      next.handle = reader.handle ∧ next.OnTheWay tree path rest stalls := by
  obtain ⟨queue, feeds, few, rfl⟩ := way.feeds
  obtain ⟨consumed, taken⟩ := reader.takeLine_eq
  rw [linesIn_of_ne_nil pending, advance_of_pending reader way.live pending, taken]
  exact ⟨_, _, _, rfl, rfl, rfl, way.live, way.room, queue, feeds, few, rfl⟩

private theorem OnTheWay.advance_empty (way : reader.OnTheWay tree path lines stalls)
    (empty : reader.pending = []) (deadline : Option Deadline) :
    ∃ event next asked after rest fewer,
      (reader.advance deadline).run Tree.server tree = ((event, next, asked), after) ∧
      next.handle = reader.handle ∧ next.Remaining after path rest fewer ∧
      Advances deadline lines stalls event rest fewer := by
  obtain ⟨queue, feeds, few, rfl⟩ := way.feeds
  obtain ⟨arrival, filled, used, after, rest, ran, size, limits, still, fewer, comes⟩ :=
    run_awaitWith feeds way.room (Deadline.waits deadline).1 (Deadline.waits deadline).2
  rw [advance_of_empty reader way.live empty, Client.run_andThen, ran, empty, linesIn_nil,
    List.nil_append]
  have room : 0 < filled.length := size ▸ way.room
  cases comes with
  | @data window some front _ next =>
      obtain ⟨consumed, taken⟩ := takeLine_eq
        { reader with buffer := filled, consumed := 0, pending := filled.take window.length }
      rw [front] at taken
      simp only [Client.run, arrive, front, taken]
      refine ⟨_, _, _, _, _, stalls, rfl, rfl, .inl ⟨way.live, room, rest, still,
        Nat.le_trans fewer few, rfl⟩, ?_⟩
      rw [next, List.flatMap_cons, linesIn_of_ne_nil some, limits, size]
      exact .line _ _ stalls
  | timeout waits spent same =>
      refine ⟨_, _, _, _, _, rest.count .stall, rfl, rfl, .inl ⟨way.live, room, rest, still,
        Nat.le_refl _, rfl⟩, ?_⟩
      simp only [linesIn_nil, List.nil_append, same, limits, size]
      exact .timeout waits _ (Nat.lt_of_lt_of_le spent few)
  | nothing ended =>
      rw [ended]
      exact ⟨_, _, _, _, _, stalls, rfl, rfl, .inr ⟨rfl, rfl⟩, .nothing stalls⟩

private theorem Remaining.advance (remaining : reader.Remaining tree path lines stalls)
    (deadline : Option Deadline) :
    ∃ event next asked after rest fewer,
      (reader.advance deadline).run Tree.server tree = ((event, next, asked), after) ∧
      next.handle = reader.handle ∧ next.Remaining after path rest fewer ∧
      Advances deadline lines stalls event rest fewer := by
  rcases remaining with way | ⟨finished, rfl⟩
  · by_cases empty : reader.pending = []
    · exact way.advance_empty empty deadline
    · obtain ⟨text, rest, next, rfl, step, handle, following⟩ := way.advance_pending empty deadline
      rw [step]
      exact ⟨_, _, _, _, rest, stalls, rfl, handle, .inl following, .line text rest stalls⟩
  · rw [advance_of_finished reader finished]
    exact ⟨_, _, _, _, [], stalls, rfl, rfl, .inr ⟨finished, rfl⟩, .nothing stalls⟩

private theorem Remaining.loop (remaining : reader.Remaining tree path lines stalls) (count : Nat)
    (read : List String) :
    ((take.loop count read reader).run Tree.server tree).1.1 =
      read.reverse ++ lines.take count := by
  induction count generalizing reader tree lines stalls read with
  | zero => simp [take.loop, Client.run]
  | succ count ih =>
      obtain ⟨event, next, asked, after, rest, fewer, step, -, following, yields⟩ :=
        remaining.advance none
      simp only [take.loop, LineReader.next, Client.run_andThen, step]
      cases yields with
      | line text rest =>
          refine (ih following (text :: read)).trans ?_
          rw [List.reverse_cons, List.append_assoc]
          rfl
      | timeout waits => cases waits
      | nothing => simp [Client.run]

/-! ## Schedules -/

private theorem Remaining.spared (remaining : reader.Remaining tree path lines stalls)
    {after : Tree}
    (limits : after.limits = tree.limits) (stream : after.queue? path = tree.queue? path)
    (opened : Table.find? reader.handle.fid after.openFiles =
      Table.find? reader.handle.fid tree.openFiles) :
    reader.Remaining after path lines stalls := by
  rcases remaining with way | ended
  · obtain ⟨queue, feeds, few, split⟩ := way.feeds
    refine .inl ⟨way.live, way.room, queue, feeds.spared limits stream opened, few, ?_⟩
    rw [limits]
    exact split
  · exact .inr ended

/-- The events that the steps of a reader yield under some deadlines when, before each step, things
happen to the tree that leave the stream and the reader's open file alone. -/
inductive Yields (path : Path) : LineReader → Tree → List (Option LineEvent) → Prop where
  | done (reader : LineReader) (tree : Tree) : Yields path reader tree []
  | next {reader next : LineReader} {tree after : Tree} {event : Option LineEvent} {asked : Nat}
      {events : List (Option LineEvent)} (changes : List Tree.Change) (deadline : Option Deadline)
      (stream : (tree.after changes).queue? path = tree.queue? path)
      (opened : Table.find? reader.handle.fid (tree.after changes).openFiles =
        Table.find? reader.handle.fid tree.openFiles)
      (step : (reader.advance deadline).run Tree.server (tree.after changes) =
        ((event, next, asked), after))
      (rest : Yields path next after events) :
      Yields path reader tree (event :: events)

def linesOf (events : List (Option LineEvent)) : List String :=
  events.filterMap fun event =>
    match event with
    | some (.line text) => some text
    | _ => none

/-- The events of a reader that is left alone. -/
def follow (reader : LineReader) (tree : Tree) : List (Option Deadline) → List (Option LineEvent)
  | [] => []
  | deadline :: rest =>
      let ((event, next, _), after) := (reader.advance deadline).run Tree.server tree
      event :: next.follow after rest

private theorem yields_follow (path : Path) (reader : LineReader) (tree : Tree)
    (deadlines : List (Option Deadline)) :
    Yields path reader tree (reader.follow tree deadlines) := by
  induction deadlines generalizing reader tree with
  | nil => exact .done reader tree
  | cons deadline rest ih => exact .next [] deadline rfl rfl rfl (ih _ _)

/-- A schedule yields lines that remain, in order, and all of them before it ends. Every timeout
uses up a stall, so the end comes after as many steps as there are lines and stalls. -/
theorem Yields.follows {events : List (Option LineEvent)} (yields : Yields path reader tree events)
    {lines : List String} {stalls : Nat} (remaining : reader.Remaining tree path lines stalls) :
    linesOf events <+: lines ∧ events.count (some .timeout) ≤ stalls ∧
      (none ∈ events → linesOf events = lines) ∧
      (lines.length + stalls < events.length → none ∈ events) := by
  induction yields generalizing lines stalls with
  | done => simp [linesOf]
  | @next reader next tree after event asked events changes deadline stream opened step rest ih =>
      -- What happens before the step leaves the same lines to the reader.
      have limits := (tree.after_edits changes).limits
      obtain ⟨event, next, asked, after, others, fewer, ran, -, following, yields⟩ :=
        (remaining.spared limits stream opened).advance deadline
      rw [step] at ran
      cases ran
      obtain ⟨front, expired, whole, ends⟩ := ih following
      cases yields with
      | line text others =>
          have more : linesOf (some (.line text) :: events) = text :: linesOf events := rfl
          rw [more, List.count_cons_of_ne (by simp)]
          refine ⟨(List.prefix_cons_inj text).mpr front, expired, fun ended => ?_, fun long => ?_⟩
          · rw [whole (by simpa using ended)]
          · simp only [List.length_cons] at long
            exact List.mem_cons_of_mem _ (ends (by omega))
      | timeout waits _ spent =>
          have same : linesOf (some .timeout :: events) = linesOf events := rfl
          rw [same, List.count_cons_self]
          refine ⟨front, by omega, fun ended => whole (by simpa using ended), fun long => ?_⟩
          simp only [List.length_cons] at long
          exact List.mem_cons_of_mem _ (ends (by omega))
      | nothing =>
          have same : linesOf (none :: events) = linesOf events := rfl
          rw [same, List.count_cons_of_ne (by simp)]
          exact ⟨front, expired, fun _ => List.prefix_nil.mp front, fun _ => List.mem_cons_self⟩

end LineReader

namespace Connection

open Chunk (windows)

private theorem openLines_remaining (connection : Connection) {tree : Tree} {text : String}
    {queue : List Chunk} (stream : tree.queue? (.ofText text) = some queue)
    (reliable : tree.limits.failAfterReads = none) (some : tree.limits.mostRead ≠ some 0)
    (fits : Client.fits connection.bufferLimit
      (Handle.transferSize ⟨tree.nextFid, tree.limits.iounit, 0⟩) = true) :
    ∃ reader, (connection.openLines text).run Tree.server tree =
        (.ok reader, (tree.issue (.ofText text) .read).2) ∧
      reader.Remaining (tree.issue (.ofText text) .read).2 (.ofText text)
        ((windows (Tree.capped tree.limits.mostRead
          (Handle.transferSize ⟨0, tree.limits.iounit, 0⟩)) queue).flatMap LineReader.linesIn)
        (queue.count .stall) := by
  obtain ⟨node, found, -⟩ := Tree.queue?_eq_some.mp stream
  have size : (LineReader.start (tree.issue (.ofText text) .read).1 text).buffer.length =
      Handle.transferSize ⟨0, tree.limits.iounit, 0⟩ :=
    (List.length_replicate ..).trans (Handle.transferSize_congr rfl)
  refine ⟨LineReader.start (tree.issue (.ofText text) .read).1 text,
    connection.run_openReader found LineReader.start fits, .inl ⟨rfl, ?_, queue,
      ⟨reliable, some, stream, _, tree.find?_issue (.ofText text) .read, rfl, rfl⟩,
      Nat.le_refl _, ?_⟩⟩
  · rw [size]
    exact Handle.transferSize_pos _
  · rw [size]
    simp [LineReader.start, Tree.issue]

/-- Deadlines neither lose nor double nor reorder lines. On the same queue without its stalls steps
without deadlines yield some lines, and then nothing. However the steps on the queue itself are
scheduled, they yield lines of these from the first on, no more timeouts than there are stalls, and
all the lines by the time they end, which they do. -/
theorem openLines_follows (connection : Connection) {tree plain : Tree} {text : String}
    {queue : List Chunk} (stream : tree.queue? (.ofText text) = some queue)
    (plainStream : plain.queue? (.ofText text) = some (queue.filter (· ≠ .stall)))
    (alike : plain.limits = tree.limits) (reliable : tree.limits.failAfterReads = none)
    (some : tree.limits.mostRead ≠ some 0)
    (fits : Client.fits connection.bufferLimit
      (Handle.transferSize ⟨tree.nextFid, tree.limits.iounit, 0⟩) = true) :
    ∃ (reader plainReader : LineReader) (opened plainOpened : Tree) (lines : List String),
      (connection.openLines text).run Tree.server tree = (.ok reader, opened) ∧
      (connection.openLines text).run Tree.server plain = (.ok plainReader, plainOpened) ∧
      (∀ count, ((plainReader.take count).run Tree.server plainOpened).1.1 = lines.take count) ∧
      ∀ events, LineReader.Yields (.ofText text) reader opened events →
        LineReader.linesOf events <+: lines ∧
        events.count (.some .timeout) ≤ queue.count .stall ∧
        (none ∈ events → LineReader.linesOf events = lines) ∧
        (lines.length + queue.count .stall < events.length → none ∈ events) := by
  obtain ⟨reader, ran, remaining⟩ :=
    connection.openLines_remaining stream reliable some fits
  obtain ⟨plainReader, plainRan, plainRemaining⟩ := connection.openLines_remaining plainStream
    (alike ▸ reliable) (alike ▸ some) (by rw [alike]; exact fits)
  rw [alike, Chunk.windows_filter] at plainRemaining
  generalize (windows _ queue).flatMap LineReader.linesIn = lines at remaining plainRemaining
  refine ⟨reader, plainReader, _, _, lines, ran, plainRan, ?_, ?_⟩
  · intro count
    exact plainRemaining.loop count []
  · intro events yields
    exact yields.follows remaining

/-- A queue whose chunks are cut in the middle of lines, under deadlines of all kinds. -/
theorem openLines_follows_of_stalls :
    let queue : List Chunk := [.data [97, 10, 98], .stall, .stall, .data [], .stall,
      .data [99, 10, 10, 100, 195, 169], .stall]
    let tree := (Tree.empty { iounit := 4, mostRead := some 3 } 7).addStream "/s" queue
    let plain := (Tree.empty { iounit := 4, mostRead := some 3 } 9).addStream "s"
      [.data [97, 10, 98], .data [], .data [99, 10, 10, 100, 195, 169]]
    let connection : Connection := ⟨"mem!test", some 4⟩
    let second : Duration := .seconds 1
    let deadlines : List (Option Deadline) :=
      [some ⟨second, none⟩, none, some ⟨second, none⟩, some ⟨second, some [second]⟩,
        some ⟨.zero, some [second]⟩, none, some ⟨second, some [second]⟩,
        some ⟨second, some [.zero]⟩, some ⟨second, none⟩, none]
    tree.queue? (.ofText "/s") = some queue ∧
      plain.queue? (.ofText "/s") = some (queue.filter (· ≠ .stall)) ∧
      plain.limits = tree.limits ∧ tree.limits.failAfterReads = none ∧
      tree.limits.mostRead ≠ some 0 ∧
      ∃ (reader plainReader : LineReader) (opened plainOpened : Tree),
        (connection.openLines "/s").run Tree.server tree = (.ok reader, opened) ∧
        (connection.openLines "/s").run Tree.server plain = (.ok plainReader, plainOpened) ∧
        reader.follow opened deadlines =
          [some (.line "a"), some (.line "b"), some .timeout, some .timeout, some (.line "c"),
            some (.line ""), some (.line "dé"), some .timeout, none, none] ∧
        ((plainReader.take 9).run Tree.server plainOpened).1.1 = ["a", "b", "c", "", "dé"] := by
  intro queue tree plain connection second deadlines
  have stream : tree.queue? (.ofText "/s") = some queue := by decide +kernel
  have plainStream : plain.queue? (.ofText "/s") = some (queue.filter (· ≠ .stall)) := by
    decide +kernel
  obtain ⟨reader, plainReader, opened, plainOpened, lines, ran, plainRan, plainLines, follows⟩ :=
    connection.openLines_follows stream plainStream rfl rfl (by decide) (by decide +kernel)
  have events : (((connection.openLines "/s").run Tree.server tree).1.toOption.map fun reader =>
      reader.follow ((connection.openLines "/s").run Tree.server tree).2 deadlines) =
      some [some (.line "a"), some (.line "b"), some .timeout, some .timeout, some (.line "c"),
        some (.line ""), some (.line "dé"), some .timeout, none, none] := by decide +kernel
  rw [ran] at events
  replace events : reader.follow opened deadlines = _ := Option.some.inj events
  refine ⟨stream, plainStream, rfl, rfl, by decide, reader, plainReader, opened, plainOpened, ran,
    plainRan, events, ?_⟩
  obtain ⟨-, -, whole, -⟩ :=
    follows _ (LineReader.yields_follow (.ofText "/s") reader opened deadlines)
  rw [events] at whole
  rw [plainLines, ← whole (by simp)]
  rfl

end Connection

end RemoteTree
