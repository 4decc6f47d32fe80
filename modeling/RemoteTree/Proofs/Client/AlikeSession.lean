import RemoteTree.Proofs.Client.Alike

/-!
# Sessions that overlook stale bytes

What a session does and what comes of it, without the bytes that a read left behind in a buffer.
Sessions that show the same stay that way over every run of steps, and the same comes of it.
-/

set_option autoImplicit false

namespace RemoteTree

/-- A delivery without what it left in the buffer beyond its claim. -/
def Delivery.seen (delivery : Delivery) (buffer : Bytes) : Delivery :=
  { delivery with
    received :=
      match delivery.claimed with
      | .ok count => (Bytes.overlay delivery.received buffer).take count
      | .error _ => [] }

private theorem Delivery.Alike.seen_eq {left right : Delivery} {leftBuffer rightBuffer : Bytes}
    (alike : left.Alike right leftBuffer rightBuffer) :
    left.seen leftBuffer = right.seen rightBuffer := by
  obtain ⟨claimed, -, bytes⟩ := alike
  simp only [Delivery.seen, ← claimed]
  cases claims : left.claimed with
  | error refusal => rfl
  | ok count => simp only [bytes count claims]

/-- A reply without what it left in the buffer beyond its claim. -/
def Request.seenReply : (request : Request) → request.Reply → request.Reply
  | .readFrom _ buffer _, delivery => delivery.seen buffer
  | .openFile _ _, reply => reply
  | .createFile _ _ _, reply => reply
  | .writeTo _ _, reply => reply
  | .removeFile _, reply => reply
  | .statFile _, reply => reply
  | .closeFile _, reply => reply
  | .unmount, reply => reply

/-- What there is to see of an outcome: all but the stale bytes of buffers. -/
def Outcome.seen : Outcome → Outcome
  | .openedLines result => .openedLines (result.map LineReader.seen)
  | .openedDirectory result => .openedDirectory (result.map DirectoryReader.seen)
  | .event found asked reader => .event found asked reader.seen
  | .lines found reader => .lines found reader.seen
  | .line found reader => .line found reader.seen
  | .entry found reader => .entry found reader.seen
  | .entries found reader => .entries found reader.seen
  | .reply request answer => .reply request (request.seenReply answer)
  | outcome => outcome

namespace Session

open Client (Alike)

def seen (session : Session) : Session :=
  { session with
    lines := Table.mapValues LineReader.seen session.lines
    directories := Table.mapValues DirectoryReader.seen session.directories }

private theorem seen_eq_iff {left right : Session} :
    left.seen = right.seen ↔
      left.connection = right.connection ∧
        Table.mapValues LineReader.seen left.lines =
          Table.mapValues LineReader.seen right.lines ∧
        Table.mapValues DirectoryReader.seen left.directories =
          Table.mapValues DirectoryReader.seen right.directories := by
  simp only [seen, Session.mk.injEq]

private theorem isOver_congr {left right : Session} (same : left.seen = right.seen) :
    left.isOver = right.isOver := by
  obtain ⟨connections, lines, directories⟩ := seen_eq_iff.mp same
  rw [isOver, isOver, connections, ← Table.isEmpty_mapValues LineReader.seen left.lines,
    ← Table.isEmpty_mapValues DirectoryReader.seen left.directories, lines, directories,
    Table.isEmpty_mapValues, Table.isEmpty_mapValues]

private theorem hasReader_congr {left right : Session} (same : left.seen = right.seen)
    (name : String) : left.hasReader name = right.hasReader name := by
  obtain ⟨-, lines, directories⟩ := seen_eq_iff.mp same
  have line := congrArg (fun table => (Table.find? name table).isSome) lines
  have directory := congrArg (fun table => (Table.find? name table).isSome) directories
  simp only [Table.find?_mapValues, Option.isSome_map] at line directory
  rw [hasReader, hasReader, line, directory]

/-- Under one name there are readers that show the same, or none in either session. -/
theorem find?_lines_congr {left right : Session} (same : left.seen = right.seen)
    (name : String) :
    (Table.find? name left.lines = none ∧ Table.find? name right.lines = none) ∨
      ∃ first second, Table.find? name left.lines = some first ∧
        Table.find? name right.lines = some second ∧ first.seen = second.seen := by
  obtain ⟨-, lines, -⟩ := seen_eq_iff.mp same
  have found := congrArg (Table.find? name) lines
  simp only [Table.find?_mapValues] at found
  cases first : Table.find? name left.lines <;> cases second : Table.find? name right.lines <;>
    simp_all

private theorem find?_directories_congr {left right : Session} (same : left.seen = right.seen)
    (name : String) :
    (Table.find? name left.directories = none ∧ Table.find? name right.directories = none) ∨
      ∃ first second, Table.find? name left.directories = some first ∧
        Table.find? name right.directories = some second ∧ first.seen = second.seen := by
  obtain ⟨-, -, directories⟩ := seen_eq_iff.mp same
  have found := congrArg (Table.find? name) directories
  simp only [Table.find?_mapValues] at found
  cases first : Table.find? name left.directories <;>
    cases second : Table.find? name right.directories <;> simp_all

private theorem insert_lines_same {left right : Session} (same : left.seen = right.seen)
    (name : String) {first second : LineReader} (readers : first.seen = second.seen) :
    { left with lines := Table.insert name first left.lines }.seen =
      { right with lines := Table.insert name second right.lines }.seen := by
  obtain ⟨connections, lines, directories⟩ := seen_eq_iff.mp same
  refine seen_eq_iff.mpr ⟨connections, ?_, directories⟩
  rw [← Table.insert_mapValues, ← Table.insert_mapValues, readers, lines]

private theorem insert_directories_same {left right : Session} (same : left.seen = right.seen)
    (name : String) {first second : DirectoryReader} (readers : first.seen = second.seen) :
    { left with directories := Table.insert name first left.directories }.seen =
      { right with directories := Table.insert name second right.directories }.seen := by
  obtain ⟨connections, lines, directories⟩ := seen_eq_iff.mp same
  refine seen_eq_iff.mpr ⟨connections, lines, ?_⟩
  rw [← Table.insert_mapValues, ← Table.insert_mapValues, readers, directories]

def Same (left right : Session) : Prop := left.seen = right.seen

/-- Steps that came to what shows as the same, and left sessions that show the same. -/
def SameStep (left right : Outcome × Session) : Prop :=
  left.1.seen = right.1.seen ∧ left.2.seen = right.2.seen

private theorem unmountIfOver_alike {left right : Session} (same : left.seen = right.seen) :
    Alike Same left.unmountIfOver right.unmountIfOver := by
  unfold unmountIfOver
  rw [isOver_congr same]
  split
  · exact .ask rfl fun _ => .done same
  · exact .done same

private theorem disconnect_alike {left right : Session} (same : left.seen = right.seen) :
    Alike Same left.disconnect right.disconnect := by
  obtain ⟨connections, lines, directories⟩ := seen_eq_iff.mp same
  unfold disconnect
  rw [connections]
  split
  · exact unmountIfOver_alike (seen_eq_iff.mpr ⟨rfl, lines, directories⟩)
  · exact .done same

private theorem dropLines_alike {left right : Session} (same : left.seen = right.seen)
    (name : String) : Alike Same (left.dropLines name) (right.dropLines name) := by
  obtain ⟨connections, lines, directories⟩ := seen_eq_iff.mp same
  unfold dropLines
  rcases find?_lines_congr same name with ⟨first, second⟩ | ⟨first, second, found, other, readers⟩
  · rw [first, second]
    exact .done same
  · rw [found, other]
    dsimp only
    rw [(LineReader.eq_withBuffer_of_seen readers).1]
    refine .ask rfl fun _ => unmountIfOver_alike (seen_eq_iff.mpr ⟨connections, ?_, directories⟩)
    rw [← Table.erase_mapValues, ← Table.erase_mapValues, lines]

private theorem dropDirectory_alike {left right : Session} (same : left.seen = right.seen)
    (name : String) : Alike Same (left.dropDirectory name) (right.dropDirectory name) := by
  obtain ⟨connections, lines, directories⟩ := seen_eq_iff.mp same
  unfold dropDirectory
  rcases find?_directories_congr same name with
    ⟨first, second⟩ | ⟨first, second, found, other, readers⟩
  · rw [first, second]
    exact .done same
  · rw [found, other]
    dsimp only
    rw [(DirectoryReader.eq_withBuffer_of_seen readers).1]
    refine .ask rfl fun _ => unmountIfOver_alike (seen_eq_iff.mpr ⟨connections, lines, ?_⟩)
    rw [← Table.erase_mapValues, ← Table.erase_mapValues, directories]

private theorem openReader_alike {Reader : Type} (connection : Connection) (path : String)
    (start : Handle → String → Reader) :
    Alike Eq (connection.openReader path start) (connection.openReader path start) := by
  refine Connection.withOpened_alike path .read (fun _ => rfl) fun handle => ?_
  split
  · exact .done rfl
  · exact Connection.closing_alike handle (.done rfl)

private theorem openLines_alike {left right : Session} (same : left.seen = right.seen)
    (connection : Connection) (name path : String) :
    Alike (fun first second => first.1 = second.1 ∧ first.2.seen = second.2.seen)
      (left.openLines connection name path) (right.openLines connection name path) := by
  refine (openReader_alike connection path LineReader.start).andThen ?_
  rintro opened _ rfl
  cases opened with
  | error error => exact .done ⟨rfl, same⟩
  | ok reader =>
      exact (dropLines_alike same name).andThen fun _ _ dropped =>
        .done ⟨rfl, insert_lines_same dropped name rfl⟩

private theorem openDirectory_alike {left right : Session} (same : left.seen = right.seen)
    (connection : Connection) (name path : String) :
    Alike (fun first second => first.1 = second.1 ∧ first.2.seen = second.2.seen)
      (left.openDirectory connection name path) (right.openDirectory connection name path) := by
  refine (openReader_alike connection path DirectoryReader.start).andThen ?_
  rintro opened _ rfl
  cases opened with
  | error error => exact .done ⟨rfl, same⟩
  | ok reader =>
      exact (dropDirectory_alike same name).andThen fun _ _ dropped =>
        .done ⟨rfl, insert_directories_same dropped name rfl⟩

private theorem withConnection_alike {left right : Session} (same : left.seen = right.seen)
    {leftNext rightNext : Connection → Client (Outcome × Session)}
    (next : ∀ connection, Alike SameStep (leftNext connection) (rightNext connection)) :
    Alike SameStep (left.withConnection leftNext) (right.withConnection rightNext) := by
  obtain ⟨connections, -⟩ := seen_eq_iff.mp same
  unfold withConnection
  rw [connections]
  split
  · exact next _
  · exact .done ⟨rfl, same⟩

private theorem operation_alike {Result : Type} {left right : Session}
    (same : left.seen = right.seen)
    (outcome : Result → Outcome) {program : Connection → Client Result}
    (alike : ∀ connection, Alike Eq (program connection) (program connection)) :
    Alike SameStep (left.operation outcome program) (right.operation outcome program) :=
  withConnection_alike same fun connection =>
    (alike connection).andThen fun _ _ results => .done ⟨by rw [results], same⟩

private theorem withLines_alike {Result : Type} {left right : Session}
    (same : left.seen = right.seen)
    (name : String) {program : LineReader → Client (Result × LineReader)}
    {outcome : Result → LineReader → Outcome}
    (shown : ∀ result first second, first.seen = second.seen →
      (outcome result first).seen = (outcome result second).seen)
    (alike : ∀ first second, first.seen = second.seen →
      Alike LineReader.SameStep (program first) (program second)) :
    Alike SameStep (left.withLines name program outcome)
      (right.withLines name program outcome) := by
  unfold withLines
  rcases find?_lines_congr same name with ⟨first, second⟩ | ⟨first, second, found, other, readers⟩
  · rw [first, second]
    exact .done ⟨rfl, same⟩
  · rw [found, other]
    refine (alike first second readers).andThen ?_
    rintro ⟨result, first⟩ ⟨_, second⟩ ⟨rfl, after⟩
    exact .done ⟨shown result first second after, insert_lines_same same name after⟩

private theorem withDirectory_alike {Result : Type} {left right : Session}
    (same : left.seen = right.seen) (name : String)
    {program : DirectoryReader → Client (Result × DirectoryReader)}
    {outcome : Result → DirectoryReader → Outcome}
    (shown : ∀ result first second, first.seen = second.seen →
      (outcome result first).seen = (outcome result second).seen)
    (alike : ∀ first second, first.seen = second.seen →
      Alike DirectoryReader.SameStep (program first) (program second)) :
    Alike SameStep (left.withDirectory name program outcome)
      (right.withDirectory name program outcome) := by
  unfold withDirectory
  rcases find?_directories_congr same name with
    ⟨first, second⟩ | ⟨first, second, found, other, readers⟩
  · rw [first, second]
    exact .done ⟨rfl, same⟩
  · rw [found, other]
    refine (alike first second readers).andThen ?_
    rintro ⟨result, first⟩ ⟨_, second⟩ ⟨rfl, after⟩
    exact .done ⟨shown result first second after, insert_directories_same same name after⟩

private theorem request_alike {left right : Session} (same : left.seen = right.seen)
    (request : Request) :
    Alike SameStep (.ask request fun reply => .done (.reply request reply, left))
      (.ask request fun reply => .done (.reply request reply, right)) := by
  cases request with
  | readFrom handle buffer wait =>
      refine .read rfl fun first second alike => .done ⟨?_, same⟩
      simp only [Outcome.seen, Request.seenReply, alike.seen_eq]
  | _ => exact .ask rfl fun _ => .done ⟨rfl, same⟩

/-- No step shows a stale byte. -/
theorem step_alike {left right : Session} (same : left.seen = right.seen) (step : Step) :
    Alike SameStep (left.step step) (right.step step) := by
  have connections := (seen_eq_iff.mp same).1
  cases step with
  | read path => exact operation_alike same _ fun connection => connection.read_alike path
  | write path data =>
      exact operation_alike same _ fun connection => connection.write_alike path data
  | create path data =>
      exact operation_alike same _ fun connection => connection.create_alike path data
  | remove path => exact operation_alike same _ fun connection => connection.remove_alike path
  | stat path => exact operation_alike same _ fun connection => connection.stat_alike path
  | openLines name path =>
      refine withConnection_alike same fun connection => ?_
      exact (openLines_alike same connection name path).andThen fun _ _ opened =>
        .done ⟨by rw [opened.1], opened.2⟩
  | openDirectory name path =>
      refine withConnection_alike same fun connection => ?_
      exact (openDirectory_alike same connection name path).andThen fun _ _ opened =>
        .done ⟨by rw [opened.1], opened.2⟩
  | limitBuffers bytes =>
      obtain ⟨-, lines, directories⟩ := seen_eq_iff.mp same
      refine withConnection_alike same fun connection => .done ⟨rfl, ?_⟩
      exact seen_eq_iff.mpr ⟨by simp only [limitBuffers, connections], lines, directories⟩
  | disconnect =>
      refine withConnection_alike same fun connection => ?_
      exact (disconnect_alike same).andThen fun _ _ left => .done ⟨rfl, left⟩
  | advance name deadline =>
      simp only [Session.step]
      refine withLines_alike same name (fun _ _ _ readers => ?_) fun _ _ readers => ?_
      · simp only [Outcome.seen, readers]
      · exact (LineReader.advance_alike readers deadline).andThen fun _ _ advanced =>
          .done ⟨by rw [advanced.1, advanced.2.2], advanced.2.1⟩
  | takeLines name count =>
      refine withLines_alike same name (fun _ _ _ readers => ?_) fun _ _ readers =>
        LineReader.take_alike count readers
      simp only [Outcome.seen, readers]
  | nextLine name =>
      refine withLines_alike same name (fun _ _ _ readers => ?_) fun _ _ readers =>
        LineReader.next_alike readers
      simp only [Outcome.seen, readers]
  | nextEntry name =>
      refine withDirectory_alike same name (fun _ _ _ readers => ?_) fun _ _ readers =>
        DirectoryReader.next_alike readers
      simp only [Outcome.seen, readers]
  | takeEntries name count =>
      refine withDirectory_alike same name (fun _ _ _ readers => ?_) fun _ _ readers =>
        DirectoryReader.take_alike count readers
      simp only [Outcome.seen, readers]
  | drop name =>
      refine (dropLines_alike same name).andThen fun _ _ dropped => ?_
      refine (dropDirectory_alike dropped name).andThen fun _ _ dropped => ?_
      exact .done ⟨by rw [hasReader_congr same], dropped⟩
  | request request => exact request_alike same request

private theorem steps_alike {left right : Session} (same : left.seen = right.seen)
    (script : List Step) : Alike
      (fun first second => first.1.map Outcome.seen = second.1.map Outcome.seen ∧
        first.2.seen = second.2.seen)
      (left.steps script) (right.steps script) := by
  induction script generalizing left right with
  | nil => exact .done ⟨rfl, same⟩
  | cons step rest ih =>
      refine (step_alike same step).andThen fun first second stepped => ?_
      refine (ih stepped.2).andThen fun _ _ others => .done ⟨?_, others.2⟩
      simp only [List.map_cons, stepped.1, others.1]

private theorem dropAll_alike {drop : Session → String → Client Session}
    (alike : ∀ {left right : Session}, left.seen = right.seen → ∀ name,
      Alike Same (drop left name) (drop right name))
    (names : List String) {left right : Session} (same : left.seen = right.seen) :
    Alike Same (finish.dropAll drop names left) (finish.dropAll drop names right) := by
  induction names generalizing left right with
  | nil => exact .done same
  | cons name rest ih => exact (alike same name).andThen fun _ _ dropped => ih dropped

theorem finish_alike {left right : Session} (same : left.seen = right.seen) :
    Alike Same left.finish right.finish := by
  refine (disconnect_alike same).andThen fun first second disconnected => ?_
  have lines := congrArg Table.keys (seen_eq_iff.mp disconnected).2.1
  simp only [Table.keys_mapValues] at lines
  rw [lines]
  refine (dropAll_alike dropLines_alike _ disconnected).andThen fun first second dropped => ?_
  have directories := congrArg Table.keys (seen_eq_iff.mp dropped).2.2
  simp only [Table.keys_mapValues] at directories
  rw [directories]
  exact dropAll_alike dropDirectory_alike _ dropped

/-- A whole session, to its end, shows no stale byte. -/
theorem play_alike (session : Session) (script : List Step) :
    Alike (fun first second => first.map Outcome.seen = second.map Outcome.seen)
      (session.play script) (session.play script) :=
  (steps_alike rfl script).andThen fun _ _ stepped =>
    (finish_alike stepped.2).andThen fun _ _ _ => .done stepped.1

end Session

end RemoteTree
