import RemoteTree.Client.Step
import RemoteTree.Proofs.Client.Custody
import RemoteTree.Proofs.Table
import RemoteTree.Server.Script

/-!
# The lifecycle of handles and mounts

What is open after every step of a session is what its readers hold, and the tree is unmounted
when the connection and the last reader are gone. No assumption is made about the server.
-/

set_option autoImplicit false

namespace RemoteTree

/-- Is the step a request made past the connection? -/
def Step.isRequest : Step → Bool
  | .request _ => true
  | _ => false

namespace Session

open Client (Guarded Keeps)

/-- The handles of the readers in use. -/
def held (session : Session) : List Handle :=
  session.lines.map (fun entry => entry.2.handle) ++
    session.directories.map fun entry => entry.2.handle

/-- No two readers of a kind have the same name. -/
structure Unique (session : Session) : Prop where
  lines : session.lines.keys.Nodup
  directories : session.directories.keys.Nodup

/-- What is open when, besides the files of the readers, some others are open. -/
def custodyWith (session : Session) (others : Multiset Handle) : Custody :=
  ⟨others + session.held, !session.isOver⟩

/-- What is open between two steps. -/
def custody (session : Session) : Custody := session.custodyWith 0

/-- The custody is that of the session, whose readers have names of their own. -/
structure Accounts (session : Session) (custody : Custody) : Prop where
  same : custody = session.custody
  unique : session.Unique

variable {session : Session}

theorem held_of_isOver (ended : session.isOver = true) : session.held = [] := by
  simp only [isOver, Bool.and_eq_true, List.isEmpty_iff] at ended
  simp [held, ended.1.2, ended.2]

private theorem not_over_of_connection {connection : Connection}
    (connected : session.connection = some connection) : session.isOver = false := by
  simp [isOver, connected]

private theorem not_over_of_lines {name : String} {reader : LineReader}
    (found : Table.find? name session.lines = some reader) : session.isOver = false := by
  cases lines : session.lines with
  | nil => simp [lines] at found
  | cons => simp [isOver, lines]

private theorem not_over_of_directories {name : String} {reader : DirectoryReader}
    (found : Table.find? name session.directories = some reader) : session.isOver = false := by
  cases directories : session.directories with
  | nil => simp [directories] at found
  | cons => simp [isOver, directories]

private theorem Unique.held_lines (unique : session.Unique) {name : String} {reader : LineReader}
    (found : Table.find? name session.lines = some reader) :
    session.held.Perm
      (reader.handle :: { session with lines := Table.erase name session.lines }.held) :=
  ((Table.perm_of_find? unique.lines found).map fun entry => entry.2.handle).append_right _

private theorem Unique.held_directories (unique : session.Unique) {name : String}
    {reader : DirectoryReader} (found : Table.find? name session.directories = some reader) :
    session.held.Perm
      (reader.handle ::
        { session with directories := Table.erase name session.directories }.held) :=
  (((Table.perm_of_find? unique.directories found).map fun entry => entry.2.handle).append_left
    _).trans List.perm_middle

private theorem Unique.eraseLines (unique : session.Unique) (name : String) :
    { session with lines := Table.erase name session.lines }.Unique :=
  ⟨Table.nodup_keys_erase name unique.lines, unique.directories⟩

private theorem Unique.eraseDirectory (unique : session.Unique) (name : String) :
    { session with directories := Table.erase name session.directories }.Unique :=
  ⟨unique.lines, Table.nodup_keys_erase name unique.directories⟩

/-! ## Dropping -/

/-- Where nothing keeps the tree mounted nothing may be open besides. -/
theorem unmountIfOver_guarded (session : Session) {others : Multiset Handle}
    (last : session.isOver = true → others = 0) :
    session.unmountIfOver.Guarded ⟨others + session.held, true⟩ fun left custody =>
      left = session ∧ custody = session.custodyWith others := by
  unfold unmountIfOver
  split
  · next ended =>
    refine ⟨⟨rfl, nofun, fun _ => by simp [last ended, held_of_isOver ended]⟩, fun _ => ⟨rfl, ?_⟩⟩
    simp [Custody.after, custodyWith, ended]
  · next live => exact ⟨rfl, by simp [custodyWith, live]⟩

/-- Closing the file of a reader takes the reader out of what is held. -/
theorem release_guarded {left : Session} {handle : Handle} {others : Multiset Handle}
    (live : session.isOver = false) (held : session.held.Perm (handle :: left.held))
    (last : left.isOver = true → others = 0) :
    (Client.ask (.closeFile handle) fun _ => left.unmountIfOver).Guarded
      (session.custodyWith others) fun after custody =>
        after = left ∧ custody = left.custodyWith others := by
  have taken : session.custodyWith others = Custody.taking ⟨others + left.held, true⟩ handle := by
    simp only [custodyWith, Custody.taking, live, Bool.not_false, Custody.mk.injEq, and_true]
    rw [Multiset.coe_eq_coe.mpr held, ← Multiset.cons_coe, Multiset.add_cons]
  rw [taken]
  refine ⟨(Custody.holds_taking rfl handle).allows rfl, fun reply => ?_⟩
  rw [Custody.after_close]
  exact left.unmountIfOver_guarded last

private theorem dropLines_guarded (unique : session.Unique) (name : String)
    {others : Multiset Handle} (last : session.connection = none → others = 0) :
    (session.dropLines name).Guarded (session.custodyWith others) fun left custody =>
      left = { session with lines := Table.erase name session.lines } ∧
        custody = left.custodyWith others := by
  unfold dropLines
  split
  · next found =>
    refine (release_guarded (not_over_of_lines found) (unique.held_lines found) ?_).mono ?_
    · intro ended
      simp only [isOver, Bool.and_eq_true, Option.isNone_iff_eq_none] at ended
      exact last ended.1.1
    · rintro _ custody ⟨rfl, same⟩
      exact ⟨rfl, same⟩
  · next absent =>
    exact ⟨by rw [Table.erase_of_find?_none absent], rfl⟩

private theorem dropDirectory_guarded (unique : session.Unique) (name : String)
    {others : Multiset Handle} (last : session.connection = none → others = 0) :
    (session.dropDirectory name).Guarded (session.custodyWith others) fun left custody =>
      left = { session with directories := Table.erase name session.directories } ∧
        custody = left.custodyWith others := by
  unfold dropDirectory
  split
  · next found =>
    refine (release_guarded (not_over_of_directories found) (unique.held_directories found)
      ?_).mono ?_
    · intro ended
      simp only [isOver, Bool.and_eq_true, Option.isNone_iff_eq_none] at ended
      exact last ended.1.1
    · rintro _ custody ⟨rfl, same⟩
      exact ⟨rfl, same⟩
  · next absent =>
    exact ⟨by rw [Table.erase_of_find?_none absent], rfl⟩

theorem disconnect_guarded (session : Session) :
    session.disconnect.Guarded session.custody fun left custody =>
      left = { session with connection := none } ∧ custody = left.custody := by
  unfold disconnect
  split
  · next connection connected =>
    have mounted : session.custody =
        ⟨0 + ({ session with connection := none } : Session).held, true⟩ := by
      simp [custody, custodyWith, not_over_of_connection connected, held]
    rw [mounted]
    refine (unmountIfOver_guarded _ fun _ => rfl).mono ?_
    rintro _ custody ⟨rfl, same⟩
    exact ⟨rfl, same⟩
  · next absent => exact ⟨by cases session; cases absent; rfl, rfl⟩

/-! ## Steps -/

private theorem withConnection_guarded (unique : session.Unique)
    {next : Connection → Client (Outcome × Session)}
    (guarded : ∀ connection, session.connection = some connection →
      (next connection).Guarded session.custody fun result => result.2.Accounts) :
    (session.withConnection next).Guarded session.custody fun result => result.2.Accounts := by
  unfold withConnection
  split
  · next connection connected => exact guarded connection connected
  · exact ⟨rfl, unique⟩

private theorem mounted_of_connection {connection : Connection}
    (connected : session.connection = some connection) : session.custody.mounted = true := by
  simp [custody, custodyWith, not_over_of_connection connected]

private theorem operation_guarded {Result : Type} (unique : session.Unique)
    (outcome : Result → Outcome) {program : Connection → Client Result}
    (keeps : ∀ connection custody, custody.mounted = true → (program connection).Keeps custody) :
    (session.operation outcome program).Guarded session.custody fun result =>
      result.2.Accounts :=
  withConnection_guarded unique fun connection connected =>
    (keeps connection session.custody (mounted_of_connection connected)).andThen fun _ =>
      ⟨rfl, unique⟩

private theorem withLines_guarded {Result : Type} (unique : session.Unique) (name : String)
    {program : LineReader → Client (Result × LineReader)} (outcome : Result → LineReader → Outcome)
    (guarded : ∀ (reader : LineReader) (custody : Custody), custody.Holds reader.handle →
      (program reader).Guarded custody fun result last =>
        result.2.handle = reader.handle ∧ last = custody) :
    (session.withLines name program outcome).Guarded session.custody fun result =>
      result.2.Accounts := by
  unfold withLines
  split
  · exact ⟨rfl, unique⟩
  · next reader found =>
    have live := not_over_of_lines found
    have holds : session.custody.Holds reader.handle := by
      refine ⟨by simp [custody, custodyWith, live], ?_⟩
      simp only [custody, custodyWith, Multiset.zero_add, Multiset.mem_coe]
      exact (unique.held_lines found).mem_iff.mpr List.mem_cons_self
    refine (guarded reader session.custody holds).andThen fun result last ends => ?_
    obtain ⟨same, rfl⟩ := ends
    refine ⟨?_, ⟨Table.nodup_keys_insert name _ unique.lines, unique.directories⟩⟩
    have images := Table.map_insert_of_find? found same
    simp only [custody, custodyWith, held, images, live]
    simp [isOver]

private theorem withDirectory_guarded {Result : Type} (unique : session.Unique) (name : String)
    {program : DirectoryReader → Client (Result × DirectoryReader)}
    (outcome : Result → DirectoryReader → Outcome)
    (guarded : ∀ (reader : DirectoryReader) (custody : Custody), custody.Holds reader.handle →
      (program reader).Guarded custody fun result last =>
        result.2.handle = reader.handle ∧ last = custody) :
    (session.withDirectory name program outcome).Guarded session.custody fun result =>
      result.2.Accounts := by
  unfold withDirectory
  split
  · exact ⟨rfl, unique⟩
  · next reader found =>
    have live := not_over_of_directories found
    have holds : session.custody.Holds reader.handle := by
      refine ⟨by simp [custody, custodyWith, live], ?_⟩
      simp only [custody, custodyWith, Multiset.zero_add, Multiset.mem_coe]
      exact (unique.held_directories found).mem_iff.mpr List.mem_cons_self
    refine (guarded reader session.custody holds).andThen fun result last ends => ?_
    obtain ⟨same, rfl⟩ := ends
    refine ⟨?_, ⟨unique.lines, Table.nodup_keys_insert name _ unique.directories⟩⟩
    have images := Table.map_insert_of_find? found same
    simp only [custody, custodyWith, held, images, live]
    simp [isOver]

private theorem openLines_guarded (unique : session.Unique) {connection : Connection}
    (connected : session.connection = some connection) (name path : String) :
    (session.openLines connection name path).Guarded session.custody fun result =>
      result.2.Accounts := by
  refine (connection.openReader_guarded (mounted_of_connection connected) path
    LineReader.start).andThen fun opened last ends => ?_
  rcases ends with ⟨error, rfl, rfl⟩ | ⟨handle, rfl, rfl⟩
  · exact ⟨rfl, unique⟩
  · have besides : session.custody.taking handle = session.custodyWith {handle} := by
      simp [custody, custodyWith, Custody.taking, ← Multiset.singleton_add]
    rw [besides]
    refine (dropLines_guarded unique name fun none => by simp [none] at connected).andThen
      fun left last ends => ?_
    obtain ⟨rfl, rfl⟩ := ends
    have absent : Table.find? name (Table.erase name session.lines) = none := by
      simp [Table.find?_erase]
    refine ⟨?_, ⟨Table.nodup_keys_insert name _ (unique.eraseLines name).lines,
      unique.directories⟩⟩
    rw [Table.insert_of_find?_none absent]
    simp only [custody, custodyWith, held, isOver, connected, LineReader.start, Custody.mk.injEq]
    refine ⟨?_, by simp⟩
    simp only [List.map_append, List.map_cons, List.map_nil, Multiset.zero_add,
      ← Multiset.coe_singleton, Multiset.coe_add, Multiset.coe_eq_coe, List.singleton_append,
      List.append_assoc]
    exact List.perm_middle.symm

private theorem openDirectory_guarded (unique : session.Unique) {connection : Connection}
    (connected : session.connection = some connection) (name path : String) :
    (session.openDirectory connection name path).Guarded session.custody fun result =>
      result.2.Accounts := by
  refine (connection.openReader_guarded (mounted_of_connection connected) path
    DirectoryReader.start).andThen fun opened last ends => ?_
  rcases ends with ⟨error, rfl, rfl⟩ | ⟨handle, rfl, rfl⟩
  · exact ⟨rfl, unique⟩
  · have besides : session.custody.taking handle = session.custodyWith {handle} := by
      simp [custody, custodyWith, Custody.taking, ← Multiset.singleton_add]
    rw [besides]
    refine (dropDirectory_guarded unique name fun none => by simp [none] at connected).andThen
      fun left last ends => ?_
    obtain ⟨rfl, rfl⟩ := ends
    have absent : Table.find? name (Table.erase name session.directories) = none := by
      simp [Table.find?_erase]
    refine ⟨?_, ⟨unique.lines,
      Table.nodup_keys_insert name _ (unique.eraseDirectory name).directories⟩⟩
    rw [Table.insert_of_find?_none absent]
    simp only [custody, custodyWith, held, isOver, connected, DirectoryReader.start,
      Custody.mk.injEq]
    refine ⟨?_, by simp⟩
    simp only [List.map_append, List.map_cons, List.map_nil, Multiset.zero_add,
      ← Multiset.coe_singleton, Multiset.coe_add, Multiset.coe_eq_coe, List.singleton_append]
    have swapped (others : List Handle) : ([handle] ++ others).Perm (others ++ [handle]) :=
      List.perm_append_comm
    exact List.perm_middle.symm.trans ((swapped _).append_left _)

/-- Every step but a request past the connection leaves open what the readers hold. -/
theorem step_guarded (unique : session.Unique) {step : Step} (ordinary : step.isRequest = false) :
    (session.step step).Guarded session.custody fun result => result.2.Accounts := by
  cases step with
  | read path =>
      exact operation_guarded unique _ fun connection _ mounted =>
        connection.read_keeps mounted path
  | write path data =>
      exact operation_guarded unique _ fun connection _ mounted =>
        connection.write_keeps mounted path data
  | create path data =>
      exact operation_guarded unique _ fun connection _ mounted =>
        connection.create_keeps mounted path data
  | remove path =>
      exact operation_guarded unique _ fun connection _ mounted =>
        connection.remove_keeps mounted path
  | stat path =>
      exact operation_guarded unique _ fun connection _ mounted =>
        connection.stat_keeps mounted path
  | openLines name path =>
      exact withConnection_guarded unique fun connection connected =>
        (openLines_guarded unique connected name path).andThen fun _ _ accounts => accounts
  | openDirectory name path =>
      exact withConnection_guarded unique fun connection connected =>
        (openDirectory_guarded unique connected name path).andThen fun _ _ accounts => accounts
  | limitBuffers bytes =>
      refine withConnection_guarded unique fun connection connected =>
        ⟨?_, unique.lines, unique.directories⟩
      simp [custody, custodyWith, held, limitBuffers, isOver]
  | disconnect =>
      refine withConnection_guarded unique fun connection connected => ?_
      refine (disconnect_guarded session).andThen fun left last ends => ?_
      obtain ⟨rfl, same⟩ := ends
      exact ⟨same, unique.lines, unique.directories⟩
  | advance name deadline =>
      rw [step]
      exact withLines_guarded unique name _ fun reader custody holds =>
        (LineReader.advance_guarded holds deadline).andThen fun _ _ ends => ends
  | takeLines name count =>
      exact withLines_guarded unique name _ fun reader custody holds =>
        LineReader.take_guarded holds count
  | nextLine name =>
      exact withLines_guarded unique name _ fun reader custody holds =>
        LineReader.next_guarded holds
  | nextEntry name =>
      exact withDirectory_guarded unique name _ fun reader custody holds =>
        DirectoryReader.next_guarded holds
  | takeEntries name count =>
      exact withDirectory_guarded unique name _ fun reader custody holds =>
        DirectoryReader.take_guarded holds count
  | drop name =>
      refine (dropLines_guarded unique name fun _ => rfl).andThen fun left last ends => ?_
      obtain ⟨rfl, rfl⟩ := ends
      refine (dropDirectory_guarded (unique.eraseLines name) name fun _ => rfl).andThen
        fun left last ends => ?_
      obtain ⟨rfl, same⟩ := ends
      exact ⟨same, (unique.eraseLines name).eraseDirectory name⟩
  | request => cases ordinary

private theorem steps_guarded (unique : session.Unique) {script : List Step}
    (ordinary : ∀ step ∈ script, step.isRequest = false) :
    (session.steps script).Guarded session.custody fun result => result.2.Accounts := by
  induction script generalizing session with
  | nil => exact ⟨rfl, unique⟩
  | cons step rest ih =>
      refine (step_guarded unique (ordinary step List.mem_cons_self)).andThen
        fun result last accounts => ?_
      rw [accounts.same]
      exact (ih accounts.unique fun step member =>
        ordinary step (List.mem_cons_of_mem _ member)).andThen fun _ _ accounts => accounts

/-! ## The end -/

private theorem dropAllLines_guarded (unique : session.Unique) (names : List String) :
    (finish.dropAll dropLines names session).Guarded session.custody fun left custody =>
      left.Accounts custody ∧ left.connection = session.connection ∧
        left.directories = session.directories ∧
        left.lines = session.lines.filter fun entry => entry.1 ∉ names := by
  induction names generalizing session with
  | nil => exact ⟨⟨rfl, unique⟩, rfl, rfl, by simp⟩
  | cons name rest ih =>
      refine (dropLines_guarded unique name fun _ => rfl).andThen fun left last ends => ?_
      obtain ⟨rfl, rfl⟩ := ends
      refine (ih (unique.eraseLines name)).mono fun left custody ends => ?_
      obtain ⟨accounts, connection, directories, lines⟩ := ends
      exact ⟨accounts, connection, directories, lines.trans (Table.filter_erase ..)⟩

private theorem dropAllDirectories_guarded (unique : session.Unique) (names : List String) :
    (finish.dropAll dropDirectory names session).Guarded session.custody fun left custody =>
      left.Accounts custody ∧ left.connection = session.connection ∧
        left.lines = session.lines ∧
        left.directories = session.directories.filter fun entry => entry.1 ∉ names := by
  induction names generalizing session with
  | nil => exact ⟨⟨rfl, unique⟩, rfl, rfl, by simp⟩
  | cons name rest ih =>
      refine (dropDirectory_guarded unique name fun _ => rfl).andThen fun left last ends => ?_
      obtain ⟨rfl, rfl⟩ := ends
      refine (ih (unique.eraseDirectory name)).mono fun left custody ends => ?_
      obtain ⟨accounts, connection, lines, directories⟩ := ends
      exact ⟨accounts, connection, lines, directories.trans (Table.filter_erase ..)⟩

private theorem filter_inOrder_keys {Reader : Type} (readers : Table String Reader) :
    readers.filter (fun entry => entry.1 ∉ finish.inOrder readers.keys) = [] := by
  refine List.filter_eq_nil_iff.mpr fun entry member => ?_
  have named : entry.1 ∈ readers.keys := List.mem_map_of_mem member
  simpa [finish.inOrder] using named

private theorem finish_guarded (unique : session.Unique) :
    session.finish.Guarded session.custody fun left custody =>
      left.Accounts custody ∧ left.isOver = true := by
  refine (disconnect_guarded session).andThen fun left last ends => ?_
  obtain ⟨rfl, rfl⟩ := ends
  have disconnectedUnique : { session with connection := none }.Unique :=
    ⟨unique.lines, unique.directories⟩
  refine (dropAllLines_guarded disconnectedUnique _).andThen fun left last ends => ?_
  obtain ⟨accounts, disconnected, directories, lines⟩ := ends
  rw [accounts.same]
  refine (dropAllDirectories_guarded accounts.unique _).mono fun last custody ends => ?_
  obtain ⟨accounts, connection, others, rest⟩ := ends
  refine ⟨accounts, ?_⟩
  rw [filter_inOrder_keys] at lines rest
  simp [isOver, connection, disconnected, others, lines, rest]

/-! ## Whole runs -/

/-- How a session has dealt with its files and its mount so far. -/
structure Handled (session : Session) (exchanges : List Exchange) : Prop where
  orderly : Orderly exchanges
  /-- What has been opened has been closed, or is held by the readers. -/
  held : (opened exchanges).Perm (closed exchanges ++ session.held)
  mounted : session.isOver = false → StaysMounted exchanges
  unmounted : session.isOver = true → EndsUnmounted exchanges

theorem handled_of_permits {exchanges : List Exchange}
    (permitted : Custody.Permits ⟨0, true⟩ exchanges)
    (same : Custody.afterAll ⟨0, true⟩ exchanges = session.custody) :
    session.Handled exchanges := by
  have unmounts := permitted.unmounts rfl
  rw [same] at unmounts
  refine ⟨?_, ?_, fun live => ?_, fun ended => ?_⟩
  · rintro before exchange after handle rfl named
    exact permitted.orderly named
  · have balance := permitted.balance
    rw [same] at balance
    simpa only [custody, custodyWith, Multiset.zero_add, Multiset.coe_add,
      Multiset.coe_eq_coe] using balance
  · simpa [custody, custodyWith, live] using unmounts
  · simpa [custody, custodyWith, ended] using unmounts

private theorem steps_append (session : Session) (first rest : List Step) :
    session.steps (first ++ rest) =
      (session.steps first).andThen fun done =>
        (done.2.steps rest).andThen fun ended => .done (done.1 ++ ended.1, ended.2) := by
  induction first generalizing session with
  | nil => exact (Client.andThen_done _).symm
  | cons step first ih =>
      simp only [List.cons_append, steps, ih, Client.andThen_assoc, Client.andThen]

private theorem start_unique (connection : Connection) : (start connection).Unique :=
  ⟨List.nodup_nil, List.nodup_nil⟩

/-- After any steps, on any server, what is open is what the readers hold, and the tree has been
unmounted if and only if the connection and the readers are gone. -/
theorem steps_handled {State : Type} (server : Server State) (state : State)
    (connection : Connection) {script : List Step}
    (ordinary : ∀ step ∈ script, step.isRequest = false) :
    (((start connection).steps script).run server state).1.2.Handled
      (((start connection).steps script).exchanges server state) := by
  obtain ⟨permitted, accounts⟩ :=
    (steps_guarded (start_unique connection) ordinary).permits server state
  exact handled_of_permits permitted accounts.same

/-- Once everything is dropped what was opened has been closed, and the tree is unmounted. -/
theorem play_handled {State : Type} (server : Server State) (state : State)
    (connection : Connection) {script : List Step}
    (ordinary : ∀ step ∈ script, step.isRequest = false) :
    ∃ session : Session, session.isOver = true ∧
      session.Handled (((start connection).play script).exchanges server state) := by
  have guarded : (((start connection).steps script).andThen fun done => done.2.finish).Guarded
      (start connection).custody fun left custody => left.Accounts custody ∧ left.isOver = true :=
    (steps_guarded (start_unique connection) ordinary).andThen fun done last accounts => by
      rw [accounts.same]
      exact finish_guarded accounts.unique
  obtain ⟨permitted, accounts, ended⟩ := guarded.permits server state
  refine ⟨_, ended, ?_⟩
  have same : ((start connection).play script).exchanges server state =
      (((start connection).steps script).andThen fun done => done.2.finish).exchanges
        server state := by
    simp only [play, Client.exchanges_andThen, Client.exchanges, List.append_nil]
  rw [same]
  exact handled_of_permits permitted accounts.same

/-- The run of some steps begins as the run of the first of them does. -/
theorem steps_prefix_play {State : Type} (server : Server State) (state : State)
    (session : Session) (first rest : List Step) :
    (session.steps first).exchanges server state <+:
      (session.play (first ++ rest)).exchanges server state := by
  simp only [play, steps_append, Client.exchanges_andThen, List.append_assoc]
  exact List.prefix_append _ _

/-- On every server, files are used only while they are open, after every step what is open is
what the readers hold, and the tree is unmounted once, by the last request, when the connection and
the last reader are dropped. -/
theorem play_releases {State : Type} (server : Server State) (state : State)
    (connection : Connection) (script : List Step)
    (ordinary : ∀ step ∈ script, step.isRequest = false) :
    (∀ first rest, script = first ++ rest →
      ((start connection).steps first).exchanges server state <+:
          ((start connection).play script).exchanges server state ∧
        (((start connection).steps first).run server state).1.2.Handled
          (((start connection).steps first).exchanges server state)) ∧
      Orderly (((start connection).play script).exchanges server state) ∧
      (opened (((start connection).play script).exchanges server state)).Perm
        (closed (((start connection).play script).exchanges server state)) ∧
      EndsUnmounted (((start connection).play script).exchanges server state) := by
  obtain ⟨session, ended, handled⟩ := play_handled server state connection ordinary
  refine ⟨?_, handled.orderly, ?_, handled.unmounted ended⟩
  · rintro first rest rfl
    exact ⟨steps_prefix_play server state _ first rest,
      steps_handled server state connection fun step member =>
        ordinary step (List.mem_append_left rest member)⟩
  · simpa [held_of_isOver ended] using handled.held

/-- A reader that outlives its connection and a refused read, over a server that claims more than
it was asked for. -/
theorem play_releases_of_overclaimed :
    (∀ step ∈ [Step.openLines "a" "/a", .openLines "b" "/b", .disconnect, .nextLine "a",
        .drop "b"], step.isRequest = false) ∧
      Orderly (((start ⟨"mem!test", none⟩).play
        [.openLines "a" "/a", .openLines "b" "/b", .disconnect, .nextLine "a",
          .drop "b"]).exchanges Script.server { reads := [⟨[], .ok 1000⟩] }) ∧
      EndsUnmounted (((start ⟨"mem!test", none⟩).play
        [.openLines "a" "/a", .openLines "b" "/b", .disconnect, .nextLine "a",
          .drop "b"]).exchanges Script.server { reads := [⟨[], .ok 1000⟩] }) := by
  have script : ∀ step ∈ [Step.openLines "a" "/a", .openLines "b" "/b", .disconnect,
      .nextLine "a", .drop "b"], step.isRequest = false := by decide
  obtain ⟨_, orderly, _, ends⟩ :=
    play_releases Script.server { reads := [⟨[], .ok 1000⟩] } ⟨"mem!test", none⟩ _ script
  exact ⟨script, orderly, ends⟩

end Session

end RemoteTree
