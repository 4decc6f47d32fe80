import RemoteTree.Proofs.Client.Finite
import RemoteTree.Proofs.Client.Printing
import RemoteTree.Server.Script

/-!
# Listing a directory

A listing is all or nothing. It is printed only when every entry has been read and the directory is
closed: one line for each record, in the order of the names. If an entry fails nothing is printed.
-/

set_option autoImplicit false

namespace RemoteTree

/-! ## Taking all entries -/

namespace Client

section

variable {State Reader Item : Type} {server : Server State}
  {next : Reader → Client (Option Item × Reader)} {stage further : List Item × Reader}
  {state after : State} {log : List Exchange}

private theorem run_takeOnce_ended
    (ran : (takeOnce next stage).run server state = (.ended further, after)) :
    ∃ later, (next stage.2).run server state = ((none, later), after) ∧
      further = (stage.1, later) ∧
      (takeOnce next stage).exchanges server state = (next stage.2).exchanges server state := by
  rcases step : (next stage.2).run server state with ⟨⟨item, later⟩, middle⟩
  rw [takeOnce, run_andThen, step] at ran
  cases item with
  | some item => cases ran
  | none =>
    cases ran
    refine ⟨later, rfl, rfl, ?_⟩
    rw [takeOnce, exchanges_andThen, step]
    exact List.append_nil _

private theorem prefix_of_takes
    (takes : Loops server (takeOnce next) stage state log further after) :
    stage.1 <+: further.1 := by
  induction takes with
  | ended ran =>
    obtain ⟨later, -, rfl, -⟩ := run_takeOnce_ended ran
    exact List.prefix_rfl
  | again ran rest ih =>
    obtain ⟨item, later, -, rfl, -⟩ := run_takeOnce_again ran
    exact (List.prefix_append _ _).trans ih

end

end Client

namespace DirectoryReader

open Client (Loops takeOnce)

variable {State : Type} {server : Server State} {reader later : DirectoryReader}
  {state after : State} {log : List Exchange}

/-- Entries that are all records, or records and a last one that failed, with what they come to. -/
inductive Amounts : List (Except ClientError Stat) → Except ClientError (List Stat) → Prop where
  | whole (stats : List Stat) : Amounts (stats.map .ok) (.ok stats)
  | failed (stats : List Stat) (error : ClientError) :
      Amounts (stats.map .ok ++ [.error error]) (.error error)

private theorem Amounts.cons {items : List (Except ClientError Stat)}
    {result : Except ClientError (List Stat)} (amounts : Amounts items result) (stat : Stat) :
    ∃ result, Amounts (.ok stat :: items) result := by
  cases amounts with
  | whole stats => exact ⟨_, .whole (stat :: stats)⟩
  | failed stats error => exact ⟨_, .failed (stat :: stats) error⟩

private theorem Sound.next (sound : reader.Sound) {entry : Option (Except ClientError Stat)}
    (ran : reader.next.run server state = ((entry, later), after)) :
    later.Sound ∧ later.handle = reader.handle ∧ later.path = reader.path ∧
      entry.toList ++ later.outstanding = reader.outstanding ++
        (reader.next.exchanges server state).flatMap (entries reader.path) ∧
      (∀ exchange ∈ reader.next.exchanges server state,
        exchange.request = .readFrom reader.handle reader.buffer none) ∧
      ((∀ stat, entry ≠ some (.ok stat)) → later.finished = true) := by
  obtain ⟨lawful, kept⟩ := turn_lawful sound server state
  have conserved := lawful.conserves sound
  have stops := lawful.stops
  have handle := lawful.handle
  have path := lawful.path
  simp only [turn, ran] at kept conserved stops handle path
  refine ⟨kept, handle, path, conserved, fun exchange member => ?_, stops⟩
  cases live : reader.finished with
  | true =>
    have silent : reader.next.exchanges server state = [] := (lawful.ended live).2.1
    rw [silent] at member
    cases member
  | false =>
    by_cases empty : reader.pending = []
    · obtain ⟨only, -, exchanges, request, -⟩ := lawful.reads live empty
      change reader.next.exchanges server state = [only] at exchanges
      rw [exchanges] at member
      cases List.mem_singleton.mp member
      exact request
    · have silent : reader.next.exchanges server state = [] := (lawful.pending live empty).1
      rw [silent] at member
      cases member

private theorem takes_of_finished (ended : reader.finished = true)
    {taken : List (Except ClientError Stat)}
    {further : List (Except ClientError Stat) × DirectoryReader}
    (takes : Loops server (takeOnce next) (taken, reader) state log further after) :
    log = [] ∧ further = (taken, reader) := by
  have none : takeOnce next (taken, reader) = .done (.ended (taken, reader)) := by
    rw [takeOnce, next_of_finished ended]
    rfl
  obtain ⟨log, same, -⟩ := (Loops.of_done none state).unique takes
  exact ⟨log, same⟩

private theorem takes_amounts {taken : List (Except ClientError Stat)}
    {further : List (Except ClientError Stat) × DirectoryReader} (sound : reader.Sound)
    (takes : Loops server (takeOnce next) (taken, reader) state log further after) :
    ∃ items result, further.1 = taken ++ items ∧ Amounts items result ∧
      items = reader.outstanding ++ log.flatMap (entries reader.path) ∧
      ∀ exchange ∈ log, ∃ buffer, exchange.request = .readFrom reader.handle buffer none := by
  -- The induction is on the turns. A failed entry ends the reader, so nothing is taken after it.
  generalize stageIs : (taken, reader) = stage at takes
  induction takes generalizing taken reader with
  | ended ran =>
    subst stageIs
    obtain ⟨later, step, rfl, exchanges⟩ := Client.run_takeOnce_ended ran
    obtain ⟨-, -, -, conserved, requests, stops⟩ := sound.next step
    have ended : later.finished = true := stops fun stat same => by cases same
    rw [outstanding_of_finished ended] at conserved
    rw [exchanges]
    refine ⟨[], _, (List.append_nil _).symm, .whole [], conserved, fun exchange member => ?_⟩
    exact ⟨_, requests exchange member⟩
  | @again _ _ state _ _ log _ ran rest ih =>
    subst stageIs
    obtain ⟨item, later, step, rfl, exchanges⟩ := Client.run_takeOnce_again ran
    obtain ⟨kept, handle, path, conserved, requests, stops⟩ := sound.next step
    obtain ⟨items, result, all, amounts, same, reads⟩ := ih kept rfl
    rw [path] at same
    rw [exchanges]
    have whole : item :: items = reader.outstanding ++
        (reader.next.exchanges server state ++ log).flatMap (entries reader.path) := by
      rw [List.flatMap_append, ← List.append_assoc, ← conserved, List.append_assoc, ← same]
      rfl
    have asked : ∀ exchange ∈ reader.next.exchanges server state ++ log,
        ∃ buffer, exchange.request = .readFrom reader.handle buffer none := by
      intro exchange member
      rcases List.mem_append.mp member with here | there
      · exact ⟨_, requests exchange here⟩
      · exact handle ▸ reads exchange there
    rw [List.append_assoc] at all
    cases item with
    | ok stat =>
      obtain ⟨result, amounts⟩ := amounts.cons stat
      exact ⟨.ok stat :: items, result, all, amounts, whole, asked⟩
    | error error =>
      have ended : later.finished = true := stops fun stat same => by cases same
      obtain ⟨-, last⟩ := takes_of_finished ended rest
      rw [last] at all
      have none : items = [] := by simpa using all
      subst none
      exact ⟨[.error error], _, by rw [last], .failed [] error, whole, asked⟩

private theorem takes_of_start {handle : Handle} {path : String}
    {further : List (Except ClientError Stat) × DirectoryReader}
    (takes : Loops server (takeOnce next) ([], start handle path) state log further after) :
    further.1 = log.flatMap (entries path) ∧ (∃ result, Amounts further.1 result) ∧
      ∀ exchange ∈ log, ∃ buffer, exchange.request = .readFrom handle buffer none := by
  have sound := sound_start handle path
  obtain ⟨items, result, all, amounts, same, asked⟩ := takes_amounts sound takes
  rw [outstanding_of_empty sound rfl, List.nil_append] at same
  rw [List.nil_append] at all
  exact ⟨all.trans same, ⟨result, all ▸ amounts⟩, asked⟩

private theorem take_succ (count : Nat) (stage : List (Except ClientError Stat) × DirectoryReader) :
    take.loop (count + 1) stage.1.reverse stage.2 =
      (takeOnce next stage).andThen
        (Client.Turned.follow fun stage => take.loop count stage.1.reverse stage.2) := by
  rw [take.loop, takeOnce, Client.andThen_assoc]
  congr 1
  funext stepped
  obtain ⟨entry, later⟩ := stepped
  cases entry with
  | none => simp [Client.andThen, Client.Turned.follow]
  | some entry => simp [Client.andThen, Client.Turned.follow]

/-- To take a number of entries is to take all of them, if there turn out to be fewer. -/
theorem takes_of_run {count : Nat}
    (few : ((reader.take count).run server state).1.1.length < count) :
    Loops server (takeOnce next) ([], reader) state ((reader.take count).exchanges server state)
      ((reader.take count).run server state).1 ((reader.take count).run server state).2 := by
  refine Loops.of_fuel
    (fun count (stage : List (Except ClientError Stat) × DirectoryReader) =>
      take.loop count stage.1.reverse stage.2)
    (fun count stage state =>
      ((take.loop count stage.1.reverse stage.2).run server state).1.1.length <
        stage.1.length + count)
    take_succ ?_ ?_ ?_
  · intro stage state few
    simp [take.loop, Client.run] at few
  · intro count stage state onward after few ran
    rw [take_succ, Client.run_andThen, ran] at few
    obtain ⟨item, later, -, rfl, -⟩ := Client.run_takeOnce_again ran
    change ((take.loop count (stage.1 ++ [item]).reverse later).run server after).1.1.length <
      stage.1.length + (count + 1) at few
    rw [List.length_append, List.length_singleton]
    dsimp only
    omega
  · rw [take] at few
    exact Nat.lt_of_lt_of_eq few (Nat.zero_add count).symm

/-- A number of entries that is larger than what there is to take takes all. -/
theorem run_take {count : Nat} {further : List (Except ClientError Stat) × DirectoryReader}
    (takes : Loops server (takeOnce next) ([], reader) state log further after)
    (few : further.1.length < count) :
    (reader.take count).exchanges server state = log ∧
      (reader.take count).run server state = (further, after) := by
  have loops : Loops server (takeOnce next) ([], reader) state
      ((reader.take count).exchanges server state) ((reader.take count).run server state).1
      ((reader.take count).run server state).2 := by
    -- The turns that are left are enough for what the loop still takes.
    refine Loops.of_fuel
      (fun count (stage : List (Except ClientError Stat) × DirectoryReader) =>
        take.loop count stage.1.reverse stage.2)
      (fun count stage state => ∃ log further after,
        Loops server (takeOnce next) stage state log further after ∧
          further.1.length < stage.1.length + count)
      take_succ ?_ ?_ ⟨log, further, after, takes, by simpa using few⟩
    · rintro stage state ⟨log, further, after, takes, few⟩
      have more := (Client.prefix_of_takes takes).length_le
      omega
    · rintro count stage state onward middle ⟨log, further, after, takes, few⟩ ran
      cases takes with
      | ended other => cases other.symm.trans ran
      | again other rest =>
        cases other.symm.trans ran
        obtain ⟨item, later, -, rfl, -⟩ := Client.run_takeOnce_again ran
        refine ⟨_, _, _, rest, ?_⟩
        rw [List.length_append, List.length_singleton]
        omega
  obtain ⟨same, result, left⟩ := takes.unique loops
  exact ⟨same, Prod.ext result left⟩

end DirectoryReader

/-! ## The order of the names -/

namespace Stat

def inOrder (stats : List Stat) : List Stat :=
  stats.mergeSort fun left right => Utf8.ordered left.name right.name

private theorem inOrder_perm (stats : List Stat) :
    (inOrder stats).Perm stats := List.mergeSort_perm _ _

private theorem inOrder_pairwise (stats : List Stat) :
    (inOrder stats).Pairwise fun before after => Utf8.ordered before.name after.name = true := by
  apply List.pairwise_mergeSort
  · exact fun first second third => Utf8.ordered_trans first.name second.name third.name
  · exact fun first second => Utf8.ordered_total first.name second.name

/-- Records of one name stay in their order. -/
theorem filter_inOrder (stats : List Stat) (name : String) :
    (inOrder stats).filter (·.name = name) = stats.filter (·.name = name) := by
  have alike : (stats.filter (·.name = name)).Pairwise fun before after =>
      Utf8.ordered before.name after.name = true := by
    apply List.pairwise_of_forall_mem_list
    intro first here second there
    have firstNamed : first.name = name := by simpa using (List.mem_filter.mp here).2
    have secondNamed : second.name = name := by simpa using (List.mem_filter.mp there).2
    rw [firstNamed, secondNamed]
    simpa using Utf8.ordered_total name name
  have kept : (stats.filter (·.name = name)).Sublist (inOrder stats) := by
    apply List.sublist_mergeSort
    · exact fun first second third => Utf8.ordered_trans first.name second.name third.name
    · exact fun first second => Utf8.ordered_total first.name second.name
    · exact alike
    · exact List.filter_sublist
  have among := kept.filter (·.name = name)
  rw [List.filter_filter] at among
  simp only [Bool.and_self] at among
  exact (among.eq_of_length ((inOrder_perm stats).filter _).length_eq.symm).symm

def headText (stat : Stat) : String :=
  stat.modeText ++ " " ++ stat.owner ++ " " ++ stat.group ++ " " ++ lengthText stat.length ++
    " " ++ stat.timeText ++ " "

/-- The line of a record in a listing: the name, with a slash behind that of a directory. -/
def line (long : Bool) (stat : Stat) : String :=
  (if long then stat.headText else "") ++
    (stat.name ++ if stat.mode &&& directoryMode ≠ 0 then "/" else "")

private theorem displayName_eq (stat : Stat) :
    stat.displayName = stat.name ++ if stat.mode &&& directoryMode ≠ 0 then "/" else "" := by
  unfold displayName isDirectory
  by_cases directory : stat.mode &&& directoryMode = 0
  · simp [directory]
  · simp [directory]

private theorem line_eq (long : Bool) (stat : Stat) :
    line long stat = if long then stat.longLine else stat.displayName := by
  rw [line, ← displayName_eq]
  cases long with
  | true => rfl
  | false => exact String.empty_append

end Stat

namespace Console

private theorem printLines_of_unbounded {console : Console} (unbounded : console.room = none)
    (lines : List String) :
    ∃ later, console.printLines lines = (.ok (), later) ∧
      later.printed = console.printed ++ textOf lines := by
  induction lines generalizing console with
  | nil => exact ⟨console, rfl, (List.append_nil _).symm⟩
  | cons line rest ih =>
    obtain ⟨middle, prints, room, printed⟩ := console.printLine_of_unbounded unbounded line
    obtain ⟨later, others, all⟩ := ih room
    refine ⟨later, by rw [printLines, prints]; exact others, ?_⟩
    rw [all, printed, List.append_assoc]
    rfl

end Console

/-! ## The command -/

namespace Command

open Client (Loops takeOnce)
open DirectoryReader (Amounts entries)

/-- Reads all entries of a directory and closes it. -/
def fetch (connection : Connection) (path : String) : Client (Except ClientError (List Stat)) :=
  (connection.openDirectory path).andThen fun opened =>
    match opened with
    | .error error => .done (.error error)
    | .ok reader =>
        (reader.take patience).andThen fun (entries, _) =>
          .ask (.closeFile reader.handle) fun _ => .done (allEntries entries)

/-- What listing a directory prints, by what reading its entries came to. -/
def report (long : Bool) (console : Console) :
    Except ClientError (List Stat) → Except CommandError Unit × Console
  | .error error => (.error (.client error), console)
  | .ok stats => console.printLines (listingOf long stats)

/-- Nothing is printed before the last request has been made. -/
theorem run_list (connection : Connection) (path : String) (long : Bool)
    (input : Except String Bytes) (console : Console) :
    (Command.list path long).run connection input console =
      (fetch connection path).andThen fun fetched => .done (report long console fetched) := by
  rw [run, runIn, runList, Session.openDirectory, fetch, Client.andThen_assoc,
    Client.andThen_assoc, Client.andThen_assoc]
  congr 1
  funext opened
  cases opened with
  | error error => rfl
  | ok reader =>
    change (((reader.take patience).andThen fun taken =>
      (Client.ask (.closeFile reader.handle) fun _ =>
        (Session.start connection).unmountIfOver).andThen fun session =>
          match allEntries taken.1 with
          | .error error => .done ((.error (.client error), console), session)
          | .ok entries => .done (console.printLines (listingOf long entries), session)).andThen
        fun outcome => .done outcome.1) = ((reader.take patience).andThen fun taken =>
      .ask (.closeFile reader.handle) fun _ => .done (allEntries taken.1)).andThen _
    rw [Client.andThen_assoc, Client.andThen_assoc]
    congr 1
    funext taken
    cases allEntries taken.1 with
    | error error => rfl
    | ok stats => rfl

private theorem allEntries_of_amounts {items : List (Except ClientError Stat)}
    {result : Except ClientError (List Stat)} (amounts : Amounts items result) :
    allEntries items = result := by
  cases amounts with
  | whole stats =>
    induction stats with
    | nil => rfl
    | cons stat rest ih =>
      rw [allEntries] at ih
      rw [allEntries, List.map_cons, List.mapM_cons, ih]
      rfl
  | failed stats error =>
    induction stats with
    | nil => rfl
    | cons stat rest ih =>
      rw [allEntries] at ih
      rw [allEntries, List.map_cons, List.cons_append, List.mapM_cons, ih]
      rfl

/-- What reading all entries of a directory comes to when it takes as many steps as it needs: the
directory is opened, its entries are taken, and it is closed. -/
inductive Fetches {State : Type} (server : Server State) (connection : Connection) (path : String)
    (state : State) : List Exchange → Except ClientError (List Stat) → State → Prop where
  | unopened {error : ClientError} {after : State}
      (opens : (connection.openDirectory path).run server state = (.error error, after)) :
      Fetches server connection path state ((connection.openDirectory path).exchanges server state)
        (.error error) after
  | taken {reader : DirectoryReader} {opened after : State} {log : List Exchange}
      {further : List (Except ClientError Stat) × DirectoryReader}
      (opens : (connection.openDirectory path).run server state = (.ok reader, opened))
      (takes : Loops server (takeOnce DirectoryReader.next) ([], reader) opened log further after) :
      Fetches server connection path state
        ((connection.openDirectory path).exchanges server state ++ log ++
          [⟨.closeFile reader.handle, ()⟩])
        (allEntries further.1) (server.answer (.closeFile reader.handle) after).2

/-- How reading all entries of a directory goes: what is opened is closed at the end, and what comes
of it are the entries of the answers to its reads. -/
inductive Fetched (connection : Connection) (path : String) :
    List Exchange → Except ClientError (List Stat) → Prop where
  | refused (source : Refusal) :
      Fetched connection path [⟨.openFile path .read, .error source⟩]
        (.error (.openFile path source))
  | tooLarge {handle : Handle}
      (large : Client.fits connection.bufferLimit handle.transferSize = false) :
      Fetched connection path [⟨.openFile path .read, .ok handle⟩, ⟨.closeFile handle, ()⟩]
        (.error (.allocate path handle.transferSize))
  | read {handle : Handle} {reads : List Exchange} {result : Except ClientError (List Stat)}
      (fits : Client.fits connection.bufferLimit handle.transferSize = true)
      (asked : ∀ exchange ∈ reads, ∃ buffer, exchange.request = .readFrom handle buffer none)
      (amounts : Amounts (reads.flatMap (entries path)) result) :
      Fetched connection path
        (⟨.openFile path .read, .ok handle⟩ :: reads ++ [⟨.closeFile handle, ()⟩]) result

section

variable {State : Type} {server : Server State} {connection : Connection} {path : String}
  {state after : State} {log : List Exchange} {result : Except ClientError (List Stat)}

/-- What opening a directory comes to: a refusal, a buffer that is not allowed, or a reader. -/
theorem openDirectory_cases (connection : Connection) (path : String) (server : Server State)
    (state : State) :
    let opening := connection.openDirectory path
    (∃ source, opening.exchanges server state = [⟨.openFile path .read, .error source⟩] ∧
      (opening.run server state).1 = .error (.openFile path source)) ∨
    ∃ handle : Handle,
      (Client.fits connection.bufferLimit handle.transferSize = false ∧
        opening.exchanges server state =
          [⟨.openFile path .read, .ok handle⟩, ⟨.closeFile handle, ()⟩] ∧
        (opening.run server state).1 = .error (.allocate path handle.transferSize)) ∨
      (Client.fits connection.bufferLimit handle.transferSize = true ∧
        opening.exchanges server state = [⟨.openFile path .read, .ok handle⟩] ∧
        (opening.run server state).1 = .ok (.start handle path)) := by
  intro opening
  rcases answered : server.answer (.openFile path .read) state with ⟨reply, middle⟩
  simp only [opening, Connection.openDirectory, Connection.openReader, Connection.withOpened,
    Client.run, Client.exchanges, answered]
  cases reply with
  | error source => exact .inl ⟨source, rfl, rfl⟩
  | ok handle =>
    refine .inr ⟨handle, ?_⟩
    dsimp only
    cases fits : Client.fits connection.bufferLimit handle.transferSize with
    | false => exact .inl ⟨rfl, rfl, rfl⟩
    | true => exact .inr ⟨rfl, rfl, rfl⟩

private theorem openDirectory_ok {reader : DirectoryReader} {opened : State}
    (opens : (connection.openDirectory path).run server state = (.ok reader, opened)) :
    ∃ handle, reader = .start handle path ∧
      Client.fits connection.bufferLimit handle.transferSize = true ∧
      (connection.openDirectory path).exchanges server state =
        [⟨.openFile path .read, .ok handle⟩] := by
  rcases openDirectory_cases connection path server state with
    ⟨source, -, result⟩ | ⟨handle, ⟨-, -, result⟩ | ⟨fits, exchanges, result⟩⟩
  · rw [opens] at result
    cases result
  · rw [opens] at result
    cases result
  · rw [opens] at result
    cases result
    exact ⟨handle, rfl, fits, exchanges⟩

private theorem openDirectory_error {error : ClientError}
    (opens : (connection.openDirectory path).run server state = (.error error, after)) :
    Fetched connection path ((connection.openDirectory path).exchanges server state)
      (.error error) := by
  rcases openDirectory_cases connection path server state with
    ⟨source, exchanges, result⟩ | ⟨handle, ⟨large, exchanges, result⟩ | ⟨-, -, result⟩⟩
  · rw [opens] at result
    cases result
    rw [exchanges]
    exact .refused source
  · rw [opens] at result
    cases result
    rw [exchanges]
    exact .tooLarge large
  · rw [opens] at result
    cases result

private theorem Fetches.fetched (fetches : Fetches server connection path state log result after) :
    Fetched connection path log result := by
  cases fetches with
  | unopened opens => exact openDirectory_error opens
  | taken opens takes =>
    obtain ⟨handle, rfl, fits, exchanges⟩ := openDirectory_ok opens
    obtain ⟨all, ⟨result, amounts⟩, asked⟩ := DirectoryReader.takes_of_start takes
    rw [exchanges, allEntries_of_amounts amounts]
    exact .read fits asked (all ▸ amounts)

/-- With fewer entries than its patience the command reads all of them. -/
theorem Fetches.run_fetch (fetches : Fetches server connection path state log result after)
    (few : (log.flatMap (entries path)).length < patience) :
    (fetch connection path).exchanges server state = log ∧
      (fetch connection path).run server state = (result, after) := by
  cases fetches with
  | unopened opens =>
    rw [fetch, Client.exchanges_andThen, Client.run_andThen, opens]
    exact ⟨List.append_nil _, rfl⟩
  | @taken reader opened after log further opens takes =>
    obtain ⟨handle, rfl, -, -⟩ := openDirectory_ok opens
    have number : further.1.length < patience := by
      obtain ⟨all, -, -⟩ := DirectoryReader.takes_of_start takes
      rw [List.flatMap_append, List.flatMap_append, ← all] at few
      simp only [List.length_append] at few
      exact Nat.lt_of_le_of_lt (Nat.le_trans (Nat.le_add_left _ _) (Nat.le_add_right _ _)) few
    obtain ⟨asked, taken⟩ := DirectoryReader.run_take takes number
    rw [fetch, Client.exchanges_andThen, Client.run_andThen, opens]
    dsimp only
    rw [Client.exchanges_andThen, Client.run_andThen, asked, taken, List.append_assoc]
    exact ⟨rfl, rfl⟩

end

/-- Listing a directory is all or nothing on every server and on an output without a limit. All
requests are made before anything is printed, and the last of them closes what was opened. If the
directory cannot be opened, its buffer is not allowed, or an entry failed, then nothing is printed,
however many records have been read. Else one line is printed for each of them, in the order of
their names and records of one name as they were read. The command takes as many entries as its
patience at most, so what it does is said for fewer. -/
theorem list_all_or_nothing {State : Type} {server : Server State} {connection : Connection}
    {path : String} {state after : State} {log : List Exchange}
    {result : Except ClientError (List Stat)}
    (fetches : Fetches server connection path state log result after) (long : Bool)
    (input : Except String Bytes) {console : Console} (unbounded : console.room = none) :
    let listing := (Command.list path long).run connection input console
    listing = (fetch connection path).andThen (fun fetched => .done (report long console fetched)) ∧
    ((log.flatMap (entries path)).length < patience →
      listing.exchanges server state = log ∧
        listing.run server state = (report long console result, after)) ∧
    Fetched connection path log result ∧
    (∀ error, result = .error error →
      report long console result = (.error (.client error), console)) ∧
    ∀ stats, result = .ok stats → ∃ (later : Console) (ordered : List Stat),
      report long console result = (.ok (), later) ∧
      later.printed = console.printed ++ Console.textOf (ordered.map (Stat.line long)) ∧
      ordered.Perm stats ∧
      ordered.Pairwise (fun before after => Utf8.ordered before.name after.name = true) ∧
      ∀ name, ordered.filter (·.name = name) = stats.filter (·.name = name) := by
  intro listing
  have parts : listing = _ := run_list connection path long input console
  refine ⟨parts, fun few => ?_, fetches.fetched, ?_, ?_⟩
  · obtain ⟨exchanges, ran⟩ := fetches.run_fetch few
    rw [parts, Client.exchanges_andThen, Client.run_andThen, ran, exchanges]
    exact ⟨List.append_nil _, rfl⟩
  · rintro error rfl
    rfl
  · rintro stats rfl
    obtain ⟨later, prints, printed⟩ :=
      console.printLines_of_unbounded unbounded (listingOf long stats)
    have lines : listingOf long stats = (Stat.inOrder stats).map (Stat.line long) := by
      refine List.map_congr_left fun stat _ => ?_
      rw [Stat.line_eq]
    rw [lines] at printed
    exact ⟨later, Stat.inOrder stats, prints, printed, Stat.inOrder_perm stats,
      Stat.inOrder_pairwise stats, Stat.filter_inOrder stats⟩

/-- A directory that delivers a record and then one byte of another: nothing is printed. -/
theorem list_all_or_nothing_of_cut_record :
    let handle : Handle := ⟨1, 64, 0x80⟩
    let stat : Stat := { (default : Stat) with name := "a" }
    let script : Script := { opens := [.ok handle], reads := [⟨stat.encode ++ [1], .ok 51⟩] }
    let outcome := ((Command.list "/d" false).run ⟨"mem!test", none⟩ (.ok []) {}).run
      Script.server script
    outcome.1 = (.error (.client (.protocol "/d" (.cutRecord ⟨50, 2, 1⟩))), {}) ∧
      outcome.2.requests =
        [.openFile "/d" .read, .readFrom handle (Bytes.zeros 64) none, .closeFile handle] := by
  intro handle stat script outcome
  let opened : Script := { script with opens := [], asked := [.openFile "/d" .read] }
  have opens : (Connection.openDirectory ⟨"mem!test", none⟩ "/d").run Script.server script =
      (.ok (.start handle "/d"), opened) := rfl
  have short : ((DirectoryReader.take 3 (.start handle "/d")).run
      Script.server opened).1.1.length < 3 := by decide +kernel
  have takes := DirectoryReader.takes_of_run short
  have fetches := Fetches.taken opens takes
  obtain ⟨-, whole, -, failed, -⟩ :=
    list_all_or_nothing fetches false (.ok []) (show ({} : Console).room = none from rfl)
  obtain ⟨all, -, -⟩ := DirectoryReader.takes_of_start takes
  obtain ⟨-, ran⟩ := whole (by
    rw [List.flatMap_append, List.flatMap_append, ← all]
    decide +kernel)
  change outcome = _ at ran
  rw [failed (.protocol "/d" (.cutRecord ⟨50, 2, 1⟩)) (by decide +kernel)] at ran
  rw [ran]
  exact ⟨rfl, by decide +kernel⟩

end Command

end RemoteTree
