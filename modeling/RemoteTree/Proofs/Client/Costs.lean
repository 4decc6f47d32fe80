import RemoteTree.Client.Step
import RemoteTree.Proofs.Client.Funds

/-!
# What the steps of a session cost

A fund that pays for the reads and the writes of a step pays for the step, but for a few exchanges:
those that open, close and unmount, and the last one of a transfer.
-/

set_option autoImplicit false

namespace RemoteTree

open Client (Pays PaysReads PaysTransfers)

variable {State : Type} {server : Server State} {fund : State → Nat}

namespace Client

/-- Does a program take no more than a number of exchanges beyond those that a fund pays for? -/
def Costs {Result : Type} (server : Server State) (fund : State → Nat) (most : Nat)
    (program : Client Result) : Prop :=
  Pays server program (fun state => fund state + most) (fun _ state => fund state)

namespace Costs

variable {First Second Result : Type}

theorem done (most : Nat) (result : Result) : Costs server fund most (.done result) :=
  Pays.done fun _ => Nat.le_add_right _ _

private theorem mono {less most : Nat} {program : Client Result} (within : less ≤ most)
    (costs : Costs server fund less program) : Costs server fund most program := by
  intro state
  have paid := costs state
  dsimp only at paid ⊢
  omega

/-- What a program leaves in a fund beyond its costs is left out of account. -/
theorem of_pays {most : Nat} {program : Client Result} {after : Result → State → Nat}
    (pays : Pays server program (fun state => fund state + most) after)
    (covers : ∀ result state, fund state ≤ after result state) :
    Costs server fund most program := by
  intro state
  have paid := pays state
  have kept := covers (program.run server state).1 (program.run server state).2
  dsimp only at paid ⊢
  omega

private theorem andThen {first second : Nat} {program : Client First} {next : First → Client Second}
    (costs : Costs server fund first program)
    (rest : ∀ result, Costs server fund second (next result)) :
    Costs server fund (first + second) (program.andThen next) := by
  have both := Pays.andThen (Pays.spare costs second) rest
  intro state
  have paid := both state
  dsimp only at paid ⊢
  omega

private theorem andThen_free {most : Nat} {program : Client First} {next : First → Client Second}
    (costs : Costs server fund most program)
    (free : ∀ result, Costs server fund 0 (next result)) :
    Costs server fund most (program.andThen next) :=
  costs.andThen free

theorem map {most : Nat} {program : Client First} {next : First → Second}
    (costs : Costs server fund most program) :
    Costs server fund most (program.andThen fun result => .done (next result)) :=
  costs.andThen_free fun result => done 0 (next result)

theorem ask (paid : PaysReads server fund) {most : Nat} {request : Request}
    {next : request.Reply → Client Result}
    (rest : ∀ reply, Costs server fund most (next reply)) :
    Costs server fund (most + 1) (.ask request next) := by
  refine Pays.ask (fun _ state => fund state + most) ?_ rest
  intro state reply later answered
  have kept := paid.saves request state
  rw [answered] at kept
  exact Nat.succ_le_succ (Nat.add_le_add_right kept most)

end Costs

end Client

open Client (Costs)

namespace LineReader

private theorem advance_costs (paid : PaysReads server fund) (reader : LineReader)
    (deadline : Option Deadline) : Costs server fund 1 (reader.advance deadline) :=
  .of_pays (reader.advance_pays paid deadline) fun _ _ => Nat.le_add_right _ _

private theorem next_costs (paid : PaysReads server fund) (reader : LineReader) :
    Costs server fund 1 reader.next :=
  .of_pays (reader.next_pays paid) fun _ _ => Nat.le_add_right _ _

private theorem take_costs (paid : PaysReads server fund) (count : Nat) (reader : LineReader) :
    Costs server fund 1 (reader.take count) :=
  reader.take_pays paid count []

end LineReader

namespace DirectoryReader

private theorem next_costs (paid : PaysReads server fund) (reader : DirectoryReader) :
    Costs server fund 1 reader.next :=
  .of_pays (reader.next_pays paid) fun _ _ => Nat.le_add_right _ _

private theorem take_costs (paid : PaysReads server fund) (count : Nat) (reader : DirectoryReader) :
    Costs server fund 1 (reader.take count) :=
  reader.take_pays paid count []

end DirectoryReader

namespace Connection

private theorem withOpened_costs {Result : Type} (paid : PaysReads server fund) {most : Nat}
    (path : String) (mode : OpenMode) {next : Handle → Client (Except ClientError Result)}
    (rest : ∀ handle, Costs server fund most (next handle)) :
    Costs server fund (most + 1) (withOpened path mode next) := by
  refine Costs.ask paid fun reply => ?_
  cases reply with
  | error source => exact .done most _
  | ok handle => exact rest handle

private theorem closing_costs {Result : Type} (paid : PaysReads server fund) {most : Nat}
    (handle : Handle) {program : Client Result} (costs : Costs server fund most program) :
    Costs server fund (most + 1) (closing handle program) :=
  costs.andThen fun result => Costs.ask paid fun _ => .done 0 result

private theorem openReader_costs {Reader : Type} (paid : PaysReads server fund)
    (connection : Connection) (path : String) (start : Handle → String → Reader) :
    Costs server fund 2 (connection.openReader path start) := by
  refine withOpened_costs paid path .read fun handle => ?_
  split
  · exact .done 1 _
  · exact closing_costs paid handle (.done 0 _)

variable (paid : PaysTransfers server fund)

include paid

private theorem read_costs (connection : Connection) (path : String) :
    Costs server fund 3 (connection.read path) := by
  refine withOpened_costs paid.toPaysReads path .read fun handle =>
    closing_costs paid.toPaysReads handle ?_
  unfold Client.readCapped
  dsimp only
  split
  · exact Client.collect_pays paid.toPaysReads handle path _ _ _ _
  · exact .done 1 _

private theorem write_costs (connection : Connection) (path : String) (data : Bytes) :
    Costs server fund 3 (connection.write path data) :=
  withOpened_costs paid.toPaysReads path .write fun handle =>
    closing_costs paid.toPaysReads handle (Client.offer_pays paid.toPaysWrites handle path _ data)

private theorem create_costs (connection : Connection) (path : String) (data : Option Bytes) :
    Costs server fund 3 (connection.create path data) := by
  refine Costs.ask paid.toPaysReads fun reply => ?_
  cases reply with
  | error source => exact .done 2 _
  | ok handle =>
      refine closing_costs paid.toPaysReads handle ?_
      split
      · exact .done 1 _
      · exact Client.offer_pays paid.toPaysWrites handle path _ _

omit paid

private theorem remove_costs (paid : PaysReads server fund) (connection : Connection)
    (path : String) : Costs server fund 1 (connection.remove path) :=
  Costs.ask paid fun _ => .done 0 _

private theorem stat_costs (paid : PaysReads server fund) (connection : Connection)
    (path : String) : Costs server fund 1 (connection.stat path) := by
  refine Costs.ask paid fun reply => ?_
  cases reply with
  | error source => exact .done 0 _
  | ok raw => exact .done 0 _

end Connection

namespace Session

variable (session : Session)

private theorem unmountIfOver_costs (paid : PaysReads server fund) :
    Costs server fund 1 session.unmountIfOver := by
  unfold unmountIfOver
  split
  · exact Costs.ask paid fun _ => .done 0 session
  · exact .done 1 session

private theorem disconnect_costs (paid : PaysReads server fund) :
    Costs server fund 1 session.disconnect := by
  unfold disconnect
  split
  · exact unmountIfOver_costs _ paid
  · exact .done 1 session

private theorem dropLines_costs (paid : PaysReads server fund) (name : String) :
    Costs server fund 2 (session.dropLines name) := by
  unfold dropLines
  split
  · exact Costs.ask paid fun _ => unmountIfOver_costs _ paid
  · exact .done 2 session

private theorem dropDirectory_costs (paid : PaysReads server fund) (name : String) :
    Costs server fund 2 (session.dropDirectory name) := by
  unfold dropDirectory
  split
  · exact Costs.ask paid fun _ => unmountIfOver_costs _ paid
  · exact .done 2 session

private theorem openLines_costs (paid : PaysReads server fund) (connection : Connection)
    (name path : String) :
    Costs server fund (2 + 2) (session.openLines connection name path) := by
  refine (Connection.openReader_costs paid connection path LineReader.start).andThen
    fun opened => ?_
  cases opened with
  | error error => exact .done 2 _
  | ok reader => exact (dropLines_costs session paid name).map

private theorem openDirectory_costs (paid : PaysReads server fund) (connection : Connection)
    (name path : String) :
    Costs server fund (2 + 2) (session.openDirectory connection name path) := by
  refine (Connection.openReader_costs paid connection path DirectoryReader.start).andThen
    fun opened => ?_
  cases opened with
  | error error => exact .done 2 _
  | ok reader => exact (dropDirectory_costs session paid name).map

private theorem withConnection_costs {most : Nat} {next : Connection → Client (Outcome × Session)}
    (rest : ∀ connection, Costs server fund most (next connection)) :
    Costs server fund most (session.withConnection next) := by
  unfold withConnection
  split
  · exact rest _
  · exact .done most _

private theorem operation_costs {Result : Type} {most : Nat} {outcome : Result → Outcome}
    {program : Connection → Client Result}
    (costs : ∀ connection, Costs server fund most (program connection)) :
    Costs server fund most (session.operation outcome program) :=
  session.withConnection_costs fun connection => (costs connection).map

private theorem withLines_costs {Result : Type} {most : Nat} (name : String)
    {program : LineReader → Client (Result × LineReader)} {outcome : Result → LineReader → Outcome}
    (costs : ∀ reader, Costs server fund most (program reader)) :
    Costs server fund most (session.withLines name program outcome) := by
  unfold withLines
  split
  · exact .done most _
  · next reader _ => exact (costs reader).map

private theorem withDirectory_costs {Result : Type} {most : Nat} (name : String)
    {program : DirectoryReader → Client (Result × DirectoryReader)}
    {outcome : Result → DirectoryReader → Outcome}
    (costs : ∀ reader, Costs server fund most (program reader)) :
    Costs server fund most (session.withDirectory name program outcome) := by
  unfold withDirectory
  split
  · exact .done most _
  · next reader _ => exact (costs reader).map

/-- Whatever is done with a session, no more than four exchanges of a step are not paid for. -/
theorem step_costs (paid : PaysTransfers server fund) (step : Step) :
    Costs server fund 4 (session.step step) := by
  have reads : PaysReads server fund := paid.toPaysReads
  cases step with
  | read path =>
      exact .mono (by decide) (session.operation_costs fun connection =>
        connection.read_costs paid path)
  | write path data =>
      exact .mono (by decide) (session.operation_costs fun connection =>
        connection.write_costs paid path data)
  | create path data =>
      exact .mono (by decide) (session.operation_costs fun connection =>
        connection.create_costs paid path data)
  | remove path =>
      exact .mono (by decide) (session.operation_costs fun connection =>
        connection.remove_costs reads path)
  | stat path =>
      exact .mono (by decide) (session.operation_costs fun connection =>
        connection.stat_costs reads path)
  | openLines name path =>
      exact session.withConnection_costs fun connection =>
        (session.openLines_costs reads connection name path).map
  | openDirectory name path =>
      exact session.withConnection_costs fun connection =>
        (session.openDirectory_costs reads connection name path).map
  | limitBuffers bytes => exact session.withConnection_costs fun _ => .done 4 _
  | disconnect =>
      exact .mono (by decide) (session.withConnection_costs fun _ =>
        (session.disconnect_costs reads).map)
  | advance name deadline =>
      have costs : Costs server fund 1 (session.step (.advance name deadline)) := by
        rw [step]
        refine session.withLines_costs name fun reader => ?_
        exact (reader.advance_costs reads deadline).andThen_free fun (_, _, _) => .done 0 _
      exact costs.mono (by decide)
  | takeLines name count =>
      exact .mono (by decide) (session.withLines_costs name fun reader =>
        reader.take_costs reads count)
  | nextLine name =>
      exact .mono (by decide) (session.withLines_costs name fun reader =>
        reader.next_costs reads)
  | nextEntry name =>
      exact .mono (by decide) (session.withDirectory_costs name fun reader =>
        reader.next_costs reads)
  | takeEntries name count =>
      exact .mono (by decide) (session.withDirectory_costs name fun reader =>
        reader.take_costs reads count)
  | drop name =>
      exact (session.dropLines_costs reads name).andThen fun rest =>
        (rest.dropDirectory_costs reads name).map
  | request request =>
      have costs : Costs server fund 1 (session.step (.request request)) :=
        Costs.ask reads fun _ => .done 0 _
      exact costs.mono (by decide)

end Session

end RemoteTree
