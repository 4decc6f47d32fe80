import RemoteTree.Program
import RemoteTree.Proofs.Client.Lifecycle

/-!
# Sessions of commands

A command leaves its session as it found it: whatever it opened it has closed, on every way out. So
when the connection is given up nothing is left of the session, and the tree has been unmounted.
-/

set_option autoImplicit false

namespace RemoteTree

open Client (Guarded Keeps)

namespace Command

variable {custody : Custody}

private theorem followFrom_guarded {reader : LineReader} (holds : custody.Holds reader.handle)
    (path : String) (timeout extension : Option Nat) (lines : Nat) (console : Console) :
    (followFrom path timeout extension lines reader console).Guarded custody fun result last =>
      result.2.handle = reader.handle ∧ last = custody := by
  induction lines generalizing reader console with
  | zero => exact ⟨rfl, rfl⟩
  | succ lines ih =>
      refine (LineReader.advance_guarded holds _).andThen fun result last ends => ?_
      obtain ⟨event, next, asked⟩ := result
      obtain ⟨same, rfl⟩ := ends
      cases event with
      | none => exact ⟨same, rfl⟩
      | some event =>
          cases event with
          | timeout => exact ⟨same, rfl⟩
          | line text =>
              dsimp only
              split
              · exact same ▸ ih (same ▸ holds) _
              · exact ⟨same, rfl⟩

/-- What is wanted of a command: that it leaves the session of a connection, and what is open, as
they were. -/
def Leaves (connection : Connection) (custody : Custody) (outcome : Outcome) (last : Custody) :
    Prop :=
  outcome.2 = .start connection ∧ last = custody

/-- Where there is a connection, to drop a reader is to close its file. -/
theorem release_guarded (mounted : custody.mounted = true) (handle : Handle)
    (connection : Connection) :
    (Client.ask (.closeFile handle) fun _ => (Session.start connection).unmountIfOver).Guarded
      (custody.taking handle) fun left last => left = .start connection ∧ last = custody := by
  refine ⟨(Custody.holds_taking mounted handle).allows rfl, fun reply => ?_⟩
  rw [Custody.after_close]
  exact ⟨rfl, rfl⟩

private theorem runList_guarded (mounted : custody.mounted = true) (connection : Connection)
    (path : String) (long : Bool) (console : Console) :
    (runList (.start connection) connection path long console).Guarded custody
      (Leaves connection custody) := by
  rw [runList, Session.openDirectory, Client.andThen_assoc]
  refine (connection.openReader_guarded mounted path DirectoryReader.start).andThen
    fun opened last ends => ?_
  rcases ends with ⟨error, rfl, rfl⟩ | ⟨handle, rfl, rfl⟩
  · exact ⟨rfl, rfl⟩
  · refine (DirectoryReader.take_guarded (Custody.holds_taking mounted handle) patience).andThen
      fun result last ends => ?_
    obtain ⟨entries, reader⟩ := result
    obtain ⟨-, rfl⟩ := ends
    -- The reader is dropped before anything is printed, so no fault in printing leaves it open.
    refine (release_guarded mounted handle connection).andThen fun left last ends => ?_
    obtain ⟨rfl, rfl⟩ := ends
    split
    · exact ⟨rfl, rfl⟩
    · exact ⟨rfl, rfl⟩

private theorem runFollow_guarded (mounted : custody.mounted = true) (connection : Connection)
    (path : String) (timeout extension : Option Nat) (console : Console) :
    (runFollow (.start connection) connection path timeout extension console).Guarded custody
      (Leaves connection custody) := by
  rw [runFollow, Session.openLines, Client.andThen_assoc]
  refine (connection.openReader_guarded mounted path LineReader.start).andThen
    fun opened last ends => ?_
  rcases ends with ⟨error, rfl, rfl⟩ | ⟨handle, rfl, rfl⟩
  · exact ⟨rfl, rfl⟩
  · refine (followFrom_guarded (Custody.holds_taking mounted handle) path timeout extension
      patience console).andThen fun result last ends => ?_
    obtain ⟨outcome, reader⟩ := result
    obtain ⟨-, rfl⟩ := ends
    refine (release_guarded mounted handle connection).andThen fun left last ends => ?_
    obtain ⟨rfl, rfl⟩ := ends
    exact ⟨rfl, rfl⟩

private theorem runIn_guarded (mounted : custody.mounted = true) (command : Command)
    (connection : Connection) (input : Except String Bytes) (console : Console) :
    (command.runIn (.start connection) connection input console).Guarded custody
      (Leaves connection custody) := by
  have reported {program : Client (Except ClientError Unit)} (keeps : program.Keeps custody) :
      (program.andThen fun result =>
        (.done (Command.reported console result, .start connection) : Client Outcome)).Guarded
          custody (Leaves connection custody) :=
    keeps.andThen fun _ => ⟨rfl, rfl⟩
  cases command with
  | read path =>
      refine (connection.read_keeps mounted path).andThen fun result => ?_
      cases result with
      | ok bytes => exact ⟨rfl, rfl⟩
      | error error => exact ⟨rfl, rfl⟩
  | write path words =>
      unfold runIn
      dsimp only
      split
      · exact reported (connection.write_keeps mounted path _)
      · exact reported (connection.write_keeps mounted path _)
      · exact ⟨rfl, rfl⟩
  | create path words => exact reported (connection.create_keeps mounted path _)
  | remove path => exact reported (connection.remove_keeps mounted path)
  | stat path json =>
      refine (connection.stat_keeps mounted path).andThen fun result => ?_
      cases result with
      | ok found => exact ⟨rfl, rfl⟩
      | error error => exact ⟨rfl, rfl⟩
  | list path long => exact runList_guarded mounted connection path long console
  | follow path timeout extension =>
      exact runFollow_guarded mounted connection path timeout extension console

end Command

namespace Program

private theorem session_guarded (command : Command) (address : String) (input : Except String Bytes)
    (console : Console) :
    (session command address input console).Guarded ⟨0, true⟩ fun outcome last =>
      outcome.2.isOver = true ∧ last = outcome.2.custody := by
  refine (Command.runIn_guarded rfl command ⟨address, none⟩ input console).andThen
    fun outcome last ends => ?_
  obtain ⟨result, left⟩ := outcome
  obtain ⟨rfl, rfl⟩ := ends
  -- No reader is left, so to give up the connection is to unmount the tree.
  refine (Session.disconnect_guarded (.start ⟨address, none⟩)).andThen fun left last ends => ?_
  obtain ⟨rfl, same⟩ := ends
  exact ⟨rfl, same⟩

/-- On every server, the session of a command gives back all that it is given, and unmounts the
tree at its end. -/
theorem session_releases {State : Type} (server : Server State) (state : State)
    (command : Command) (address : String) (input : Except String Bytes) (console : Console) :
    let program := session command address input console
    let exchanges := program.exchanges server state
    (program.run server state).1.2.isOver = true ∧ Orderly exchanges ∧
      (opened exchanges).Perm (closed exchanges) ∧ EndsUnmounted exchanges := by
  obtain ⟨permitted, ended, same⟩ :=
    (session_guarded command address input console).permits server state
  have handled := Session.handled_of_permits permitted same
  refine ⟨ended, handled.orderly, ?_, handled.unmounted ended⟩
  have held := handled.held
  rwa [Session.held_of_isOver ended, List.append_nil] at held

end Program

end RemoteTree
