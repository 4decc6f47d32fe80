import RemoteTree.Proofs.Tape.Replay

/-!
# Recording what is replayed

A program goes on in view of what its steps came to, which does not show the bytes that a read left
in a buffer beyond its claim. Recorded over any server, and then recorded anew over a player of that
tape, it fills the same tape again.
-/

set_option autoImplicit false

namespace RemoteTree

/-- A program that uses a session: nothing more, or a step and then whatever suits its outcome. -/
inductive Plan where
  | finish
  | perform (step : Step) (next : Outcome → Plan)

namespace Plan

open Client (Alike)

def ofScript : List Step → Plan
  | [] => .finish
  | step :: rest => .perform step fun _ => ofScript rest

/-- Does with a session what is planned, and drops what is left of it in the end. -/
def play : Plan → Session → Client (List Outcome)
  | .finish, session => session.finish.andThen fun _ => .done []
  | .perform step next, session =>
      (session.step step).andThen fun (outcome, session) =>
        ((next outcome.seen).play session).andThen fun outcomes => .done (outcome :: outcomes)

/-- A script is a plan that does not heed what comes of its steps. -/
theorem play_ofScript (session : Session) (script : List Step) :
    (ofScript script).play session = session.play script := by
  induction script generalizing session with
  | nil => rfl
  | cons step rest ih =>
      unfold Session.play at ih ⊢
      simp only [ofScript, play, ih, Session.steps, Client.andThen_assoc, Client.andThen]

private theorem play_alike {left right : Session} (same : left.seen = right.seen) (plan : Plan) :
    Alike (fun first second => first.map Outcome.seen = second.map Outcome.seen)
      (plan.play left) (plan.play right) := by
  induction plan generalizing left right with
  | finish =>
      apply (Session.finish_alike same).andThen
      intro first second finished
      exact .done rfl
  | perform step next ih =>
      apply (Session.step_alike same step).andThen
      rintro ⟨outcome, first⟩ ⟨other, second⟩ ⟨outcomes, sessions⟩
      replace outcomes : outcome.seen = other.seen := outcomes
      dsimp only
      rw [← outcomes]
      apply (ih outcome.seen sessions).andThen
      intro later others equal
      apply Alike.done
      rw [List.map_cons, List.map_cons, outcomes, equal]

/-- A program that is recorded over any server, and recorded again over a player of its own tape,
records the same calls in the same order, down to those that end the session. -/
theorem rerecorded {State : Type} (server : Server State) (honest : server.StaysWithin)
    (state : State) (connection : Connection) (plan : Plan) (name rename : String)
    (address readdress : Option String) (wording : Wording) :
    ∃ outcomes after recorded replayed player rerecorded,
      (plan.play (.start connection)).record server state { name := name, address := address } =
        some (outcomes, after, recorded) ∧
      (plan.play (.start connection)).record Player.server
          (Player.ofInteractions wording recorded.interactions.toList)
          { name := rename, address := readdress } =
        some (replayed, player, rerecorded) ∧
      rerecorded.interactions = recorded.interactions ∧
      replayed.map Outcome.seen = outcomes.map Outcome.seen := by
  obtain ⟨outcomes, after, recorded, tape, ran, grown, replays⟩ :=
    (plan.play_alike rfl).rerecords honest state { name := name, address := address }
  replace grown : recorded.interactions.toList = tape := grown
  have holds : (Player.ofInteractions wording tape).Holds (tape ++ []) := by
    rw [List.append_nil]
    exact Player.holds_ofInteractions wording tape
  obtain ⟨replayed, player, rerecorded, reran, same, -, equal⟩ :=
    replays (Player.ofInteractions wording tape) [] { name := rename, address := readdress } holds rfl
  rw [← grown] at reran
  exact ⟨outcomes, after, recorded, replayed, player, rerecorded, ran, reran, equal, same.symm⟩

/-- A line is copied to a file in two writes, bytes that are no text are read past the reader, a write
to a directory is refused, and the reader outlives its connection. -/
theorem rerecorded_of_copied_line :
    let plan : Plan :=
      .perform (.openLines "events" "/event") fun _ =>
        .perform (.nextLine "events") fun outcome =>
          match outcome with
          | .line (some line) _ =>
              .perform (.create "/log" (some (Utf8.encode line))) fun _ =>
                .perform (.request (.readFrom ⟨1, 0, 0⟩ [1, 2, 3] none)) fun _ =>
                  .perform (.write "/" [0xFF, 0xFE]) fun _ => .perform .disconnect fun _ => .finish
          | _ => .perform (.read "/none") fun _ => .finish
    let tree := (Tree.empty { mostWritten := some 2 } 0).addStream "/event"
      [.data [0x61, 0x62, 0x63, 0x0A], .data [0xFF], .stall]
    Tree.server.StaysWithin ∧
    ∃ outcomes after recorded replayed player rerecorded,
      (plan.play (.start ⟨"mem!test", none⟩)).record Tree.server tree { name := "events" } =
        some (outcomes, after, recorded) ∧
      (plan.play (.start ⟨"mem!test", none⟩)).record Player.server
          (Player.ofInteractions (fun _ _ => "invalid type") recorded.interactions.toList)
          { name := "again" } =
        some (replayed, player, rerecorded) ∧
      rerecorded.interactions = recorded.interactions ∧
      replayed.map Outcome.seen = outcomes.map Outcome.seen := by
  intro plan tree
  exact ⟨Tree.server_staysWithin,
    rerecorded Tree.server Tree.server_staysWithin tree ⟨"mem!test", none⟩ plan "events" "again"
      none none _⟩

end Plan

end RemoteTree
