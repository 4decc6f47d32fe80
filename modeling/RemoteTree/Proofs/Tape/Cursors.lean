import RemoteTree.Proofs.Tape.Order

/-!
# Tapes played by position

The queues of a tape stay as they were recorded, and a position for every pair says how far its
queue has been played. A position is never past the end of its queue, so what is left of a queue
can be counted by a difference, and the answers are those of the player whose queues shrink.
-/

set_option autoImplicit false

namespace RemoteTree

/-- A tape with a position in every queue. -/
structure Cursors where
  queues : Table (String × String) (List Interaction)
  positions : Table (String × String) Nat

namespace Cursors

def enqueue (queues : Table (String × String) (List Interaction)) (interaction : Interaction) :
    Table (String × String) (List Interaction) :=
  let queue := (Table.find? interaction.pair queues).getD []
  Table.insert interaction.pair (queue ++ [interaction]) queues

def ofInteractions (interactions : List Interaction) : Cursors :=
  let queues := interactions.foldl enqueue []
  ⟨queues, Table.mapValues (fun _ => 0) queues⟩

/-- The number of the last call of a queue. -/
def lastSeq (queue : List Interaction) : UInt64 :=
  (queue.getLast?.map Interaction.seq).getD 0

/-- The position of a pair, and the positions with one for that pair. -/
def enter (pair : String × String) (positions : Table (String × String) Nat) :
    Nat × Table (String × String) Nat :=
  match Table.find? pair positions with
  | some position => (position, positions)
  | none => (0, Table.insert pair 0 positions)

def play (cursors : Cursors) (service method : String) :
    Except Unplayable Interaction × Cursors :=
  match Table.find? (service, method) cursors.queues with
  | none => (.error (.unrecorded service method cursors.queues.keys), cursors)
  | some queue =>
      let (position, positions) := enter (service, method) cursors.positions
      match queue[position]? with
      | none =>
          (.error (.exhausted service method queue.length (lastSeq queue)),
            { cursors with positions := positions })
      | some interaction =>
          (.ok interaction,
            { cursors with positions := Table.insert (service, method) (position + 1) positions })

def playAll (cursors : Cursors) :
    List (String × String) → List (Except Unplayable Interaction) × Cursors
  | [] => ([], cursors)
  | (service, method) :: rest =>
      let (answer, next) := cursors.play service method
      let (answers, final) := next.playAll rest
      (answer :: answers, final)

/-- How much more a whole is than a part of it. There is no answer if the part is more. -/
def difference? (whole part : Nat) : Option Nat :=
  if part ≤ whole then some (whole - part) else none

/-- How many calls are left to play, unless a position is past the end of its queue. -/
def remaining? (cursors : Cursors) : Option Nat := do
  let counts ← cursors.queues.mapM fun (pair, queue) =>
    difference? queue.length ((Table.find? pair cursors.positions).getD 0)
  return counts.sum

/-- Cursors that have come as far on a tape as a player has. -/
structure Tracks (cursors : Cursors) (player : Player) : Prop where
  unique : cursors.queues.keys.Nodup
  keys : cursors.queues.keys = player.queues.keys
  queue : ∀ pair queue, Table.find? pair cursors.queues = some queue →
    ∃ position ≤ queue.length, Table.find? pair cursors.positions = some position ∧
      Table.find? pair player.queues =
        some ⟨queue.length, lastSeq queue, queue.drop position⟩

private theorem find?_enqueued (interactions : List Interaction) (pair : String × String) :
    Table.find? pair (interactions.foldl enqueue []) =
      if Player.recordedFor pair interactions = [] then none
      else some (Player.recordedFor pair interactions) := by
  induction interactions using List.reverseRecOn with
  | nil => rfl
  | append_singleton interactions last ih =>
      rw [List.foldl_concat, enqueue, Table.find?_insert, Player.recordedFor_append]
      by_cases same : last.pair = pair
      · subst same
        have here : Player.recordedFor last.pair [last] = [last] := by simp [Player.recordedFor]
        have longer : Player.recordedFor last.pair interactions ++ [last] ≠ [] := by simp
        rw [ih, here, if_pos rfl, if_neg longer]
        split
        · next empty => rw [empty, Option.getD_none]
        · rw [Option.getD_some]
      · have there : Player.recordedFor pair [last] = [] := by simp [Player.recordedFor, same]
        rw [if_neg same, ih, there, List.append_nil]

private theorem keys_enqueued (interactions : List Interaction) :
    Table.keys (interactions.foldl enqueue []) = Player.pairsOf interactions := by
  induction interactions using List.reverseRecOn with
  | nil => rfl
  | append_singleton interactions last ih =>
      rw [List.foldl_concat, enqueue, Table.keys_insert, ih]
      unfold Player.pairsOf
      rw [List.map_append, List.map_singleton, Player.eraseDups_concat]
      simp [Interaction.pair]

private theorem tracks_ofInteractions (wording : Wording) (interactions : List Interaction) :
    (ofInteractions interactions).Tracks (Player.ofInteractions wording interactions) := by
  refine ⟨?_, ?_, ?_⟩
  · rw [ofInteractions, keys_enqueued]
    exact Player.nodup_pairsOf interactions
  · rw [ofInteractions, keys_enqueued, Player.keys_ofInteractions]
  · intro pair queue found
    refine ⟨0, Nat.zero_le _, ?_, ?_⟩
    · rw [ofInteractions, Table.find?_mapValues]
      exact congrArg _ found
    · rw [ofInteractions, find?_enqueued] at found
      split at found
      · cases found
      · next recorded =>
          cases found
          rw [Player.find?_ofInteractions, Player.queueOf, lastSeq]
          cases last : (Player.recordedFor pair interactions).getLast? with
          | none => exact absurd (List.getLast?_eq_none_iff.mp last) recorded
          | some _ => rfl

variable {cursors : Cursors} {player : Player}

/-- A call of cursors is answered as the player answers it. Where it fails, nothing changes. -/
theorem Tracks.play (tracks : cursors.Tracks player) (service method : String) :
    ∃ answer next nextPlayer,
      cursors.play service method = (answer, next) ∧
      player.play service method = (answer, nextPlayer) ∧ next.Tracks nextPlayer ∧
      ∀ unplayable, answer = .error unplayable → next = cursors := by
  unfold Cursors.play Player.play
  cases found : Table.find? (service, method) cursors.queues with
  | none =>
      have absent : Table.find? (service, method) player.queues = none := by
        rwa [Table.find?_eq_none_iff, ← tracks.keys, ← Table.find?_eq_none_iff]
      refine ⟨_, _, _, rfl, by rw [absent, ← tracks.keys], tracks, ?_⟩
      intro unplayable refused
      rfl
  | some queue =>
      obtain ⟨position, within, placed, held⟩ := tracks.queue _ _ found
      simp only [enter, placed, held]
      cases pending : queue.drop position with
      | nil =>
          rw [List.getElem?_eq_none (List.drop_eq_nil_iff.mp pending)]
          refine ⟨_, _, _, rfl, rfl, tracks, ?_⟩
          intro unplayable refused
          rfl
      | cons interaction rest =>
          obtain ⟨next, left⟩ := Player.of_drop_eq_cons pending
          have inside : position < queue.length := (List.getElem?_eq_some_iff.mp next).1
          simp only [next]
          refine ⟨_, _, _, rfl, rfl, ⟨tracks.unique, ?_, ?_⟩, ?_⟩
          · have known : (service, method) ∈ player.queues.keys :=
              List.mem_map_of_mem (Table.mem_of_find? held)
            rw [Table.keys_insert, if_pos known]
            exact tracks.keys
          · intro pair other sought
            simp only [Table.find?_insert]
            by_cases same : (service, method) = pair
            · subst same
              obtain rfl := Option.some.inj (found.symm.trans sought)
              refine ⟨position + 1, inside, if_pos rfl, ?_⟩
              rw [if_pos rfl, left]
            · rw [if_neg same, if_neg same]
              exact tracks.queue pair other sought
          · intro unplayable refused
            cases refused

/-- Cursors answer the calls of a run as the player does. -/
theorem Tracks.playAll (tracks : cursors.Tracks player) (calls : List (String × String)) :
    (cursors.playAll calls).1 = (player.playAll calls).1 ∧
      (cursors.playAll calls).2.Tracks (player.playAll calls).2 := by
  induction calls generalizing cursors player with
  | nil => exact ⟨rfl, tracks⟩
  | cons call rest ih =>
      obtain ⟨service, method⟩ := call
      obtain ⟨answer, next, nextPlayer, byCursors, byPlayer, tracks, -⟩ :=
        tracks.play service method
      obtain ⟨answers, final⟩ := ih tracks
      simp only [Cursors.playAll, byCursors, Player.playAll, byPlayer, answers]
      exact ⟨trivial, final⟩

private theorem mapM_eq_some {Value Result : Type} {partial? : Value → Option Result}
    {total : Value → Result} {values : List Value}
    (defined : ∀ value ∈ values, partial? value = some (total value)) :
    values.mapM partial? = some (values.map total) := by
  induction values with
  | nil => rfl
  | cons value rest ih =>
      rw [List.mapM_cons, defined value List.mem_cons_self,
        ih fun other member => defined other (List.mem_cons_of_mem _ member)]
      rfl

/-- Counting what is left never takes more from a queue than it has. -/
theorem Tracks.remaining? (tracks : cursors.Tracks player) :
    cursors.remaining? = some player.remaining := by
  have unique : player.queues.keys.Nodup := tracks.keys ▸ tracks.unique
  have counted : ∀ entry ∈ cursors.queues,
      difference? entry.2.length ((Table.find? entry.1 cursors.positions).getD 0) =
        some (player.pendingOf entry.1).length := by
    rintro ⟨pair, queue⟩ member
    obtain ⟨position, within, placed, held⟩ :=
      tracks.queue pair queue (Table.find?_of_mem tracks.unique member)
    rw [placed, Option.getD_some, difference?, if_pos within, Player.pendingOf, held]
    simp
  have sums : (cursors.queues.map fun entry => (player.pendingOf entry.1).length).sum =
      player.remaining := by
    rw [Player.remaining_eq_sum_keys unique, ← tracks.keys, Table.keys, List.map_map]
    rfl
  rw [Cursors.remaining?, mapM_eq_some counted, ← sums]
  rfl

/-- The calls of a pair are answered with the interactions that were recorded for it in their
order, however the pairs are mixed, and no interaction is passed over or comes twice. A call that
fails changes nothing, and the interactions that were not served are left. Playing by position
answers the same, and its positions stay within their queues. -/
theorem playAll_serves (wording : Wording) (interactions : List Interaction)
    (calls : List (String × String)) :
    let played := (Player.ofInteractions wording interactions).playAll calls
    let byPosition := (ofInteractions interactions).playAll calls
    (∀ (place : Nat) (service method : String), calls[place]? = some (service, method) →
      ∃ answer, played.1[place]? = some answer ∧
        Player.Due interactions service method ((calls.take place).count (service, method))
          answer) ∧
    (∀ pair, Player.recordedFor pair (Player.served played.1) =
      (Player.recordedFor pair interactions).take (calls.count pair)) ∧
    played.2.remaining + (Player.served played.1).length = interactions.length ∧
    (∀ service method unplayable next,
      played.2.play service method = (.error unplayable, next) → next = played.2) ∧
    byPosition.1 = played.1 ∧ byPosition.2.remaining? = some played.2.remaining ∧
    ∀ service method unplayable next,
      byPosition.2.play service method = (.error unplayable, next) → next = byPosition.2 := by
  intro played byPosition
  have start := Player.played_ofInteractions wording interactions
  obtain ⟨answers, tracks⟩ := (tracks_ofInteractions wording interactions).playAll calls
  refine ⟨?_, ?_, ?_, ?_, answers, tracks.remaining?, ?_⟩
  · intro place service method called
    have answered := (start.playAll calls).2 place service method called
    exact ⟨_, answered, Player.due_answerAt ..⟩
  · intro pair
    simpa using start.served calls pair
  · rw [start.remaining calls]
    exact (Player.holds_ofInteractions wording interactions).remaining
  · intro service method unplayable next refused
    exact Player.play_error refused
  · intro service method unplayable next refused
    obtain ⟨answer, after, -, answered, -, -, unchanged⟩ := tracks.play service method
    obtain ⟨rfl, rfl⟩ := Prod.mk.inj (answered.symm.trans refused)
    exact unchanged unplayable rfl

/-- Two methods on one tape, called out of turn, once too often, and beside one that is not on
it. -/
theorem playAll_serves_of_mixed_calls :
    let first : Interaction := ⟨0, "ixp", "read", .null, .string "a"⟩
    let second : Interaction := ⟨1, "ixp", "close", .null, .null⟩
    let third : Interaction := ⟨2, "ixp", "read", .null, .string "b"⟩
    let tape := [first, second, third]
    let calls := [("ixp", "read"), ("ixp", "remove"), ("ixp", "read"), ("ixp", "read")]
    let played := (Player.ofInteractions (fun _ _ => "invalid type") tape).playAll calls
    played.1[0]? = some (.ok first) ∧
      (∃ pairs, played.1[1]? = some (.error (.unrecorded "ixp" "remove" pairs))) ∧
      played.1[2]? = some (.ok third) ∧
      played.1[3]? = some (.error (.exhausted "ixp" "read" 2 2)) ∧
      Player.recordedFor ("ixp", "read") (Player.served played.1) = [first, third] ∧
      played.2.remaining + 2 = 3 ∧
      ((ofInteractions tape).playAll calls).2.remaining? = some 1 := by
  intro first second third tape calls played
  obtain ⟨due, served, left, -, -, byPosition, -⟩ := playAll_serves (fun _ _ => "invalid type") tape calls
  obtain ⟨one, firstly, oneDue⟩ := due 0 "ixp" "read" rfl
  obtain ⟨two, secondly, twoDue⟩ := due 1 "ixp" "remove" rfl
  obtain ⟨three, thirdly, threeDue⟩ := due 2 "ixp" "read" rfl
  obtain ⟨four, fourthly, fourDue⟩ := due 3 "ixp" "read" rfl
  obtain rfl := oneDue.recorded first rfl
  obtain ⟨pairs, -, rfl, -⟩ := twoDue.unrecorded rfl
  obtain rfl := threeDue.recorded third rfl
  obtain rfl := fourDue.exhausted third rfl (by decide)
  have answered : (Player.served played.1).length = 2 := rfl
  have left : played.2.remaining + 2 = 3 := answered ▸ left
  have one : played.2.remaining = 1 := by omega
  refine ⟨firstly, ⟨pairs, secondly⟩, thirdly, fourthly, (served _).trans rfl, left, ?_⟩
  rw [byPosition]
  exact congrArg some one

end Cursors

end RemoteTree
