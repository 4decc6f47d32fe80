import RemoteTree.Client.Basic
import RemoteTree.Tape.Calls

/-!
# Playing tapes

A player answers calls from a tape. Every pair of service and method has a queue of its own, so
the k-th call of a method gets the k-th answer that was recorded for it, whatever is called in
between and whatever the arguments are.
-/

set_option autoImplicit false

namespace RemoteTree

/-- The recorded calls of one method: how many there are, the number of the last, and those that
have not been played yet. -/
structure Queue where
  count : Nat
  lastSeq : UInt64
  pending : List Interaction

/-- A tape that is being played, with a queue for every service and method on it, and with the words
for an output that cannot be read. -/
structure Player where
  wording : Wording
  queues : Table (String × String) Queue

/-- A call that a tape cannot answer. -/
inductive Unplayable where
  | unrecorded (service method : String) (recorded : List (String × String))
  | exhausted (service method : String) (count : Nat) (lastSeq : UInt64)
  deriving DecidableEq, Repr

namespace Unplayable

def pairText (pair : String × String) : String := pair.1 ++ "::" ++ pair.2

/-- The text of the complaint. The pairs on the tape come in the order of their names. -/
def message : Unplayable → String
  | .unrecorded service method recorded =>
      "cassette exhausted: no interactions recorded for " ++ pairText (service, method) ++
        "; recorded pairs: [" ++
        String.intercalate ", " ((recorded.map pairText).mergeSort Utf8.ordered) ++ "]"
  | .exhausted service method count lastSeq =>
      "cassette exhausted: all " ++ toString count ++ " interactions for " ++
        pairText (service, method) ++ " consumed (last was seq " ++ toString lastSeq.toNat ++ ")"

def refusal (unplayable : Unplayable) : Refusal := .failed unplayable.message none

end Unplayable

namespace Player

/-- Puts the queue of a method in place, with the calls recorded for it. -/
def addQueue (interactions : List Interaction) (queues : Table (String × String) Queue)
    (pair : String × String) : Table (String × String) Queue :=
  let recorded := interactions.filter fun other => (other.service, other.method) = pair
  match recorded.getLast? with
  | some last => Table.insert pair ⟨recorded.length, last.seq, recorded⟩ queues
  | none => queues

/-- The pairs of service and method on a tape, each once. -/
def pairsOf (interactions : List Interaction) : List (String × String) :=
  (interactions.map fun interaction => (interaction.service, interaction.method)).eraseDups

def ofInteractions (wording : Wording) (interactions : List Interaction) : Player :=
  ⟨wording, (pairsOf interactions).foldl (addQueue interactions) []⟩

def play (player : Player) (service method : String) :
    Except Unplayable Interaction × Player :=
  match Table.find? (service, method) player.queues with
  | none => (.error (.unrecorded service method player.queues.keys), player)
  | some queue =>
      match queue.pending with
      | [] => (.error (.exhausted service method queue.count queue.lastSeq), player)
      | interaction :: rest =>
          (.ok interaction,
            { player with
              queues := Table.insert (service, method) { queue with pending := rest }
                player.queues })

def remaining (player : Player) : Nat :=
  player.queues.foldr (fun entry count => entry.2.pending.length + count) 0

/-- Plays the next answer of a method of the file server. -/
def playAnswer {Result : Type} (player : Player) (method : String)
    (ofJson? : Json → Option Result) : Except Refusal Result × Player :=
  match player.play fileService method with
  | (.error unplayable, player) => (.error unplayable.refusal, player)
  | (.ok interaction, player) => (answerOfJson player.wording method ofJson? interaction.output, player)

/-- The refusal of a read whose recorded bytes do not fit its buffer. -/
def doesNotFit (recorded room : Nat) : Refusal :=
  .failed
    ("recorded read of " ++ toString recorded ++ " bytes does not fit a " ++ toString room ++
      "-byte buffer") none

/-- The delivery that a recorded answer to a read makes to a buffer with some room. -/
def deliver (room : Nat) : Except Refusal Bytes → Delivery
  | .error refusal => ⟨[], .error refusal⟩
  | .ok bytes =>
      if room < bytes.length then ⟨[], .error (doesNotFit bytes.length room)⟩
      else ⟨bytes, .ok bytes.length⟩

def server : Server Player where
  answer
    | .openFile _ _, player => player.playAnswer "open" Handle.ofJson?
    | .createFile _ _ _, player => player.playAnswer "create" Handle.ofJson?
    | .readFrom _ buffer _, player =>
        let (answer, player) := player.playAnswer "read" bytesOfJson?
        (deliver buffer.length answer, player)
    | .writeTo _ _, player => player.playAnswer "write" countOfJson?
    | .removeFile _, player => player.playAnswer "remove" nothingOfJson?
    | .statFile _, player => player.playAnswer "stat" bytesOfJson?
    | .closeFile _, player => ((), (player.play fileService "close").2)
    | .unmount, player => ((), (player.play fileService "unmount").2)

end Player

end RemoteTree
