import RemoteTree.Server.Basic

/-!
# Scripted servers

A server whose answers are laid down in advance, one queue for every kind of request, and which
remembers the requests it got. Where a queue is empty it answers in a fixed, harmless way. Since
the queues are arbitrary, so is what such a server says.
-/

set_option autoImplicit false

namespace RemoteTree

/-- A planned answer to a write: a number to claim, or all that was offered. -/
inductive Acceptance where
  | claimed (count : Nat)
  | everything
  deriving DecidableEq, Repr

/-- The number of bytes that a planned answer claims when `data` is offered. -/
def Acceptance.count (acceptance : Acceptance) (data : Bytes) : Nat :=
  match acceptance with
  | .claimed count => count
  | .everything => data.length

/-- The answers to come, and the requests so far, the latest first. -/
structure Script where
  opens : List (Except Refusal Handle) := []
  creates : List (Except Refusal Handle) := []
  reads : List Delivery := []
  writes : List (Except Refusal Acceptance) := []
  removes : List (Except Refusal Unit) := []
  stats : List (Except Refusal Bytes) := []
  asked : List Request := []

namespace Script

def defaultHandle : Handle := ⟨1, 64, 0⟩

/-- The next entry of a queue, or a default, and the rest of the queue. -/
def next {Entry : Type} (queue : List Entry) (default : Entry) : Entry × List Entry :=
  match queue with
  | [] => (default, [])
  | entry :: rest => (entry, rest)

def requests (script : Script) : List Request := script.asked.reverse

def server : Server Script where
  answer
    | request@(.openFile _ _), script =>
        let (reply, rest) := next script.opens (.ok defaultHandle)
        (reply, { script with opens := rest, asked := request :: script.asked })
    | request@(.createFile _ _ _), script =>
        let (reply, rest) := next script.creates (.ok defaultHandle)
        (reply, { script with creates := rest, asked := request :: script.asked })
    | request@(.readFrom _ _ _), script =>
        let (reply, rest) := next script.reads ⟨[], .ok 0⟩
        (reply, { script with reads := rest, asked := request :: script.asked })
    | request@(.writeTo _ data), script =>
        let (reply, rest) := next script.writes (.ok .everything)
        (reply.map (Acceptance.count · data),
          { script with writes := rest, asked := request :: script.asked })
    | request@(.removeFile _), script =>
        let (reply, rest) := next script.removes (.ok ())
        (reply, { script with removes := rest, asked := request :: script.asked })
    | request@(.statFile _), script =>
        let (reply, rest) := next script.stats (.ok [])
        (reply, { script with stats := rest, asked := request :: script.asked })
    | request@(.closeFile _), script => ((), { script with asked := request :: script.asked })
    | request@(.unmount), script => ((), { script with asked := request :: script.asked })

end Script

end RemoteTree
