import RemoteTree.Client.Transfer
import RemoteTree.Text.Quoted

/-!
# Reading a directory

An open directory read entry by entry. Every delivery holds whole stat records, and the next read
is made only when the last delivery has been used up.
-/

set_option autoImplicit false

namespace RemoteTree

/-- An open directory on the way through its entries: the buffer for deliveries, how many bytes
of the last delivery have been decoded, and those that have not. -/
structure DirectoryReader where
  handle : Handle
  path : String
  buffer : Bytes
  consumed : Nat
  pending : Bytes
  finished : Bool
  deriving DecidableEq, Repr

namespace DirectoryReader

def start (handle : Handle) (path : String) : DirectoryReader :=
  { handle := handle
    path := path
    buffer := Bytes.zeros handle.transferSize
    consumed := 0
    pending := []
    finished := false }

/-- Decodes the next record of what is pending. A cut-off record is the last thing that a reader
reports. -/
def decodePending (reader : DirectoryReader) : Except ClientError Stat × DirectoryReader :=
  match Stat.decodeNext ⟨reader.consumed, reader.pending⟩ with
  | .ok (stat, cursor) =>
      (.ok stat, { reader with consumed := cursor.offset, pending := cursor.rest })
  | .error shortfall =>
      (.error (.protocol reader.path (.cutRecord shortfall)), { reader with finished := true })

/-- The next entry. An empty or refused read ends the entries; a delivery that claims more than
the buffer holds is reported and ends them too. -/
def next (reader : DirectoryReader) :
    Client (Option (Except ClientError Stat) × DirectoryReader) :=
  if reader.finished then .done (none, reader)
  else if !reader.pending.isEmpty then
    let (entry, reader) := reader.decodePending
    .done (some entry, reader)
  else
    .ask (.readFrom reader.handle reader.buffer none) fun delivery =>
      let buffer := Bytes.overlay delivery.received reader.buffer
      let reader := { reader with buffer := buffer }
      match delivery.claimed with
      | .error _ => .done (none, { reader with finished := true })
      | .ok 0 => .done (none, { reader with finished := true })
      | .ok count =>
          if buffer.length < count then
            .done (some (.error (.protocol reader.path (.overlongRead count buffer.length))),
              { reader with finished := true })
          else
            let (entry, reader) :=
              { reader with consumed := 0, pending := buffer.take count }.decodePending
            .done (some entry, reader)

def take (count : Nat) (reader : DirectoryReader) :
    Client (List (Except ClientError Stat) × DirectoryReader) :=
  loop count [] reader
where
  loop : Nat → List (Except ClientError Stat) → DirectoryReader →
      Client (List (Except ClientError Stat) × DirectoryReader)
    | 0, entries, reader => .done (entries.reverse, reader)
    | count + 1, entries, reader =>
        reader.next.andThen fun (entry, reader) =>
          match entry with
          | some entry => loop count (entry :: entries) reader
          | none => .done (entries.reverse, reader)

def text (reader : DirectoryReader) : String :=
  "DirIter \x7b path: " ++ Text.quoted reader.path ++ ", cursor: " ++ toString reader.consumed ++
    ", end: " ++ toString (reader.consumed + reader.pending.length) ++ ", .. \x7d"

end DirectoryReader

end RemoteTree
