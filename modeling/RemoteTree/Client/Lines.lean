import RemoteTree.Client.Transfer
import RemoteTree.Text.Quoted

/-!
# Reading by lines

An open file read line by line. Lines are split within what one read delivers: the piece behind
the last newline of a delivery is an item of its own, so a line that two reads cut in two arrives
as two items. A deadline bounds the wait for one delivery and never loses what has arrived.
-/

set_option autoImplicit false

namespace RemoteTree

/-- How long one step may wait. When the time has passed without data and there are extensions,
the next of them says how much longer to wait; an empty one, or none left, ends the wait. -/
structure Deadline where
  after : Duration
  extensions : Option (List Duration)
  deriving DecidableEq, Repr

namespace Deadline

/-- The wait for one read, and the extensions that may follow it. A deadline of no length is no
deadline, and its extensions do not count. -/
def waits : Option Deadline → Option Duration × Option (List Duration)
  | some deadline =>
      if deadline.after.isZero then (none, none) else (some deadline.after, deadline.extensions)
  | none => (none, none)

def text (deadline : Deadline) : String :=
  "ReadTimeout \x7b after: " ++ deadline.after.text ++ ", extend: " ++
    toString deadline.extensions.isSome ++ " \x7d"

end Deadline

/-- What one step of reading by lines yields. -/
inductive LineEvent where
  | line (text : String)
  | timeout
  deriving DecidableEq, Repr

/-- An open file on the way through its lines: the buffer for deliveries, how many bytes of the
last delivery have been handed out, and those that have not. -/
structure LineReader where
  handle : Handle
  path : String
  buffer : Bytes
  consumed : Nat
  pending : Bytes
  finished : Bool
  deriving DecidableEq, Repr

/-- How waiting for a delivery ended, with the buffer as it is then and the number of extensions
that were asked for. -/
inductive LineReader.Arrival where
  | data (count : Nat)
  | timeout
  | nothing
  deriving DecidableEq, Repr

namespace LineReader

def start (handle : Handle) (path : String) : LineReader :=
  { handle := handle
    path := path
    buffer := Bytes.zeros handle.transferSize
    consumed := 0
    pending := []
    finished := false }

/-- What a delivery brings to a buffer of the given size, or none if it only timed out. Every
other refusal, an empty delivery and one that claims more than the buffer holds are the end of the
file. -/
def arrival? (size : Nat) (delivery : Delivery) : Option Arrival :=
  match delivery.claimed with
  | .ok 0 => some .nothing
  | .ok count => if size < count then some .nothing else some (.data count)
  | .error .timedOut => none
  | .error (.failed _ _) => some .nothing

/-- Waits for a delivery. After a read that timed out the next extension bounds another read;
`asked` counts the extensions asked for so far. -/
def await (handle : Handle) (buffer : Bytes) (wait : Option Duration) (asked : Nat) :
    List Duration → Client (Arrival × Bytes × Nat)
  | [] =>
      .ask (.readFrom handle buffer wait) fun delivery =>
        let filled := Bytes.overlay delivery.received buffer
        match arrival? buffer.length delivery with
        | some arrival => .done (arrival, filled, asked)
        | none => .done (.timeout, filled, asked + 1)
  | extension :: rest =>
      .ask (.readFrom handle buffer wait) fun delivery =>
        let filled := Bytes.overlay delivery.received buffer
        match arrival? buffer.length delivery with
        | some arrival => .done (arrival, filled, asked)
        | none =>
            if extension.isZero then .done (.timeout, filled, asked + 1)
            else await handle filled (some extension) (asked + 1) rest

/-- Waits for a delivery with the extensions of a deadline. Without extensions none is asked
for. -/
def awaitWith (handle : Handle) (buffer : Bytes) (wait : Option Duration) :
    Option (List Duration) → Client (Arrival × Bytes × Nat)
  | some extensions => await handle buffer wait 0 extensions
  | none => (await handle buffer wait 0 []).andThen fun arrived => .done (arrived.1, arrived.2.1, 0)

def newline : UInt8 := 10

/-- Hands out the next piece of what is pending: the bytes before the next newline, which is
dropped, or all of them. -/
def takeLine (reader : LineReader) : String × LineReader :=
  let piece := reader.pending.takeWhile (· != newline)
  match reader.pending.drop piece.length with
  | [] =>
      (Utf8.decodeLossy piece,
        { reader with consumed := reader.consumed + piece.length, pending := [] })
  | _ :: rest =>
      (Utf8.decodeLossy piece,
        { reader with consumed := reader.consumed + piece.length + 1, pending := rest })

/-- One step: the next line that is pending, or the outcome of a wait for more. The last part of
the answer is the number of extensions that were asked for. -/
def advance (reader : LineReader) (deadline : Option Deadline) :
    Client (Option LineEvent × LineReader × Nat) :=
  if reader.finished then .done (none, reader, 0)
  else if !reader.pending.isEmpty then
    let (line, reader) := reader.takeLine
    .done (some (.line line), reader, 0)
  else
    let (wait, extensions) := Deadline.waits deadline
    (awaitWith reader.handle reader.buffer wait extensions).andThen fun (arrival, buffer, asked) =>
      let reader := { reader with buffer := buffer, consumed := 0, pending := [] }
      match arrival with
      | .data count =>
          let (line, reader) := { reader with pending := buffer.take count }.takeLine
          .done (some (.line line), reader, asked)
      | .timeout => .done (some .timeout, reader, asked)
      | .nothing => .done (none, { reader with finished := true }, asked)

/-- The next line without a deadline. A timeout that a server answers all the same ends this
step. -/
def next (reader : LineReader) : Client (Option String × LineReader) :=
  (reader.advance none).andThen fun (event, reader, _) =>
    match event with
    | some (.line line) => .done (some line, reader)
    | some .timeout => .done (none, reader)
    | none => .done (none, reader)

def take (count : Nat) (reader : LineReader) : Client (List String × LineReader) :=
  loop count [] reader
where
  loop : Nat → List String → LineReader → Client (List String × LineReader)
    | 0, lines, reader => .done (lines.reverse, reader)
    | count + 1, lines, reader =>
        reader.next.andThen fun (line, reader) =>
          match line with
          | some line => loop count (line :: lines) reader
          | none => .done (lines.reverse, reader)

def text (reader : LineReader) : String :=
  "LineIter \x7b path: " ++ Text.quoted reader.path ++ ", pos: " ++ toString reader.consumed ++
    ", len: " ++ toString (reader.consumed + reader.pending.length) ++ ", capacity: " ++
    toString reader.buffer.length ++ ", .. \x7d"

end LineReader

end RemoteTree
