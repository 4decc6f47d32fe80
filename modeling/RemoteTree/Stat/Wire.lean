import RemoteTree.Stat.Basic
import RemoteTree.Text.Utf8

/-!
# The wire form of stat records

A record is its size in two bytes and a body of that size. The body holds the fields in order,
numbers in little-endian form and texts behind their length in two bytes; a reader skips what a
body holds after the last field. Directories are read as records back to back.
-/

set_option autoImplicit false

namespace RemoteTree

/-- What a cut-off record lacks: a field that starts at `offset` needs more bytes than are left.
Inside a body the offset counts from the start of the body. -/
structure Shortfall where
  offset : Nat
  needed : Nat
  available : Nat
  deriving DecidableEq, Repr

namespace Shortfall

def message (shortfall : Shortfall) : String :=
  "stat record truncated: needed " ++ toString shortfall.needed ++ " bytes at offset " ++
    toString shortfall.offset ++ ", " ++ toString shortfall.available ++ " available"

end Shortfall

/-- A place in a message: its offset, and the bytes from there on. -/
structure Cursor where
  offset : Nat
  rest : Bytes
  deriving DecidableEq, Repr

namespace Cursor

/-- The place at an offset of a message. Past the end nothing is left. -/
def at? (message : Bytes) (offset : Nat) : Cursor := ⟨offset, message.drop offset⟩

/-- The next bytes, which must all be there. -/
def take (cursor : Cursor) (count : Nat) : Except Shortfall (Bytes × Cursor) :=
  if cursor.rest.length < count then
    .error { offset := cursor.offset, needed := count, available := cursor.rest.length }
  else
    .ok (cursor.rest.take count, ⟨cursor.offset + count, cursor.rest.drop count⟩)

def number (cursor : Cursor) (width : Nat) : Except Shortfall (Nat × Cursor) :=
  match cursor.take width with
  | .ok (bytes, next) => .ok (bytes.toNumber, next)
  | .error shortfall => .error shortfall

/-- The next text, behind its length. -/
def text (cursor : Cursor) : Except Shortfall (String × Cursor) :=
  match cursor.number 2 with
  | .error shortfall => .error shortfall
  | .ok (length, next) =>
      match next.take length with
      | .error shortfall => .error shortfall
      | .ok (bytes, last) => .ok (Utf8.decodeLossy bytes, last)

end Cursor

namespace Qid

/-- The wire form of an identity, thirteen bytes. -/
def encode (qid : Qid) : Bytes :=
  Bytes.littleEndian 1 qid.kind.toNat ++ Bytes.littleEndian 4 qid.version.toNat ++
    Bytes.littleEndian 8 qid.path.toNat

end Qid

namespace Stat

def largestSize : Nat := 65535

/-- A text behind its length. A text that is longer than a length can say is cut. -/
def encodeText (text : String) : Bytes :=
  let bytes := Utf8.encode text
  let length := min bytes.length largestSize
  Bytes.littleEndian 2 length ++ bytes.take length

def encodeBody (stat : Stat) : Bytes :=
  Bytes.littleEndian 2 stat.type.toNat ++ Bytes.littleEndian 4 stat.device.toNat ++
    stat.qid.encode ++ Bytes.littleEndian 4 stat.mode.toNat ++
    Bytes.littleEndian 4 stat.accessTime.toNat ++ Bytes.littleEndian 4 stat.changeTime.toNat ++
    Bytes.littleEndian 8 stat.length.toNat ++ encodeText stat.name ++ encodeText stat.owner ++
    encodeText stat.group ++ encodeText stat.changedBy

/-- The wire form of a record. A body that is longer than a size can say gets the largest size. -/
def encode (stat : Stat) : Bytes :=
  let body := stat.encodeBody
  Bytes.littleEndian 2 (min body.length largestSize) ++ body

def decodeBody (body : Bytes) : Except Shortfall Stat := do
  let (type, cursor) ← (Cursor.mk 0 body).number 2
  let (device, cursor) ← cursor.number 4
  let (kind, cursor) ← cursor.number 1
  let (version, cursor) ← cursor.number 4
  let (path, cursor) ← cursor.number 8
  let (mode, cursor) ← cursor.number 4
  let (accessTime, cursor) ← cursor.number 4
  let (changeTime, cursor) ← cursor.number 4
  let (length, cursor) ← cursor.number 8
  let (name, cursor) ← cursor.text
  let (owner, cursor) ← cursor.text
  let (group, cursor) ← cursor.text
  let (changedBy, _) ← cursor.text
  return {
    type := UInt16.ofNat type
    device := UInt32.ofNat device
    qid := ⟨UInt8.ofNat kind, UInt32.ofNat version, UInt64.ofNat path⟩
    mode := UInt32.ofNat mode
    accessTime := UInt32.ofNat accessTime
    changeTime := UInt32.ofNat changeTime
    length := UInt64.ofNat length
    name := name
    owner := owner
    group := group
    changedBy := changedBy }

/-- The record at a cursor, and the place after it. -/
def decodeNext (cursor : Cursor) : Except Shortfall (Stat × Cursor) := do
  let (size, cursor) ← cursor.number 2
  let (body, cursor) ← cursor.take size
  let stat ← decodeBody body
  return (stat, cursor)

/-- The record at an offset of a message, and the offset after it. -/
def decodeAt (message : Bytes) (offset : Nat) : Except Shortfall (Stat × Nat) := do
  let (stat, cursor) ← decodeNext (Cursor.at? message offset)
  return (stat, cursor.offset)

def decode (message : Bytes) : Except Shortfall Stat := do
  let (stat, _) ← decodeAt message 0
  return stat

end Stat

end RemoteTree
