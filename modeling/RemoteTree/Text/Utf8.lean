import RemoteTree.Bytes

/-!
# UTF-8

Text as bytes and bytes as text. Reading is strict, refusing bytes that are no text, or lossy:
then every longest run of bytes that starts a character without finishing it, and every byte
that starts none, becomes one replacement character.
-/

set_option autoImplicit false

namespace RemoteTree.Utf8

def encodeChars (characters : List Char) : Bytes :=
  characters.flatMap String.utf8EncodeChar

def encode (text : String) : Bytes := encodeChars text.toList

/-- What the first byte of a character of several bytes promises: the bits that it carries, the
range of the second byte, and the number of bytes after the second. -/
structure Lead where
  bits : Nat
  low : UInt8
  high : UInt8
  more : Nat

/-- The promise of a first byte, if the byte starts a character of several bytes. The ranges
leave out overlong forms, surrogates and everything above the last code point. -/
def lead? (byte : UInt8) : Option Lead :=
  if byte < 0xC2 then none
  else if byte ≤ 0xDF then some ⟨byte.toNat - 0xC0, 0x80, 0xBF, 0⟩
  else if byte = 0xE0 then some ⟨0, 0xA0, 0xBF, 1⟩
  else if byte = 0xED then some ⟨0x0D, 0x80, 0x9F, 1⟩
  else if byte ≤ 0xEF then some ⟨byte.toNat - 0xE0, 0x80, 0xBF, 1⟩
  else if byte = 0xF0 then some ⟨0, 0x90, 0xBF, 2⟩
  else if byte ≤ 0xF3 then some ⟨byte.toNat - 0xF0, 0x80, 0xBF, 2⟩
  else if byte = 0xF4 then some ⟨4, 0x80, 0x8F, 2⟩
  else none

/-- Reads the bytes that a character still owes. The answer is the character, or none if a byte
that it owes is missing, and the number of bytes that were used. -/
def readOwed : Nat → Nat → Nat → Bytes → Option Char × Nat
  | 0, value, used, _ => (some (Char.ofNat value), used)
  | _ + 1, _, used, [] => (none, used)
  | owed + 1, value, used, byte :: rest =>
      if 0x80 ≤ byte ∧ byte ≤ 0xBF then
        readOwed owed (64 * value + byte.toNat % 64) (used + 1) rest
      else (none, used)

/-- Reads the character that starts with a given byte. The answer is the character, or none if
the bytes form none, and the number of further bytes that belong to it or to its broken start. -/
def readFirst (byte : UInt8) (rest : Bytes) : Option Char × Nat :=
  if byte < 0x80 then (some (Char.ofNat byte.toNat), 0)
  else
    match lead? byte, rest with
    | some lead, second :: rest =>
        if lead.low ≤ second ∧ second ≤ lead.high then
          readOwed lead.more (64 * lead.bits + second.toNat % 64) 1 rest
        else (none, 0)
    | _, _ => (none, 0)

def replacement : Char := Char.ofNat 0xFFFD

/-- Lossy reading after `skip` bytes that belong to a character already read. The characters
read so far come in reverse. -/
def readLossy : Nat → Bytes → List Char → List Char
  | _, [], read => read.reverse
  | skip + 1, _ :: rest, read => readLossy skip rest read
  | 0, byte :: rest, read =>
      let (character, used) := readFirst byte rest
      readLossy used rest (character.getD replacement :: read)

/-- The text of some bytes, with the replacement character for what is no text. -/
def decodeLossy (bytes : Bytes) : String := String.ofList (readLossy 0 bytes [])

/-- Strict reading, in the form of `readLossy`. -/
def readStrict : Nat → Bytes → List Char → Option (List Char)
  | _, [], read => some read.reverse
  | skip + 1, _ :: rest, read => readStrict skip rest read
  | 0, byte :: rest, read =>
      match readFirst byte rest with
      | (some character, used) => readStrict used rest (character :: read)
      | (none, _) => none

/-- The text whose bytes are given, if they are those of a text. -/
def decode? (bytes : Bytes) : Option String := (readStrict 0 bytes []).map String.ofList

def ordered (left right : String) : Bool := encode left ≤ encode right

end RemoteTree.Utf8
