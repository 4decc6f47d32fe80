import RemoteTree.Text.Utf8
import RemoteTree.Yaml.Token

/-!
# Tags, anchors and directives

The properties that stand in front of a node, and the lines that declare a version or the handle
of a tag.
-/

set_option autoImplicit false

namespace RemoteTree.Yaml.Property

/-- May the character stand in the identifier of a tag? -/
def isTagCharacter (character : Char) : Bool :=
  isNameCharacter character || character == ';' || character == '/' || character == '?' ||
    character == ':' || character == '@' || character == '&' || character == '=' ||
    character == '+' || character == '$' || character == '.' || character == '%' ||
    character == '!' || character == '~' || character == '*' || character == '\x27' ||
    character == '(' || character == ')'

/-- May the character stand in the identifier of a tag between angle brackets or in a directive?
Commas and square brackets may, too. -/
def isWideTagCharacter (character : Char) : Bool :=
  isTagCharacter character || character == ',' || character == '[' || character == ']'

/-- The number of bytes of the character that starts with a byte. -/
def byteCount? (byte : Nat) : Option Nat :=
  if byte < 0x80 then some 1
  else if byte < 0xC0 then none
  else if byte < 0xE0 then some 2
  else if byte < 0xF0 then some 3
  else if byte < 0xF8 then some 4
  else none

/-- The byte that an escape of a percent sign and two digits stands for. -/
def escapedByte? (place : Place) : Option Nat :=
  match place.rest with
  | '%' :: high :: low :: _ => ofDigits? high low
  | _ => none
where
  ofDigits? (high low : Char) : Option Nat := do return 16 * (← hexValue? high) + (← hexValue? low)

/-- Reads the bytes that a character still owes, each as an escape. -/
def readOwed : Nat → Bytes → Place → Except Fault (Bytes × Place)
  | 0, bytes, place => .ok (bytes, place)
  | owed + 1, bytes, place =>
      match escapedByte? place with
      | some byte =>
          if 0x80 ≤ byte ∧ byte < 0xC0 then
            readOwed owed (UInt8.ofNat byte :: bytes) (place.skip 3)
          else .error (place.fault "found an incorrect trailing octet in a tag")
      | none => .error (place.fault "did not find an escaped octet in a tag")

/-- Reads a character that is written in escapes. Bytes come in reverse. -/
def readEscapes (bytes : Bytes) (place : Place) : Except Fault (Bytes × Place) :=
  match escapedByte? place with
  | some byte =>
      match byteCount? byte with
      | some count => readOwed (count - 1) (UInt8.ofNat byte :: bytes) (place.skip 3)
      | none => .error (place.fault "found an incorrect leading octet in a tag")
  | none => .error (place.fault "did not find an escaped octet in a tag")

/-- Reads the characters of an identifier. Bytes come in reverse. -/
def readCharacters (accepts : Char → Bool) :
    Nat → Bytes → Place → Except Fault (Bytes × Place)
  | 0, bytes, place => .ok (bytes, place)
  | limit + 1, bytes, place =>
      if accepts place.first then
        if place.first == '%' then
          match readEscapes bytes place with
          | .ok (bytes, next) => readCharacters accepts limit bytes next
          | .error fault => .error fault
        else
          readCharacters accepts limit ((Utf8.encodeChars [place.first]).reverse ++ bytes)
            (place.skip 1)
      else .ok (bytes, place)

/-- Reads an identifier behind the characters in `head` that belong to it, which may be all. -/
def readIdentifier (limit : Nat) (accepts : Char → Bool) (mayBeEmpty : Bool)
    (head : List Char) (place : Place) : Except Fault (String × Place) := do
  let (bytes, next) ← readCharacters accepts limit [] place
  if bytes.isEmpty && !mayBeEmpty then throw (place.fault "did not find expected tag")
  else return (String.ofList head ++ Utf8.decodeLossy bytes.reverse, next)

/-- Reads what may be the handle of a tag: an exclamation mark and a name, with a second mark if
there is one. -/
def readHandle (place : Place) : Except Fault (List Char × Place) :=
  if place.first == '!' then
    let (name, next) := (place.skip 1).takeWhile isNameCharacter
    if next.first == '!' then .ok ('!' :: name ++ ['!'], next.skip 1)
    else .ok ('!' :: name, next)
  else .error (place.fault "did not find expected exclamation mark")

def isHandle (handle : List Char) : Bool := 1 < handle.length && handle.getLast? == some '!'

/-- Reads the identifier of a tag between angle brackets. -/
def readVerbatim (limit : Nat) (place : Place) : Except Fault (Token × Place) := do
  let (suffix, next) ← readIdentifier limit isWideTagCharacter false [] (place.skip 2)
  if next.first == '>' then return (.tag "" suffix, next.skip 1)
  else throw (next.fault "did not find the end of a tag")

/-- Reads the parts of a tag without angle brackets. An exclamation mark alone is a tag. -/
def readShorthand (limit : Nat) (place : Place) : Except Fault (Token × Place) := do
  let (handle, next) ← readHandle place
  if isHandle handle then
    let (suffix, next) ← readIdentifier limit isTagCharacter false [] next
    return (.tag (String.ofList handle) suffix, next)
  else
    let (suffix, next) ← readIdentifier limit isTagCharacter true (handle.drop 1) next
    if suffix.isEmpty then return (.tag "" "!", next) else return (.tag "!" suffix, next)

/-- Reads a tag, which ends at a gap or, between brackets, at a comma. -/
def readTag (limit : Nat) (inFlow : Bool) (place : Place) : Except Fault (Token × Place) := do
  let (token, next) ←
    if place.second == '<' then readVerbatim limit place else readShorthand limit place
  if (inFlow && next.first == ',') || isGap next.first then return (token, next)
  else throw (next.fault "did not find expected whitespace or line break after a tag")

def endsAnchor (character : Char) : Bool :=
  isGap character || character == '?' || character == ':' || character == ',' ||
    character == ']' || character == '\x7d' || character == '%' || character == '@' ||
    character == '\x60'

/-- Reads the name behind the indicator of an anchor or an alias. -/
def readAnchor (place : Place) : Except Fault (String × Place) :=
  let (name, next) := (place.skip 1).takeWhile isNameCharacter
  if !name.isEmpty && endsAnchor next.first then .ok (String.ofList name, next)
  else .error (next.fault "did not find expected alphabetic or numeric character")

/-- Reads one number of a version, of at most nine digits. -/
def readVersionNumber (place : Place) : Except Fault (Nat × Place) :=
  let (digits, next) := place.takeWhile Char.isDigit
  if digits.isEmpty || 9 < digits.length then
    .error (place.fault "did not find expected version number")
  else .ok (digits.foldl (fun number digit => 10 * number + (digit.toNat - 0x30)) 0, next)

def readVersion (place : Place) : Except Fault (Token × Place) := do
  let (major, next) ← readVersionNumber (place.skipWhile isBlank)
  if next.first == '.' then
    let (minor, next) ← readVersionNumber (next.skip 1)
    return (.version major minor, next)
  else throw (next.fault "did not find expected digit or dot in a version")

def readTagDirective (limit : Nat) (place : Place) : Except Fault (Token × Place) := do
  let (handle, next) ← readHandle (place.skipWhile isBlank)
  if handle ≠ ['!'] ∧ !isHandle handle then
    throw (next.fault "did not find expected exclamation mark")
  else if !isBlank next.first then throw (next.fault "did not find expected whitespace")
  else
    let (stem, next) ←
      readIdentifier limit isWideTagCharacter false [] (next.skipWhile isBlank)
    if isGap next.first then return (.tagDirective (String.ofList handle) stem, next)
    else throw (next.fault "did not find expected whitespace or line break")

def readDirective (limit : Nat) (place : Place) : Except Fault (Token × Place) := do
  let (name, next) := (place.skip 1).takeWhile isNameCharacter
  if name.isEmpty then throw (next.fault "could not find expected directive name")
  else if !isGap next.first then
    throw (next.fault "found unexpected character in the name of a directive")
  else
    let (token, next) ←
      if name = ['Y', 'A', 'M', 'L'] then readVersion next
      else if name = ['T', 'A', 'G'] then readTagDirective limit next
      else throw (next.fault "found unknown directive name")
    let next := next.skipComment
    if isBreakOrEnd next.first then return (token, next.skipBreak)
    else throw (next.fault "did not find expected comment or line break after a directive")

end RemoteTree.Yaml.Property
