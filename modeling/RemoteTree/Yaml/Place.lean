/-!
# Places in a text

Reading a YAML text character by character, with the line and column that faults report and that
indentation is measured by. Beyond the end of a text every character reads as NUL, which no text
that may be read holds.
-/

set_option autoImplicit false

namespace RemoteTree.Yaml

/-- Why a text cannot be read, and the line and column, counted from one, where that shows. -/
structure Fault where
  problem : String
  position : Option (Nat × Nat)
  deriving DecidableEq, Repr

namespace Fault

/-- A fault of what a text says, which is at no one place. -/
def meaning (problem : String) : Fault := ⟨problem, none⟩

def message (fault : Fault) : String :=
  match fault.position with
  | some (line, column) =>
      fault.problem ++ " at line " ++ toString line ++ " column " ++ toString column
  | none => fault.problem

end Fault

def endMark : Char := '\x00'

def isAllowed (character : Char) : Bool :=
  let code := character.toNat
  code == 0x09 || code == 0x0A || code == 0x0D || (0x20 ≤ code && code ≤ 0x7E) || code == 0x85 ||
    (0xA0 ≤ code && code ≤ 0xD7FF) || (0xE000 ≤ code && code ≤ 0xFFFD) || 0x10000 ≤ code

def isBlank (character : Char) : Bool := character == ' ' || character == '\t'

def isBreak (character : Char) : Bool :=
  character == '\n' || character == '\r' || character == '\x85' || character == '\u2028' ||
    character == '\u2029'

/-- Is the character a line break or the end of the text? -/
def isBreakOrEnd (character : Char) : Bool := isBreak character || character == endMark

/-- Does the character, or the end of the text, separate words? -/
def isGap (character : Char) : Bool := isBlank character || isBreakOrEnd character

/-- May the character stand in the name of an anchor, a directive or a tag handle? -/
def isNameCharacter (character : Char) : Bool :=
  character.isAlphanum || character == '_' || character == '-'

def byteOrderMark : Char := '\ufeff'

def hexValue? (character : Char) : Option Nat :=
  let code := character.toNat
  if character.isDigit then some (code - 0x30)
  else if 0x41 ≤ code ∧ code ≤ 0x46 then some (code - 0x37)
  else if 0x61 ≤ code ∧ code ≤ 0x66 then some (code - 0x57)
  else none

/-- A place in a text: what comes, and how far it is from the start of the text and of the line.
Lines and columns count from zero. -/
structure Place where
  rest : List Char
  index : Nat
  line : Nat
  column : Nat

namespace Place

def start (text : List Char) : Place := ⟨text, 0, 0, 0⟩

def first (place : Place) : Char :=
  match place.rest with
  | [] => endMark
  | character :: _ => character

def second (place : Place) : Char :=
  match place.rest with
  | _ :: character :: _ => character
  | _ => endMark

def fault (place : Place) (problem : String) : Fault :=
  ⟨problem, some (place.line + 1, place.column + 1)⟩

def skip (place : Place) (count : Nat) : Place :=
  { place with
    rest := place.rest.drop count
    index := place.index + count
    column := place.column + count }

/-- The run of characters of a kind that starts here, and the place after it. -/
def takeWhile (place : Place) (accepts : Char → Bool) : List Char × Place :=
  let run := place.rest.takeWhile accepts
  (run, place.skip run.length)

def skipWhile (place : Place) (accepts : Char → Bool) : Place := (place.takeWhile accepts).2

/-- The start of the line after a break of some characters. -/
def nextLine (place : Place) (rest : List Char) (count : Nat) : Place :=
  ⟨rest, place.index + count, place.line + 1, 0⟩

/-- The line break that stands here, as it counts in a text, and the place after it. A carriage
return and a newline are one break. -/
def takeBreak? (place : Place) : Option (Char × Place) :=
  match place.rest with
  | '\r' :: '\n' :: rest => some ('\n', place.nextLine rest 2)
  | character :: rest =>
      if character == '\u2028' || character == '\u2029' then
        some (character, place.nextLine rest 1)
      else if isBreak character then some ('\n', place.nextLine rest 1)
      else none
  | [] => none

def skipBreak (place : Place) : Place :=
  match place.takeBreak? with
  | some (_, next) => next
  | none => place

def skipComment (place : Place) : Place :=
  let place := place.skipWhile isBlank
  if place.first == '#' then place.skipWhile fun character => !isBreak character else place

/-- Does a line start here that holds three equal characters and then a gap? -/
def isMarker (place : Place) (character : Char) : Bool :=
  place.column == 0 &&
    match place.rest with
    | one :: two :: three :: rest =>
        one == character && two == character && three == character &&
          isGap (rest.head?.getD endMark)
    | _ => false

/-- Does a line start here that starts or ends a document? -/
def isDocumentMarker (place : Place) : Bool := place.isMarker '-' || place.isMarker '.'

end Place

end RemoteTree.Yaml
