import RemoteTree.Table
import RemoteTree.Text.Characters
import RemoteTree.Text.Utf8

/-!
# Environment files

Files of assignments to environment variables, `NAME=value` on a line. Values may be quoted, hold
line breaks between quotation marks, and refer to other variables. Reading stops at the first
statement that is none; what comes before it counts.
-/

set_option autoImplicit false

namespace RemoteTree.EnvFile

/-- A part of a value: text, or the value of a variable. -/
inductive Piece where
  | literal (text : String)
  | variable (name : String)
  deriving DecidableEq, Repr

/-- An assignment to a variable. -/
structure Assignment where
  name : String
  value : List Piece
  deriving DecidableEq, Repr

/-- Where the scan for the end of a statement stands with regard to quotation marks. -/
inductive Quoting where
  | outside
  | afterBlank
  | escaped
  | single
  | singleEscaped
  | double
  | doubleEscaped
  deriving DecidableEq, Repr

def singleMark : Char := '\x27'

def Quoting.opened (character : Char) : Quoting :=
  if character = '\\' then .escaped
  else if character = '"' then .double
  else if character = singleMark then .single
  else .outside

def Quoting.next (quoting : Quoting) (character : Char) : Quoting :=
  match quoting with
  | .outside =>
      if Text.isBlank character && character != '\n' && character != '\r' then .afterBlank
      else Quoting.opened character
  | .afterBlank => Quoting.opened character
  | .escaped => .outside
  | .single =>
      if character = '\\' then .singleEscaped
      else if character = singleMark then .outside
      else .single
  | .singleEscaped => .single
  | .double =>
      if character = '\\' then .doubleEscaped
      else if character = '"' then .outside
      else .double
  | .doubleEscaped => .double

/-- Scans a line: what it holds in front of a comment, and how the scan ends if no comment does. A
comment starts behind a blank. Characters come in reverse. -/
def scanLine : Quoting → List Char → List Char → List Char × Option Quoting
  | quoting, read, [] => (read, some quoting)
  | quoting, read, character :: rest =>
      if quoting = .afterBlank ∧ character = '#' then (read, none)
      else scanLine (quoting.next character) (character :: read) rest

/-- A line without the break at its end. Lines come in reverse. -/
def withoutBreak : List Char → List Char
  | '\n' :: '\r' :: rest => rest
  | '\n' :: rest => rest
  | line => line

def isComment (statement : List Char) : Bool :=
  (Text.skipBlanks statement).head? == some '#'

/-- The statements of some lines. `read` holds, in reverse, the lines so far of a statement that
goes on. What cannot be read ends the statements. -/
def statementsOf : List Bytes → Quoting → List Char → List (Option (List Char))
  | [], quoting, _ => if quoting = .outside then [] else [none]
  | line :: rest, quoting, read =>
      match Utf8.decode? line with
      | none => [none]
      | some text =>
          if isComment (read.reverse ++ text.toList) then statementsOf rest .outside []
          else
            match scanLine quoting read text.toList with
            | (read, none) => some read.reverse :: statementsOf rest .outside []
            | (read, some .outside) =>
                some (withoutBreak read).reverse :: statementsOf rest .outside []
            | (read, some quoting) => statementsOf rest quoting read

/-- The lines of a file, each with its newline. `line` holds, in reverse, what has been read of the
next one. -/
def linesOf : Bytes → Bytes → List Bytes
  | [], line => if line.isEmpty then [] else [line.reverse]
  | byte :: rest, line =>
      if byte = 10 then (byte :: line).reverse :: linesOf rest [] else linesOf rest (byte :: line)

def withoutMark : Bytes → Bytes
  | 0xEF :: 0xBB :: 0xBF :: rest => rest
  | bytes => bytes

def statements (file : Bytes) : List (Option (List Char)) :=
  statementsOf (linesOf (withoutMark file) []) .outside []

def startsName (character : Char) : Bool := character.isAlpha || character == '_'

def isNameCharacter (character : Char) : Bool :=
  character.isAlphanum || character == '_' || character == '.'

/-- The name at the start of a statement, and what follows behind blanks. -/
def name? (statement : List Char) : Option (String × List Char) :=
  match statement with
  | character :: _ =>
      if startsName character then
        let name := statement.takeWhile isNameCharacter
        some (String.ofList name, Text.skipBlanks (statement.drop name.length))
      else none
  | [] => none

def afterEquals? : List Char → Option (List Char)
  | '=' :: rest => some rest
  | _ => none

/-- How a reference to a variable is written. -/
inductive Reference where
  | bare
  | braced
  deriving DecidableEq, Repr

/-- A value as far as it has been read: its pieces, the text behind them and the name of the
reference under way, all in reverse, and whether a single or double quotation mark is open, a
backslash came last, and the value has ended. -/
structure Reading where
  pieces : List Piece := []
  text : List Char := []
  reference : Option (Reference × List Char) := none
  inSingle : Bool := false
  inDouble : Bool := false
  escaped : Bool := false
  ended : Bool := false

namespace Reading

def add (reading : Reading) (character : Char) : Reading :=
  { reading with text := character :: reading.text }

def closeText (reading : Reading) : Reading :=
  if reading.text.isEmpty then reading
  else
    { reading with
      pieces := .literal (String.ofList reading.text.reverse) :: reading.pieces
      text := [] }

def closeReference (reading : Reading) (name : List Char) : Reading :=
  let reading := reading.closeText
  { reading with
    pieces := .variable (String.ofList name.reverse) :: reading.pieces
    reference := none }

def takeEscaped (reading : Reading) (character : Char) : Option Reading :=
  let reading := { reading with escaped := false }
  if character = 'n' then some (reading.add '\n')
  else if character = '\\' ∨ character = singleMark ∨ character = '"' ∨ character = '$' ∨
      character = ' ' then
    some (reading.add character)
  else none

/-- Takes in a character of a reference. A bare reference ends with the first character that is
no letter or digit. -/
def takeReference (reading : Reading) (form : Reference) (name : List Char) (character : Char) :
    Reading :=
  if Text.isAlphanumeric character then
    { reading with reference := some (form, character :: name) }
  else
    match form with
    | .bare =>
        if character = '\x7b' ∧ name = [] then { reading with reference := some (.braced, []) }
        else if character = '$' then
          { reading.closeReference name with reference := some (.bare, []) }
        else (reading.closeReference name).add character
    | .braced =>
        if character = '\x7d' then reading.closeReference name
        else { reading with reference := some (.braced, character :: name) }

/-- Takes in a character outside single quotation marks and references. -/
def takeOpen (reading : Reading) (character : Char) : Reading :=
  if character = '$' then { reading with reference := some (.bare, []) }
  else if character = '\\' then { reading with escaped := true }
  else if reading.inDouble then
    if character = '"' then { reading with inDouble := false } else reading.add character
  else if character = singleMark then { reading with inSingle := true }
  else if character = '"' then { reading with inDouble := true }
  else if character = ' ' ∨ character = '\t' then { reading with ended := true }
  else reading.add character

def take (reading : Reading) (character : Char) : Option Reading :=
  if reading.escaped then reading.takeEscaped character
  else if reading.inSingle then
    some (if character = singleMark then { reading with inSingle := false }
      else reading.add character)
  else
    match reading.reference with
    | some (form, name) => some (reading.takeReference form name character)
    | none => some (reading.takeOpen character)

def finish (reading : Reading) : Option (List Piece) :=
  match reading.reference with
  | some (.braced, _) => none
  | some (.bare, name) =>
      if reading.inSingle || reading.inDouble then none
      else some (reading.closeReference name).pieces.reverse
  | none =>
      if reading.inSingle || reading.inDouble then none else some reading.closeText.pieces.reverse

end Reading

/-- The pieces of a value. Behind its end only blanks and a comment may stand. -/
def valueFrom : Reading → List Char → Option (List Piece)
  | reading, [] => reading.finish
  | reading, character :: rest =>
      if reading.ended then
        if character = ' ' ∨ character = '\t' then valueFrom reading rest
        else if character = '#' then reading.finish
        else none
      else
        match reading.take character with
        | some reading => valueFrom reading rest
        | none => none

/-- The name that a statement assigns to, and what follows the equals sign. The word `export` may
stand in front of the name, and may be a name itself. -/
def target? (statement : List Char) : Option (String × List Char) := do
  let (name, rest) ← name? statement
  match afterEquals? rest with
  | some value => return (name, value)
  | none =>
      if name = "export" then
        let (name, rest) ← name? rest
        return (name, ← afterEquals? rest)
      else none

/-- Reads a statement. The outer answer is none if it is no statement, the inner one if it says
nothing. -/
def assignment? (statement : List Char) : Option (Option Assignment) :=
  let statement := Text.skipBlanks (Text.dropBlanksAtEnd statement)
  if statement.isEmpty || statement.head? == some '#' then some none
  else do
    let (name, rest) ← target? statement
    let value := Text.skipBlanks rest
    if value.isEmpty || value.head? == some '#' then return some ⟨name, []⟩
    else return some ⟨name, ← valueFrom {} value⟩

/-- The assignments in front of the first statement that is none. -/
def assignmentsOf : List (Option (List Char)) → List Assignment
  | some statement :: rest =>
      match assignment? statement with
      | some (some assignment) => assignment :: assignmentsOf rest
      | some none => assignmentsOf rest
      | none => []
  | _ => []

def assignments (file : Bytes) : List Assignment := assignmentsOf (statements file)

section

variable {World : Type → Type} [Monad World]

/-- The value of a variable: the one that is set, or else the one that the file has added, or else
the empty text. -/
def lookUp (valueOf : String → World (Option String)) (added : Table String String)
    (name : String) : World String := do
  match ← valueOf name with
  | some value => return value
  | none => return (Table.find? name added).getD ""

def expand (valueOf : String → World (Option String)) (added : Table String String) :
    List Piece → World String
  | [] => return ""
  | .literal text :: rest => return text ++ (← expand valueOf added rest)
  | .variable name :: rest => do
      let value ← lookUp valueOf added name
      return value ++ (← expand valueOf added rest)

/-- Makes an assignment. A variable that has a value keeps it. -/
def assign (valueOf : String → World (Option String)) (added : Table String String)
    (assignment : Assignment) : World (Table String String) := do
  let isSet := (← valueOf assignment.name).isSome || (Table.find? assignment.name added).isSome
  if isSet then return added
  else return Table.insert assignment.name (← expand valueOf added assignment.value) added

/-- The variables that a file adds to those that are set. -/
def load (valueOf : String → World (Option String)) (file : Bytes) :
    World (Table String String) :=
  (assignments file).foldlM (assign valueOf) []

end

end RemoteTree.EnvFile
