import RemoteTree.Yaml.Place

/-!
# Block scalars

Scalars of whole indented lines. Literal ones keep their line breaks; folded ones join lines that
neither start nor end a deeper indented part. The header says what becomes of the line breaks at
the end, and may say how deep the lines are indented.
-/

set_option autoImplicit false

namespace RemoteTree.Yaml.Block

/-- What becomes of the line breaks at the end of a scalar. -/
inductive Ending where
  | dropped
  | single
  | kept
  deriving DecidableEq, Repr

/-- The header of a scalar: what becomes of its end, and how much deeper than the block around it
its lines are indented, where the header says so. -/
structure Header where
  ending : Ending
  deeper : Option Nat

def ending? : Char → Option Ending
  | '+' => some .kept
  | '-' => some .dropped
  | _ => none

/-- The indentation that a digit asks for, which is not zero. -/
def deeper? (place : Place) : Except Fault (Option Nat) :=
  if place.first == '0' then
    .error (place.fault "found an indentation indicator equal to 0")
  else if place.first.isDigit then .ok (some (place.first.toNat - 0x30))
  else .ok none

/-- Reads the two indicators of a header, which come in either order. -/
def readIndicators (place : Place) : Except Fault (Header × Place) :=
  match ending? place.first with
  | some ending => do
      let place := place.skip 1
      match ← deeper? place with
      | some deeper => return (⟨ending, some deeper⟩, place.skip 1)
      | none => return (⟨ending, none⟩, place)
  | none => do
      match ← deeper? place with
      | some deeper =>
          let place := place.skip 1
          match ending? place.first with
          | some ending => return (⟨ending, some deeper⟩, place.skip 1)
          | none => return (⟨.single, some deeper⟩, place)
      | none => return (⟨.single, none⟩, place)

def readHeader (place : Place) : Except Fault (Header × Place) := do
  let (header, place) ← readIndicators place
  let place := place.skipComment
  if isBreakOrEnd place.first then return (header, place.skipBreak)
  else throw (place.fault "did not find expected comment or line break after a block scalar header")

/-- Reads empty lines and the indentation of the next line, which is `indent` where that is known.
Gives the line breaks in reverse and the deepest column that was reached. -/
def readBreaks (indent : Option Nat) :
    Nat → List Char → Nat → Place → Except Fault (List Char × Nat × Place)
  | 0, breaks, deepest, place => .ok (breaks, deepest, place)
  | limit + 1, breaks, deepest, place =>
      let spaces := (place.rest.takeWhile (· == ' ')).length
      let count :=
        match indent with
        | some indent => min spaces (indent - place.column)
        | none => spaces
      let place := place.skip count
      let deepest := max deepest place.column
      let isShort :=
        match indent with
        | some indent => decide (place.column < indent)
        | none => true
      if isShort && place.first == '\t' then
        .error (place.fault "found a tab character where an indentation space is expected")
      else
        match place.takeBreak? with
        | some (lineBreak, next) => readBreaks indent limit (lineBreak :: breaks) deepest next
        | none => .ok (breaks, deepest, place)

/-- Reads the lines of a scalar. `text` has been read, `lineBreak` is the break behind it and
`breaks` are those of the empty lines after it, all in reverse; `afterBlank` says whether the last
line started with a blank. -/
def readLines (literal : Bool) (indent : Nat) :
    Nat → List Char → List Char → List Char → Bool → Place →
      Except Fault (List Char × List Char × List Char × Place)
  | 0, text, lineBreak, breaks, _, place => .ok (text, lineBreak, breaks, place)
  | limit + 1, text, lineBreak, breaks, afterBlank, place =>
      if place.column == indent && place.first != endMark then
        let startsBlank := isBlank place.first
        let joint :=
          if !literal && lineBreak == ['\n'] && !afterBlank && !startsBlank then
            if breaks.isEmpty then [' '] else breaks
          else breaks ++ lineBreak
        let (line, place) := place.takeWhile fun character => !isBreak character
        let (lineBreak, place) :=
          match place.takeBreak? with
          | some (lineBreak, next) => ([lineBreak], next)
          | none => ([], place)
        match readBreaks (some indent) (limit + 1) [] 0 place with
        | .error fault => .error fault
        | .ok (breaks, _, place) =>
            readLines literal indent limit (line.reverse ++ joint ++ text) lineBreak breaks
              startsBlank place
      else .ok (text, lineBreak, breaks, place)

/-- The text of a scalar, in reverse, with the line breaks at its end as its header asks. -/
def ended (ending : Ending) (text lineBreak breaks : List Char) : List Char :=
  match ending with
  | .dropped => text
  | .single => lineBreak ++ text
  | .kept => breaks ++ lineBreak ++ text

/-- Reads a block scalar from its indicator on: its text and the place after it. `parent` is the
column of the block around it, less than zero at the top. -/
def read (limit : Nat) (literal : Bool) (parent : Int) (place : Place) :
    Except Fault (String × Place) := do
  let (header, place) ← readHeader (place.skip 1)
  let known := header.deeper.map fun deeper => (max parent 0).toNat + deeper
  let (breaks, deepest, place) ← readBreaks known limit [] 0 place
  let indent := known.getD (max deepest (max (parent + 1).toNat 1))
  let (text, lineBreak, breaks, place) ← readLines literal indent limit [] [] breaks false place
  return (String.ofList (ended header.ending text lineBreak breaks).reverse, place)

end RemoteTree.Yaml.Block
