import RemoteTree.Yaml.Property
import RemoteTree.Yaml.Scalar.Block
import RemoteTree.Yaml.Scalar.Plain
import RemoteTree.Yaml.Scalar.Quoted

/-!
# From a text to its tokens

Tokens come one after the other, but that something is the key of a mapping shows only at the
colon behind it. So the scanner remembers, for every level of brackets, where a key may have
started, and puts the tokens of a key and of the mapping around it there in hindsight.
-/

set_option autoImplicit false

namespace RemoteTree.Yaml

/-- A place where a key may have started: how many tokens came before it, where it was, and
whether nothing but a key can have started there. -/
structure KeyStart where
  number : Nat
  index : Nat
  line : Nat
  column : Nat
  required : Bool

/-- A text on the way to its tokens. `tokens` are those found so far, the latest first, and `count`
is their number; `keyStarts` has an entry for every open bracket, the innermost first, and one for
what is outside all brackets. `indent` is the column of the innermost block, `outer` those of the
blocks around it; outside all blocks the column is less than zero. -/
structure Scanner where
  place : Place
  tokens : List Token
  count : Nat
  keyStarts : List (Option KeyStart)
  indent : Int
  outer : List Int
  keysAllowed : Bool

namespace Scanner

def start (text : List Char) : Scanner :=
  { place := Place.start text
    tokens := []
    count := 0
    keyStarts := [none]
    indent := -1
    outer := []
    keysAllowed := true }

def inFlow (scanner : Scanner) : Bool :=
  match scanner.keyStarts with
  | _ :: _ :: _ => true
  | _ => false

def push (scanner : Scanner) (token : Token) : Scanner :=
  { scanner with tokens := token :: scanner.tokens, count := scanner.count + 1 }

/-- Puts a token behind the first `number` tokens. -/
def insertAt (scanner : Scanner) (number : Nat) (token : Token) : Scanner :=
  let later := scanner.count - number
  { scanner with
    tokens := scanner.tokens.take later ++ token :: scanner.tokens.drop later
    count := scanner.count + 1 }

def skip (scanner : Scanner) (count : Nat) : Scanner :=
  { scanner with place := scanner.place.skip count }

/-- Says whether a key may start from here on. -/
def allowKeys (scanner : Scanner) (allowed : Bool) : Scanner :=
  { scanner with keysAllowed := allowed }

/-- The fault of a text that has no colon where only a key can have started. -/
def missingColon (place : Place) : Fault := place.fault "could not find an expected colon"

def forgetKey (scanner : Scanner) : Except Fault Scanner :=
  match scanner.keyStarts with
  | some keyStart :: rest =>
      if keyStart.required then .error (missingColon scanner.place)
      else .ok { scanner with keyStarts := none :: rest }
  | _ => .ok scanner

def rememberKey (scanner : Scanner) : Except Fault Scanner :=
  if scanner.keysAllowed then
    match scanner.forgetKey with
    | .error fault => .error fault
    | .ok scanner =>
        let keyStart : KeyStart :=
          { number := scanner.count
            index := scanner.place.index
            line := scanner.place.line
            column := scanner.place.column
            required := !scanner.inFlow && scanner.indent == scanner.place.column }
        .ok { scanner with keyStarts := some keyStart :: scanner.keyStarts.drop 1 }
  else .ok scanner

/-- The most characters that a key and the blanks behind it have. -/
def longestKey : Nat := 1024

/-- Can a key no longer have started where it seemed so? It must be in one line and not too
long. -/
def isStale (place : Place) (keyStart : KeyStart) : Bool :=
  keyStart.line < place.line || keyStart.index + longestKey < place.index

def freshKeys (place : Place) :
    List (Option KeyStart) → Except Fault (List (Option KeyStart))
  | [] => .ok []
  | none :: rest =>
      match freshKeys place rest with
      | .ok rest => .ok (none :: rest)
      | .error fault => .error fault
  | some keyStart :: rest =>
      if isStale place keyStart && keyStart.required then .error (missingColon place)
      else
        match freshKeys place rest with
        | .ok rest => .ok ((if isStale place keyStart then none else some keyStart) :: rest)
        | .error fault => .error fault

def dropStaleKeys (scanner : Scanner) : Except Fault Scanner :=
  match freshKeys scanner.place scanner.keyStarts with
  | .ok keyStarts => .ok { scanner with keyStarts := keyStarts }
  | .error fault => .error fault

/-- Opens a block at a column that is deeper than the present one, with a token behind the first
`number` tokens. -/
def openBlock (scanner : Scanner) (column : Nat) (number : Nat) (token : Token) : Scanner :=
  if !scanner.inFlow && scanner.indent < column then
    { scanner.insertAt number token with
      indent := column
      outer := scanner.indent :: scanner.outer }
  else scanner

/-- The tokens that close all blocks deeper than a column, the column that is left and those around
it. -/
def closedBlocks (column : Int) : Int → List Int → Nat × Int × List Int
  | indent, [] => (0, indent, [])
  | indent, around :: outer =>
      if column < indent then
        let (count, indent, outer) := closedBlocks column around outer
        (count + 1, indent, outer)
      else (0, indent, around :: outer)

/-- Closes all blocks that are deeper than a column. Between brackets columns do not count. -/
def closeBlocks (scanner : Scanner) (column : Int) : Scanner :=
  if scanner.inFlow then scanner
  else
    let (count, indent, outer) := closedBlocks column scanner.indent scanner.outer
    { scanner with
      tokens := List.replicate count .blockEnd ++ scanner.tokens
      count := scanner.count + count
      indent := indent
      outer := outer }

/-- Goes on to the next token, over blanks, comments and line breaks. Tabs do not count as blanks
where a key may start in a block. -/
def skipToToken : Nat → Scanner → Scanner
  | 0, scanner => scanner
  | limit + 1, scanner =>
      let scanner :=
        if scanner.place.column == 0 && scanner.place.first == byteOrderMark then scanner.skip 1
        else scanner
      let tabs := scanner.inFlow || !scanner.keysAllowed
      let place :=
        scanner.place.skipWhile fun character => character == ' ' || (tabs && character == '\t')
      let place :=
        if place.first == '#' then place.skipWhile fun character => !isBreak character else place
      match place.takeBreak? with
      | some (_, next) =>
          skipToToken limit
            { scanner with
              place := next
              keysAllowed := scanner.keysAllowed || !scanner.inFlow }
      | none => { scanner with place := place }

def endStream (scanner : Scanner) : Except Fault Scanner := do
  let scanner ← (scanner.closeBlocks (-1)).forgetKey
  return (scanner.allowKeys false).push .streamEnd

def directive (limit : Nat) (scanner : Scanner) : Except Fault Scanner := do
  let scanner ← (scanner.closeBlocks (-1)).forgetKey
  let (token, next) ← Property.readDirective limit scanner.place
  return { (scanner.allowKeys false).push token with place := next }

/-- Adds the mark of the start or the end of a document. -/
def documentMark (token : Token) (scanner : Scanner) : Except Fault Scanner := do
  let scanner ← (scanner.closeBlocks (-1)).forgetKey
  return ((scanner.allowKeys false).push token).skip 3

def openBracket (token : Token) (scanner : Scanner) : Except Fault Scanner := do
  let scanner ← scanner.rememberKey
  let opened := { scanner with keyStarts := none :: scanner.keyStarts }
  return ((opened.allowKeys true).push token).skip 1

def closeBracket (token : Token) (scanner : Scanner) : Except Fault Scanner := do
  let scanner ← scanner.forgetKey
  let keyStarts :=
    match scanner.keyStarts with
    | _ :: around :: rest => around :: rest
    | all => all
  return (({ scanner with keyStarts := keyStarts }.allowKeys false).push token).skip 1

def comma (scanner : Scanner) : Except Fault Scanner := do
  let scanner ← scanner.forgetKey
  return ((scanner.allowKeys true).push .flowEntry).skip 1

/-- Opens the block of an indicator at this place, which may stand only where a key may start. -/
def openIndicated (token : Token) (problem : String) (scanner : Scanner) :
    Except Fault Scanner :=
  if scanner.inFlow then .ok scanner
  else if scanner.keysAllowed then
    .ok (scanner.openBlock scanner.place.column scanner.count token)
  else .error (scanner.place.fault problem)

def dash (scanner : Scanner) : Except Fault Scanner := do
  let scanner ←
    scanner.openIndicated .blockSequenceStart
      "block sequence entries are not allowed in this context"
  let scanner ← scanner.forgetKey
  return ((scanner.allowKeys true).push .blockEntry).skip 1

def questionMark (scanner : Scanner) : Except Fault Scanner := do
  let scanner ←
    scanner.openIndicated .blockMappingStart "mapping keys are not allowed in this context"
  let scanner ← scanner.forgetKey
  return ((scanner.allowKeys !scanner.inFlow).push .key).skip 1

/-- Adds the indicator of a value. If a key may have started before it, one has. -/
def colon (scanner : Scanner) : Except Fault Scanner := do
  match scanner.keyStarts with
  | some keyStart :: rest =>
      let scanner := scanner.insertAt keyStart.number .key
      let scanner := scanner.openBlock keyStart.column keyStart.number .blockMappingStart
      return (({ scanner with keyStarts := none :: rest }.allowKeys false).push .value).skip 1
  | _ =>
      let scanner ←
        scanner.openIndicated .blockMappingStart "mapping values are not allowed in this context"
      return ((scanner.allowKeys !scanner.inFlow).push .value).skip 1

def anchor (token : String → Token) (scanner : Scanner) : Except Fault Scanner := do
  let scanner ← scanner.rememberKey
  let (name, next) ← Property.readAnchor scanner.place
  return { (scanner.allowKeys false).push (token name) with place := next }

def tag (limit : Nat) (scanner : Scanner) : Except Fault Scanner := do
  let scanner ← scanner.rememberKey
  let (token, next) ← Property.readTag limit scanner.inFlow scanner.place
  return { (scanner.allowKeys false).push token with place := next }

def blockScalar (limit : Nat) (literal : Bool) (scanner : Scanner) : Except Fault Scanner := do
  let scanner ← scanner.forgetKey
  let (text, next) ← Block.read limit literal scanner.indent scanner.place
  let style := if literal then Style.literal else Style.folded
  return { (scanner.allowKeys true).push (.scalar text style) with place := next }

def quotedScalar (limit : Nat) (single : Bool) (scanner : Scanner) : Except Fault Scanner := do
  let scanner ← scanner.rememberKey
  let (text, next) ← Quoted.read limit single scanner.place
  let style := if single then Style.singleQuoted else Style.doubleQuoted
  return { (scanner.allowKeys false).push (.scalar text style) with place := next }

/-- Adds a plain scalar. A key may start behind it if it ends with a line. -/
def plainScalar (limit : Nat) (scanner : Scanner) : Except Fault Scanner := do
  let scanner ← scanner.rememberKey
  let column := (scanner.indent + 1).toNat
  let (text, broken, next) ← Plain.read limit scanner.inFlow column scanner.place
  return { (scanner.allowKeys broken).push (.scalar text .plain) with place := next }

def addToken (limit : Nat) (scanner : Scanner) : Except Fault Scanner :=
  let place := scanner.place
  let character := place.first
  let isWord := isGap place.second
  if character == endMark then scanner.endStream
  else if place.column == 0 && character == '%' then scanner.directive limit
  else if place.isMarker '-' then scanner.documentMark .documentStart
  else if place.isMarker '.' then scanner.documentMark .documentEnd
  else if character == '[' then scanner.openBracket .flowSequenceStart
  else if character == '\x7b' then scanner.openBracket .flowMappingStart
  else if character == ']' then scanner.closeBracket .flowSequenceEnd
  else if character == '\x7d' then scanner.closeBracket .flowMappingEnd
  else if character == ',' then scanner.comma
  else if character == '-' && isWord then scanner.dash
  else if character == '?' && (scanner.inFlow || isWord) then scanner.questionMark
  else if character == ':' && (scanner.inFlow || isWord) then scanner.colon
  else if character == '*' then scanner.anchor .alias
  else if character == '&' then scanner.anchor .anchor
  else if character == '!' then scanner.tag limit
  else if character == '|' && !scanner.inFlow then scanner.blockScalar limit true
  else if character == '>' && !scanner.inFlow then scanner.blockScalar limit false
  else if character == '\x27' then scanner.quotedScalar limit true
  else if character == '"' then scanner.quotedScalar limit false
  else if Plain.mayStart scanner.inFlow place then scanner.plainScalar limit
  else .error (place.fault "found character that cannot start any token")

/-- Scans to the end of the text. Every step but the last uses up a character. -/
def run (limit : Nat) : Nat → Scanner → Except Fault (List Token)
  | 0, scanner => .ok scanner.tokens.reverse
  | steps + 1, scanner =>
      let scanner := skipToToken limit scanner
      match scanner.dropStaleKeys with
      | .error fault => .error fault
      | .ok scanner =>
          match (scanner.closeBlocks scanner.place.column).addToken limit with
          | .error fault => .error fault
          | .ok scanner =>
              match scanner.tokens with
              | .streamEnd :: _ => .ok scanner.tokens.reverse
              | _ => run limit steps scanner

end Scanner

/-- The tokens of a text. A byte order mark at its start does not count. -/
def Token.ofText (text : String) : Except Fault (List Token) :=
  let characters :=
    match text.toList with
    | character :: rest => if character == byteOrderMark then rest else character :: rest
    | [] => []
  if characters.all isAllowed then
    let limit := characters.length + 1
    Scanner.run limit limit (Scanner.start characters)
  else .error (Fault.meaning "control characters are not allowed")

end RemoteTree.Yaml
