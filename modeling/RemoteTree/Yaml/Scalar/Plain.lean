import RemoteTree.Yaml.Scalar.Gap

/-!
# Plain scalars

Scalars without quotation marks. They end at a comment, at the indicator of a value, between
brackets at every bracket and comma, and where a line is indented no deeper than the block that
they stand in.
-/

set_option autoImplicit false

namespace RemoteTree.Yaml.Plain

/-- Does the character end a plain scalar between brackets? -/
def isFlowIndicator (character : Char) : Bool :=
  character == ',' || character == '[' || character == ']' || character == '\x7b' ||
    character == '\x7d'

def mayStart (inFlow : Bool) (place : Place) : Bool :=
  let character := place.first
  if character == '-' then !isBlank place.second
  else if character == '?' || character == ':' then !inFlow && !isGap place.second
  else
    !(isGap character || isFlowIndicator character || character == '#' || character == '&' ||
      character == '*' || character == '!' || character == '|' || character == '>' ||
      character == '\x27' || character == '"' || character == '%' || character == '@' ||
      character == '\x60')

/-- Reads a word, which holds no gap, behind what has been read in reverse. -/
def word (inFlow : Bool) : Nat → List Char → Place → Except Fault (List Char × Place)
  | 0, read, place => .ok (read, place)
  | limit + 1, read, place =>
      if isGap place.first then .ok (read, place)
      else if inFlow && place.first == ':' &&
          (isFlowIndicator place.second || place.second == '?') then
        .error (place.fault "found an unexpected colon in a plain scalar")
      else if (place.first == ':' && isGap place.second) ||
          (inFlow && isFlowIndicator place.first) then
        .ok (read, place)
      else word inFlow limit (place.first :: read) (place.skip 1)

/-- Reads words and the gaps between them. `column` is the first column that belongs to the scalar
in a block. The answer says also whether a line break follows the last word. -/
def words (inFlow : Bool) (column : Nat) :
    Nat → List Char → Gap → Place → Except Fault (List Char × Bool × Place)
  | 0, read, gap, place => .ok (read, gap.broken, place)
  | limit + 1, read, gap, place =>
      if place.isDocumentMarker || place.first == '#' then .ok (read, gap.broken, place)
      else
        match word inFlow (limit + 1) [] place with
        | .error fault => .error fault
        | .ok (last, next) =>
            let read := if last.isEmpty then read else last ++ gap.folded ++ read
            let broken := last.isEmpty && gap.broken
            if isBlank next.first || isBreak next.first then
              match Gap.read column (limit + 1) {} next with
              | .error fault => .error fault
              | .ok (gap, next) =>
                  if !inFlow && next.column < column then .ok (read, gap.broken, next)
                  else words inFlow column limit read gap next
            else .ok (read, broken, next)

/-- Reads a plain scalar: its text, whether a line break was crossed behind it, and the place after
it. -/
def read (limit : Nat) (inFlow : Bool) (column : Nat) (place : Place) :
    Except Fault (String × Bool × Place) :=
  match words inFlow column limit [] {} place with
  | .error fault => .error fault
  | .ok (characters, broken, next) => .ok (String.ofList characters.reverse, broken, next)

end RemoteTree.Yaml.Plain
