import RemoteTree.Yaml.Place

/-!
# Gaps in scalars

Blanks and line breaks between the words of a plain or quoted scalar. Blanks within a line stand
for themselves; a single line break is folded into a space, and of several the first does not
count.
-/

set_option autoImplicit false

namespace RemoteTree.Yaml

/-- A gap as far as it has been read: whether it goes beyond a line, the blanks if it does not,
its first line break, and the further ones. Blanks and breaks come in reverse. -/
structure Gap where
  broken : Bool := false
  blanks : List Char := []
  lineBreak : Option Char := none
  more : List Char := []

namespace Gap

/-- The characters that a gap stands for, in reverse. -/
def folded (gap : Gap) : List Char :=
  if gap.broken then
    match gap.lineBreak with
    | some '\n' => if gap.more.isEmpty then [' '] else gap.more
    | some other => gap.more ++ [other]
    | none => gap.more
  else gap.blanks

/-- Adds a blank. Blanks at the start of a line do not count. -/
def addBlank (gap : Gap) (blank : Char) : Gap :=
  if gap.broken then gap else { gap with blanks := blank :: gap.blanks }

/-- Adds a line break. Blanks in front of the first one do not count. -/
def addBreak (gap : Gap) (lineBreak : Char) : Gap :=
  if gap.broken then { gap with more := lineBreak :: gap.more }
  else { gap with broken := true, blanks := [], lineBreak := some lineBreak }

/-- Reads a gap to its end. A tab at the start of a line may not stand in front of the given
column. The limit is at least the number of characters that are left. -/
def read (column : Nat) : Nat → Gap → Place → Except Fault (Gap × Place)
  | 0, gap, place => .ok (gap, place)
  | limit + 1, gap, place =>
      if isBlank place.first then
        if gap.broken && place.column < column && place.first == '\t' then
          .error (place.fault "found a tab character that violates indentation")
        else read column limit (gap.addBlank place.first) (place.skip 1)
      else
        match place.takeBreak? with
        | some (lineBreak, next) => read column limit (gap.addBreak lineBreak) next
        | none => .ok (gap, place)

end Gap

end RemoteTree.Yaml
