import RemoteTree.Yaml.Scalar.Gap

/-!
# Quoted scalars

Scalars between single quotation marks, where a mark is written twice, and between double ones,
where a backslash introduces an escape.
-/

set_option autoImplicit false

namespace RemoteTree.Yaml.Quoted

/-- The character that an escape of one letter stands for. -/
def escape? : Char → Option Char
  | '0' => some '\x00'
  | 'a' => some '\x07'
  | 'b' => some '\x08'
  | 't' => some '\t'
  | '\t' => some '\t'
  | 'n' => some '\n'
  | 'v' => some '\x0b'
  | 'f' => some '\x0c'
  | 'r' => some '\r'
  | 'e' => some '\x1b'
  | ' ' => some ' '
  | '"' => some '"'
  | '/' => some '/'
  | '\\' => some '\\'
  | 'N' => some '\x85'
  | '_' => some '\xa0'
  | 'L' => some '\u2028'
  | 'P' => some '\u2029'
  | _ => none

/-- The number of hexadecimal digits behind an escape of the form of a code point. -/
def codeWidth? : Char → Option Nat
  | 'x' => some 2
  | 'u' => some 4
  | 'U' => some 8
  | _ => none

def hexNumber? (digits : List Char) : Option Nat :=
  digits.foldl (fun number digit => do return 16 * (← number) + (← hexValue? digit)) (some 0)

/-- The character of a code point that is written in hexadecimal digits. -/
def character? (digits : List Char) (width : Nat) : Option Char :=
  match hexNumber? digits with
  | some code =>
      if digits.length = width ∧ (code < 0xD800 ∨ (0xDFFF < code ∧ code ≤ 0x10FFFF)) then
        some (Char.ofNat code)
      else none
  | none => none

/-- Reads the escape at a backslash: its character and the place after it. -/
def readEscape (place : Place) : Except Fault (Char × Place) :=
  match escape? place.second, codeWidth? place.second with
  | some character, _ => .ok (character, place.skip 2)
  | none, some width =>
      let code := place.skip 2
      match character? (code.rest.take width) width with
      | some character => .ok (character, code.skip width)
      | none => .error (code.fault "found an invalid character code in a quoted scalar")
  | none, none => .error (place.fault "found an unknown escape character in a quoted scalar")

def mark (single : Bool) : Char := if single then '\x27' else '"'

/-- Reads what comes before a gap or the closing mark, behind what has been read in reverse. The
answer says also whether an escaped line break was crossed. -/
def word (single : Bool) : Nat → List Char → Place → Except Fault (List Char × Bool × Place)
  | 0, read, place => .ok (read, false, place)
  | limit + 1, read, place =>
      if isGap place.first then .ok (read, false, place)
      else if single && place.first == '\x27' && place.second == '\x27' then
        word single limit ('\x27' :: read) (place.skip 2)
      else if place.first == mark single then .ok (read, false, place)
      else if !single && place.first == '\\' then
        if isBreak place.second then .ok (read, true, (place.skip 1).skipBreak)
        else
          match readEscape place with
          | .ok (character, next) => word single limit (character :: read) next
          | .error fault => .error fault
      else word single limit (place.first :: read) (place.skip 1)

def words (single : Bool) : Nat → List Char → Place → Except Fault (List Char × Place)
  | 0, _, place => .error (place.fault "found unexpected end of stream in a quoted scalar")
  | limit + 1, read, place =>
      if place.isDocumentMarker then
        .error (place.fault "found unexpected document indicator in a quoted scalar")
      else if place.first == endMark then
        .error (place.fault "found unexpected end of stream in a quoted scalar")
      else
        match word single (limit + 1) read place with
        | .error fault => .error fault
        | .ok (read, broken, next) =>
            if next.first == mark single then .ok (read, next.skip 1)
            else
              match Gap.read 0 (limit + 1) { broken := broken } next with
              | .error fault => .error fault
              | .ok (gap, next) => words single limit (gap.folded ++ read) next

/-- Reads a quoted scalar from its opening mark on: its text and the place after it. -/
def read (limit : Nat) (single : Bool) (place : Place) : Except Fault (String × Place) :=
  match words single limit [] (place.skip 1) with
  | .ok (characters, next) => .ok (String.ofList characters.reverse, next)
  | .error fault => .error fault

end RemoteTree.Yaml.Quoted
