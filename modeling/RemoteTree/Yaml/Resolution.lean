import RemoteTree.Json.Basic
import RemoteTree.Yaml.Place

/-!
# What plain scalars stand for

A scalar without quotation marks can stand for nothing, a truth value or a number. Numbers are
decimal, or have a base in front; digits behind a leading zero are no number.
-/

set_option autoImplicit false

namespace RemoteTree.Yaml

/-- What a scalar that is a whole number amounts to. Numbers of more than 64 bits are numbers, too,
but none that a value can hold. -/
inductive WholeNumber where
  | number (value : Int)
  | tooLarge
  deriving DecidableEq, Repr

namespace Resolution

def isNull (text : String) : Bool :=
  text == "null" || text == "Null" || text == "NULL" || text == "~"

def bool? (text : String) : Option Bool :=
  if text == "true" || text == "True" || text == "TRUE" then some true
  else if text == "false" || text == "False" || text == "FALSE" then some false
  else none

def digit? (base : Nat) (character : Char) : Option Nat :=
  match hexValue? character with
  | some value => if value < base then some value else none
  | none => none

/-- The number of some digits of a base, at least one. -/
def digits? (base : Nat) (characters : List Char) : Option Nat :=
  if characters.isEmpty then none
  else
    characters.foldl
      (fun number character => do return base * (← number) + (← digit? base character)) (some 0)

def isSigned : List Char → Bool
  | '+' :: _ => true
  | '-' :: _ => true
  | _ => false

def withoutSign : List Char → List Char
  | '+' :: rest => rest
  | '-' :: rest => rest
  | characters => characters

def withoutPlus : List Char → List Char
  | '+' :: rest => rest
  | characters => characters

/-- Are the characters digits with a zero in front that does not count? -/
def hasLeadingZero (characters : List Char) : Bool :=
  match withoutSign characters with
  | '0' :: digit :: rest => (digit :: rest).all Char.isDigit
  | _ => false

def based? : List Char → Option Nat
  | '0' :: 'x' :: rest => digits? 16 rest
  | '0' :: 'o' :: rest => digits? 8 rest
  | '0' :: 'b' :: rest => digits? 2 rest
  | _ => none

def natural? (characters : List Char) : Option Nat :=
  let rest := withoutPlus characters
  match based? rest with
  | some number => some number
  | none => if hasLeadingZero characters then none else digits? 10 rest

def negated? (characters : List Char) : Option Nat :=
  match based? characters with
  | some number => some number
  | none => if hasLeadingZero characters then none else digits? 10 characters

/-- How many numbers 128 bits hold. -/
def largeSize : Nat := UInt64.size * UInt64.size

/-- The whole number of a text. Numbers of more than 128 bits are none. -/
def wholeNumber? (text : String) : Option WholeNumber :=
  match text.toList with
  | '-' :: rest =>
      match negated? rest with
      | some number =>
          if number ≤ UInt64.size / 2 then some (.number (-number))
          else if number ≤ largeSize / 2 then some .tooLarge
          else none
      | none => none
  | characters =>
      match natural? characters with
      | some number =>
          if number < UInt64.size then some (.number number)
          else if number < largeSize then some .tooLarge
          else none
      | none => none

/-- The exponent that characters behind the digits of a number give. -/
def exponent? : List Char → Option Int
  | [] => some 0
  | mark :: rest =>
      if mark == 'e' || mark == 'E' then
        match rest with
        | '-' :: digits => (digits? 10 digits).map fun number => -(number : Int)
        | digits => (digits? 10 (withoutPlus digits)).map fun number => (number : Int)
      else none

/-- The digits in front of a point, behind it, and what comes after them. -/
def fractionParts (characters : List Char) : List Char × List Char × List Char :=
  let whole := characters.takeWhile Char.isDigit
  match characters.drop whole.length with
  | '.' :: rest =>
      let places := rest.takeWhile Char.isDigit
      (whole, places, rest.drop places.length)
  | rest => (whole, [], rest)

/-- The decimal number of some characters without a plus sign, if it is finite. -/
def decimal? (characters : List Char) : Option Number :=
  let isNegative := characters.head? == some '-'
  let (whole, places, rest) :=
    fractionParts (if isNegative then characters.drop 1 else characters)
  match digits? 10 (whole ++ places), exponent? rest with
  | some digits, some exponent =>
      Number.ofDecimal? isNegative digits (exponent - places.length)
  | _, _ => none

/-- The value of a text that is a floating point number. Those that are not finite are null. -/
def float? (text : String) : Option Json :=
  let characters := text.toList
  let rest := withoutPlus characters
  if characters.head? == some '+' && isSigned rest then none
  else
    let name := String.ofList rest
    if name == ".inf" || name == ".Inf" || name == ".INF" || text == "-.inf" || text == "-.Inf" ||
        text == "-.INF" || text == ".nan" || text == ".NaN" || text == ".NAN" then
      some .null
    else (decimal? rest).map .number

def wholeValue? : WholeNumber → Option Json
  | .number value => some (.number (.integer value))
  | .tooLarge => none

/-- The value of a plain scalar. Where it stands for nothing else it is a string. -/
def plainValue? (text : String) : Option Json :=
  if text.isEmpty || isNull text then some .null
  else
    match bool? text with
    | some value => some (.bool value)
    | none =>
        match wholeNumber? text with
        | some whole => wholeValue? whole
        | none =>
            if hasLeadingZero text.toList then some (.string text)
            else some ((float? text).getD (.string text))

end Resolution

end RemoteTree.Yaml
