import RemoteTree.Json.Basic

/-!
# JSON text

The two written forms of a value: on one line, and indented by two places a level.
-/

set_option autoImplicit false

namespace RemoteTree.Json

def hexDigit (value : Nat) : Char := (Nat.digitChar value)

/-- A character as it stands in a string: quotation marks, backslashes and control characters
are escaped. -/
def escapedChar (character : Char) : String :=
  match character with
  | '"' => "\\\""
  | '\\' => "\\\\"
  | '\n' => "\\n"
  | '\r' => "\\r"
  | '\t' => "\\t"
  | '\x08' => "\\b"
  | '\x0c' => "\\f"
  | other =>
      if other.toNat < 0x20 then
        "\\u00" ++ String.ofList [hexDigit (other.toNat / 16), hexDigit (other.toNat % 16)]
      else other.toString

def stringText (text : String) : String :=
  "\"" ++ text.foldl (fun written character => written ++ escapedChar character) "" ++ "\""

/-- A decimal number, with a point even where its value is whole. -/
def decimalText (digits exponent : Int) : String :=
  let sign := if digits < 0 then "-" else ""
  let shown := toString digits.natAbs
  if 0 ≤ exponent then sign ++ shown ++ "".pushn '0' exponent.toNat ++ ".0"
  else
    let places := exponent.natAbs
    let filled := "".pushn '0' (places + 1 - shown.length) ++ shown
    let whole := filled.length - places
    sign ++ (filled.take whole).toString ++ "." ++ (filled.drop whole).toString

def numberText : Number → String
  | .integer value => toString value
  | .decimal digits exponent => decimalText digits exponent
  | .negativeZero => "-0.0"

mutual

def line : Json → String
  | .null => "null"
  | .bool true => "true"
  | .bool false => "false"
  | .number value => numberText value
  | .string text => stringText text
  | .array items => "[" ++ String.intercalate ", " (itemLines items) ++ "]"
  | .object fields => "\x7b" ++ String.intercalate ", " (fieldLines fields) ++ "\x7d"

def itemLines : List Json → List String
  | [] => []
  | item :: rest => line item :: itemLines rest

def fieldLines : List (String × Json) → List String
  | [] => []
  | (key, value) :: rest => (stringText key ++ ": " ++ line value) :: fieldLines rest

end

def indent (level : Nat) : String := "".pushn ' ' (2 * level)

/-- Puts written parts on lines of their own between brackets. Without parts the brackets stand
together. -/
def block (first last : String) (level : Nat) (parts : List String) : String :=
  if parts.isEmpty then first ++ last
  else
    first ++ "\n" ++ indent (level + 1) ++
      String.intercalate (",\n" ++ indent (level + 1)) parts ++ "\n" ++ indent level ++ last

mutual

def indentedAt (level : Nat) : Json → String
  | .array items => block "[" "]" level (indentedItems (level + 1) items)
  | .object fields => block "\x7b" "\x7d" level (indentedFields (level + 1) fields)
  | .null => line .null
  | .bool value => line (.bool value)
  | .number value => line (.number value)
  | .string text => line (.string text)

def indentedItems (level : Nat) : List Json → List String
  | [] => []
  | item :: rest => indentedAt level item :: indentedItems level rest

def indentedFields (level : Nat) : List (String × Json) → List String
  | [] => []
  | (key, value) :: rest =>
      (stringText key ++ ": " ++ indentedAt level value) :: indentedFields level rest

end

def indented (value : Json) : String := indentedAt 0 value

end RemoteTree.Json
