import RemoteTree.Json.Printer

/-!
# YAML text

Values as YAML on one line: texts between double quotation marks, lists and objects between
brackets. What is not printable is escaped, so that no text holds a line break.
-/

set_option autoImplicit false

namespace RemoteTree.Yaml

def hexDigits : Nat → Nat → String
  | 0, _ => ""
  | width + 1, number => hexDigits width (number / 16) ++ (Json.hexDigit (number % 16)).toString

/-- Must a character be escaped between quotation marks? -/
def isEscaped (character : Char) : Bool :=
  let code := character.toNat
  code < 0x20 || (0x7F ≤ code && code ≤ 0x9F) || code == 0x2028 || code == 0x2029 ||
    code == 0xFEFF || code == 0xFFFE || code == 0xFFFF

def escapedChar (character : Char) : String :=
  if character == '"' then "\\\""
  else if character == '\\' then "\\\\"
  else if character == '\n' then "\\n"
  else if isEscaped character then
    if character.toNat < 0x100 then "\\x" ++ hexDigits 2 character.toNat
    else "\\u" ++ hexDigits 4 character.toNat
  else character.toString

def quotedText (text : String) : String :=
  "\"" ++ text.foldl (fun written character => written ++ escapedChar character) "" ++ "\""

def longestPlainKey : Nat := 1000

/-- A key with its colon. A long one has an indicator in front. -/
def keyText (key : String) : String :=
  let written := quotedText key
  if written.length ≤ longestPlainKey then written ++ ": " else "? " ++ written ++ " : "

mutual

def valueText : Json → String
  | .null => "null"
  | .bool true => "true"
  | .bool false => "false"
  | .number value => Json.numberText value
  | .string text => quotedText text
  | .array items => "[" ++ String.intercalate ", " (itemTexts items) ++ "]"
  | .object fields => "\x7b" ++ String.intercalate ", " (fieldTexts fields) ++ "\x7d"

def itemTexts : List Json → List String
  | [] => []
  | item :: rest => valueText item :: itemTexts rest

def fieldTexts : List (String × Json) → List String
  | [] => []
  | (key, value) :: rest => (keyText key ++ valueText value) :: fieldTexts rest

end

end RemoteTree.Yaml
