import RemoteTree.Text.Characters

/-!
# Timestamps

The written form of a moment: date, time of day and offset from universal time, as in
`2020-01-31T12:00:00Z`. Blanks may stand around the marks between the numbers.
-/

set_option autoImplicit false

namespace RemoteTree.Timestamp

/-- A number of at least one and at most `width` digits, and what follows. Blanks may stand in
front. -/
def number? (width : Nat) (characters : List Char) : Option (Nat × List Char) :=
  let characters := Text.skipBlanks characters
  let digits := (characters.takeWhile Char.isDigit).take width
  if digits.isEmpty then none
  else
    some (digits.foldl (fun number digit => 10 * number + (digit.toNat - 0x30)) 0,
      characters.drop digits.length)

/-- What follows a mark. Blanks may stand in front of it. -/
def mark? (mark : Char) (characters : List Char) : Option (List Char) :=
  match Text.skipBlanks characters with
  | character :: rest => if character = mark then some rest else none
  | [] => none

/-- A year: four digits, or a sign and any number of them. -/
def year? (characters : List Char) : Option (Int × List Char) :=
  match Text.skipBlanks characters with
  | '-' :: rest => (signed rest).map fun (year, rest) => (-(year : Int), rest)
  | '+' :: rest => (signed rest).map fun (year, rest) => ((year : Int), rest)
  | rest => (number? 4 rest).map fun (year, rest) => ((year : Int), rest)
where
  signed (characters : List Char) : Option (Nat × List Char) :=
    if (characters.head?.map Char.isDigit).getD false then number? characters.length characters
    else none

/-- Has the year a 29th of February? -/
def isLeap (year : Int) : Bool := year % 4 == 0 && (year % 100 != 0 || year % 400 == 0)

def daysOf (year : Int) (month : Nat) : Nat :=
  if month = 2 then if isLeap year then 29 else 28
  else if month = 4 ∨ month = 6 ∨ month = 9 ∨ month = 11 then 30
  else 31

def hasDates (year : Int) : Bool := -262143 ≤ year && year ≤ 262142

def date? (characters : List Char) : Option (List Char) := do
  let (year, rest) ← year? characters
  let (month, rest) ← number? 2 (← mark? '-' rest)
  let (day, rest) ← number? 2 (← mark? '-' rest)
  if hasDates year && 1 ≤ month && month ≤ 12 && 1 ≤ day && day ≤ daysOf year month then
    return rest
  else none

/-- What follows a fraction of a second, if there is one. -/
def fraction? : List Char → Option (List Char)
  | '.' :: rest =>
      if (rest.head?.map Char.isDigit).getD false then some (rest.dropWhile Char.isDigit) else none
  | rest => some rest

/-- What follows a time of day. A minute may have a leap second. -/
def timeOfDay? (characters : List Char) : Option (List Char) := do
  let (hour, rest) ← number? 2 characters
  let (minute, rest) ← number? 2 (← mark? ':' rest)
  let (second, rest) ← number? 2 (← mark? ':' rest)
  if hour < 24 && minute < 60 && second ≤ 60 then fraction? rest else none

/-- What follows hours and minutes of an offset, which lie less than a day apart from zero. -/
def hoursAndMinutes? : List Char → Option (List Char)
  | tens :: ones :: rest =>
      let rest := rest.dropWhile fun character => character == ':' || Text.isBlank character
      match rest with
      | tenMinutes :: minutes :: rest =>
          if tens.isDigit && ones.isDigit && tenMinutes.isDigit && minutes.isDigit &&
              tenMinutes.toNat < 0x36 && 10 * (tens.toNat - 0x30) + (ones.toNat - 0x30) < 24 then
            some rest
          else none
      | _ => none
  | _ => none

def offset? : List Char → Option (List Char)
  | 'Z' :: rest => some rest
  | 'z' :: rest => some rest
  | '+' :: rest => hoursAndMinutes? rest
  | '-' :: rest => hoursAndMinutes? rest
  | '\u2212' :: rest => hoursAndMinutes? rest
  | first :: second :: third :: rest =>
      if first.toUpper = 'U' ∧ second.toUpper = 'T' ∧ third.toUpper = 'C' then some rest else none
  | _ => none

def isValid (text : String) : Bool :=
  let following := do
    let rest ← date? text.toList
    let rest ←
      match rest with
      | mark :: rest => if mark = 'T' ∨ mark = 't' ∨ mark = ' ' then some rest else none
      | [] => none
    offset? (Text.skipBlanks (← timeOfDay? rest))
  match following with
  | some rest => (Text.skipBlanks rest).isEmpty
  | none => false

end RemoteTree.Timestamp
