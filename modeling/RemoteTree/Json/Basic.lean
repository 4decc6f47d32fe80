import RemoteTree.Table

/-!
# JSON values

The values that recorded requests and replies are made of, and the way a record type is read
from them: a record is an object of named columns, or a list of exactly its columns in order.
-/

set_option autoImplicit false

namespace RemoteTree

/-- A number: an integer of at most 64 bits, or a decimal `digits * 10 ^ exponent`, which is no
integer for a reader even where its value is whole. Zero keeps the sign it is written with. -/
inductive Number where
  | integer (value : Int)
  | decimal (digits exponent : Int)
  | negativeZero
  deriving DecidableEq, Repr

namespace Number

/-- The least whole number that is rounded to infinity where numbers have 53 binary places. -/
def infinityBound : Nat := Nat.pow 2 1024 - Nat.pow 2 970

/-- A decimal number that is not zero. -/
def signed (isNegative : Bool) (digits : Nat) (exponent : Int) : Number :=
  .decimal (if isNegative then -digits else digits) exponent

/-- A decimal number, if it is not rounded to infinity. What is too small to matter is zero. -/
def ofDecimal? (isNegative : Bool) (digits : Nat) (exponent : Int) : Option Number :=
  let magnitude := ((toString digits).length : Int) + exponent
  if digits = 0 ∨ magnitude < -400 then
    some (if isNegative then .negativeZero else .decimal 0 0)
  else if magnitude < 309 then some (signed isNegative digits exponent)
  else if magnitude < 311 then
    let scaled :=
      if 0 ≤ exponent then digits * Nat.pow 10 exponent.toNat
      else digits / Nat.pow 10 exponent.natAbs
    if scaled < infinityBound then some (signed isNegative digits exponent) else none
  else none

end Number

/-- A JSON value. -/
inductive Json where
  | null
  | bool (value : Bool)
  | number (value : Number)
  | string (text : String)
  | array (items : List Json)
  | object (fields : List (String × Json))
  deriving Repr, Inhabited

namespace Json

def ofNat (value : Nat) : Json := .number (.integer value)

/-- The field of a name, if the value is an object that has it. -/
def field? (value : Json) (name : String) : Option Json :=
  match value with
  | .object fields => Table.find? name fields
  | _ => none

/-- An object from fields in the order they were read. Of two fields with one name the later
counts. -/
def ofFields (fields : List (String × Json)) : Json :=
  .object (fields.foldl (fun known entry => Table.insert entry.1 entry.2 known) [])

/-- The columns of a record: by name from an object, whose other fields are of no account, or in
order from a list of the same length. -/
def columns? (value : Json) (names : List String) : Option (List (Option Json)) :=
  match value with
  | .object fields => some (names.map fun name => Table.find? name fields)
  | .array items => if items.length = names.length then some (items.map some) else none
  | _ => none

def toInt? : Json → Option Int
  | .number (.integer value) => some value
  | _ => none

def toNat? (value : Json) (bound : Nat) : Option Nat :=
  match value with
  | .number (.integer (.ofNat count)) => if count < bound then some count else none
  | _ => none

def toUInt8? (value : Json) : Option UInt8 := (value.toNat? UInt8.size).map UInt8.ofNat

def toUInt16? (value : Json) : Option UInt16 := (value.toNat? UInt16.size).map UInt16.ofNat

def toUInt32? (value : Json) : Option UInt32 := (value.toNat? UInt32.size).map UInt32.ofNat

def toUInt64? (value : Json) : Option UInt64 := (value.toNat? UInt64.size).map UInt64.ofNat

def toInt32? (value : Json) : Option Int32 :=
  match value.toInt? with
  | some count =>
      if -2147483648 ≤ count ∧ count < 2147483648 then some (Int32.ofInt count) else none
  | none => none

def toText? : Json → Option String
  | .string text => some text
  | _ => none

end Json

end RemoteTree
