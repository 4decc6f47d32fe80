/-!
# Durations

How long a read may wait, in nanoseconds. Recorded waits are whole milliseconds.
-/

set_option autoImplicit false

namespace RemoteTree

/-- A length of time. -/
structure Duration where
  nanoseconds : Nat
  deriving DecidableEq, Repr

namespace Duration

/-- The empty duration, which as a deadline means that there is none. -/
def zero : Duration := ⟨0⟩

def seconds (count : Nat) : Duration := ⟨1000000000 * count⟩

def ofMilliseconds (count : Nat) : Duration := ⟨1000000 * count⟩

/-- The whole milliseconds of a duration. -/
def milliseconds (duration : Duration) : Nat := duration.nanoseconds / 1000000

def isZero (duration : Duration) : Bool := duration.nanoseconds == 0

theorem isZero_seconds (count : Nat) : (seconds count).isZero = (count == 0) := by
  rw [Bool.eq_iff_iff, beq_iff_eq]
  simp only [isZero, seconds, beq_iff_eq]
  omega

/-- The digits of a fraction in some decimal places, without the zeros at its end. -/
def fraction (places remainder : Nat) : String :=
  let backwards := (List.range places).map fun place => (remainder / Nat.pow 10 place % 10).digitChar
  let digits := (backwards.dropWhile (· == '0')).reverse
  if digits.isEmpty then "" else "." ++ String.ofList digits

/-- A number of nanoseconds in a unit of ten to some power of them. -/
def inUnit (unit : String) (places nanoseconds : Nat) : String :=
  toString (nanoseconds / Nat.pow 10 places) ++
    fraction places (nanoseconds % Nat.pow 10 places) ++ unit

/-- A duration in the largest unit of which it holds at least one. -/
def text (duration : Duration) : String :=
  let nanoseconds := duration.nanoseconds
  if nanoseconds < 1000 then inUnit "ns" 0 nanoseconds
  else if nanoseconds < 1000000 then inUnit "µs" 3 nanoseconds
  else if nanoseconds < 1000000000 then inUnit "ms" 6 nanoseconds
  else inUnit "s" 9 nanoseconds

end Duration

end RemoteTree
