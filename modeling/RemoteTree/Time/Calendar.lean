/-!
# Calendar dates

Dates of the Gregorian calendar from a count of seconds, and their fixed-width line form.
-/

set_option autoImplicit false

namespace RemoteTree

/-- A moment as the calendar shows it. Months and days of the month count from one, days of the
week from Sunday as zero. -/
structure Moment where
  year : Int
  month : Nat
  day : Nat
  weekday : Nat
  hour : Nat
  minute : Nat
  second : Nat
  deriving DecidableEq, Repr

namespace Moment

/-- Days from the first of March of the year zero to the first of January 1970. -/
def daysBeforeEpoch : Int := 719468

/-- The date of a day that is counted from 1970. Years are taken to start in March, so a leap day
is the last of its year, and 400 years are 146097 days. -/
def dateOfDay (day : Int) : Int × Nat × Nat :=
  let shifted := day + daysBeforeEpoch
  let era := Int.fdiv shifted 146097
  let dayOfEra := (Int.fmod shifted 146097).toNat
  let yearOfEra := (dayOfEra - dayOfEra / 1460 + dayOfEra / 36524 - dayOfEra / 146096) / 365
  let dayOfYear := dayOfEra - (365 * yearOfEra + yearOfEra / 4 - yearOfEra / 100)
  let marchMonth := (5 * dayOfYear + 2) / 153
  let dayOfMonth := dayOfYear - (153 * marchMonth + 2) / 5 + 1
  let month := if marchMonth < 10 then marchMonth + 3 else marchMonth - 9
  let year := (yearOfEra : Int) + 400 * era
  (if month ≤ 2 then year + 1 else year, month, dayOfMonth)

/-- The moment that lies the given number of seconds after the start of 1970. -/
def ofSeconds (seconds : Int) : Moment :=
  let day := Int.fdiv seconds 86400
  let secondOfDay := (Int.fmod seconds 86400).toNat
  let (year, month, dayOfMonth) := dateOfDay day
  { year := year
    month := month
    day := dayOfMonth
    weekday := (Int.fmod (day + 4) 7).toNat
    hour := secondOfDay / 3600
    minute := secondOfDay / 60 % 60
    second := secondOfDay % 60 }

/-- The days of the week in three letters, from Sunday. -/
def weekdayNames : List String := ["Sun", "Mon", "Tue", "Wed", "Thu", "Fri", "Sat"]

def monthNames : List String :=
  ["Jan", "Feb", "Mar", "Apr", "May", "Jun", "Jul", "Aug", "Sep", "Oct", "Nov", "Dec"]

/-- A number of at least two places, filled from the left. -/
def twoPlaces (fill : String) (number : Nat) : String :=
  if number < 10 then fill ++ toString number else toString number

/-- A year of at least four places. -/
def yearText (year : Int) : String :=
  let digits := toString year.natAbs
  let filled := "".pushn '0' (4 - digits.length) ++ digits
  if year < 0 then "-" ++ filled else filled

/-- Day of the week, month, day, time and year on one line of fixed width. -/
def line (moment : Moment) : String :=
  weekdayNames.getD moment.weekday "" ++ " " ++ monthNames.getD (moment.month - 1) "" ++ " " ++
    twoPlaces " " moment.day ++ " " ++ twoPlaces "0" moment.hour ++ ":" ++
    twoPlaces "0" moment.minute ++ ":" ++ twoPlaces "0" moment.second ++ " " ++
    yearText moment.year

end Moment

end RemoteTree
