namespace Refit

/-- Microseconds of local time since the start of the year 1, and the offset of local time from
    universal time, also in microseconds. -/
structure Moment where
  ticks : Int
  offset : Int
  deriving DecidableEq

structure CivilDay where
  year : Int
  month : Nat
  day : Nat
  deriving DecidableEq

namespace Moment

def secondTicks : Int := 1000000

def dayTicks : Int := 86400 * secondTicks

def isLeap (year : Int) : Bool := year % 4 = 0 && (year % 100 ≠ 0 || year % 400 = 0)

def monthLengths (year : Int) : List Nat :=
  [31, if isLeap year then 29 else 28, 31, 30, 31, 30, 31, 31, 30, 31, 30, 31]

def daysBeforeYear (year : Int) : Int :=
  let y := year - 1
  365 * y + y / 4 - y / 100 + y / 400

def dayNumber (date : CivilDay) : Int :=
  daysBeforeYear date.year + ((monthLengths date.year).take (date.month - 1)).foldl Nat.add 0 + (date.day - 1 : Nat)

/-- The year of a day. An estimate from the mean length of years is at most one year too late. -/
def yearOf (days : Int) : Int :=
  let estimate := days * 400 / 146097 + 1
  if days < daysBeforeYear estimate then estimate - 1
  else if daysBeforeYear (estimate + 1) ≤ days then estimate + 1
  else estimate

def monthOf (day : Nat) : Nat → List Nat → Nat × Nat
  | month, [] => (month, day + 1)
  | month, length :: rest =>
    if day < length then (month, day + 1) else monthOf (day - length) (month + 1) rest

def civilDay (days : Int) : CivilDay :=
  let year := yearOf days
  let (month, day) := monthOf (days - daysBeforeYear year).toNat 1 (monthLengths year)
  ⟨year, month, day⟩

def ofCivil (date : CivilDay) (ticksOfDay offset : Int) : Moment :=
  ⟨dayNumber date * dayTicks + ticksOfDay, offset⟩

def date (moment : Moment) : CivilDay := civilDay (moment.ticks / dayTicks)

def seconds (moment : Moment) : Nat := ((moment.ticks % dayTicks) / secondTicks).toNat

def microseconds (moment : Moment) : Nat := (moment.ticks % secondTicks).toNat

def later (moment : Moment) (ticks : Int) : Moment := { moment with ticks := moment.ticks + ticks }

def padded (width n : Nat) : String :=
  let digits := Nat.toDigits 10 n
  String.ofList (List.replicate (width - digits.length) '0' ++ digits)

def two (n : Nat) : String := padded 2 n

def compact (moment : Moment) : String :=
  let date := moment.date
  toString date.year ++ two date.month ++ two date.day
    ++ two (moment.seconds / 3600) ++ two (moment.seconds / 60 % 60) ++ two (moment.seconds % 60)

def fraction (microseconds : Nat) : String :=
  if microseconds = 0 then "" else "." ++ padded 6 microseconds

def offsetText (offset : Int) : String :=
  let size := offset.natAbs
  let seconds := size / 1000000
  (if offset < 0 then "-" else "+") ++ two (seconds / 3600) ++ ":" ++ two (seconds / 60 % 60)
    ++ (if seconds % 60 = 0 && size % 1000000 = 0 then "" else ":" ++ two (seconds % 60))
    ++ fraction (size % 1000000)

def isoText (moment : Moment) : String :=
  let date := moment.date
  padded 4 date.year.toNat ++ "-" ++ two date.month ++ "-" ++ two date.day ++ "T"
    ++ two (moment.seconds / 3600) ++ ":" ++ two (moment.seconds / 60 % 60) ++ ":"
    ++ two (moment.seconds % 60) ++ fraction moment.microseconds ++ offsetText moment.offset

def stamp (moment : Moment) : String :=
  let date := moment.date
  padded 4 date.year.toNat ++ "-" ++ two date.month ++ "-" ++ two date.day ++ " "
    ++ two (moment.seconds / 3600) ++ ":" ++ two (moment.seconds / 60 % 60) ++ ":"
    ++ two (moment.seconds % 60) ++ "," ++ padded 3 (moment.microseconds / 1000)

def millisecondsBetween (start stop : Moment) : Int :=
  let ticks := (stop.ticks - stop.offset) - (start.ticks - start.offset)
  (Float.ofInt ticks / 1000000.0 * 1000.0).toInt64.toInt

end Moment

structure Clock where
  now : Moment
  step : Int

def Clock.advance (clock : Clock) : Clock := { clock with now := clock.now.later clock.step }

end Refit
