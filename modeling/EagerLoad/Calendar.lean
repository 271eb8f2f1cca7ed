/-!
# Dates and times of day

Days are counted from 1970-01-01 in the proleptic Gregorian calendar. A time of day is a second with
nanoseconds; from a whole second of nanoseconds on it lies in a leap second, which is written as
second 60.
-/

namespace EagerLoad

/-- A day of the calendar. -/
structure Date where
  year : Int
  month : Nat
  day : Nat
deriving DecidableEq

/-- A time of day. -/
structure TimeOfDay where
  /-- Seconds since midnight. -/
  second : Nat
  /-- Nanoseconds since that second; a leap second starts at 10⁹. -/
  nanosecond : Nat
deriving DecidableEq

/-- An instant in universal time. -/
structure Instant where
  /-- Seconds since the start of 1970. -/
  second : Int
  /-- Nanoseconds since that second; a leap second starts at 10⁹. -/
  nanosecond : Nat
deriving DecidableEq

namespace Calendar

/-- Decimal digits with leading zeros up to a width. -/
def padded (width n : Nat) : String :=
  let digits := Nat.toDigits 10 n
  String.ofList (List.replicate (width - digits.length) '0' ++ digits)

/-- The year in four digits; outside 0 to 9999 it carries its sign. -/
def yearText (year : Int) : String :=
  if 0 ≤ year ∧ year ≤ 9999 then padded 4 year.toNat
  else (if year < 0 then "-" else "+") ++ padded 4 year.natAbs

/-- A fraction of a second in the fewest groups of three digits that are exact. -/
def fractionText (nanosecond : Nat) : String :=
  if nanosecond = 0 then ""
  else if nanosecond % 1000000 = 0 then "." ++ padded 3 (nanosecond / 1000000)
  else if nanosecond % 1000 = 0 then "." ++ padded 6 (nanosecond / 1000)
  else "." ++ padded 9 nanosecond

end Calendar

open Calendar in
/-- Year, month and day between hyphens. -/
def Date.text (d : Date) : String :=
  yearText d.year ++ "-" ++ padded 2 d.month ++ "-" ++ padded 2 d.day

open Calendar in
/-- Hour, minute and second between colons, with the fraction. -/
def TimeOfDay.text (t : TimeOfDay) : String :=
  let leap := 1000000000 ≤ t.nanosecond
  let second := t.second % 60 + if leap then 1 else 0
  let nanosecond := if leap then t.nanosecond - 1000000000 else t.nanosecond
  padded 2 (t.second / 3600) ++ ":" ++ padded 2 (t.second / 60 % 60) ++ ":" ++ padded 2 second
    ++ fractionText nanosecond

/-- The day that lies `days` after 1970-01-01. Years start in March here, so that a leap day ends one,
and 400 of them make an era of 146097 days. -/
def Date.ofDays (days : Int) : Date :=
  let shifted := days + 719468
  let era := shifted / 146097
  let dayOfEra := (shifted % 146097).toNat
  let yearOfEra :=
    (dayOfEra - dayOfEra / 1460 + dayOfEra / 36524 - dayOfEra / 146096) / 365
  let dayOfYear := dayOfEra - (365 * yearOfEra + yearOfEra / 4 - yearOfEra / 100)
  let marchMonth := (5 * dayOfYear + 2) / 153
  let day := dayOfYear - (153 * marchMonth + 2) / 5 + 1
  let month := if marchMonth < 10 then marchMonth + 3 else marchMonth - 9
  ⟨yearOfEra + era * 400 + (if month ≤ 2 then 1 else 0), month, day⟩

/-- The day of an instant. -/
def Instant.date (i : Instant) : Date :=
  Date.ofDays (i.second / 86400)

/-- The time of day of an instant. -/
def Instant.time (i : Instant) : TimeOfDay :=
  ⟨(i.second % 86400).toNat, i.nanosecond⟩

/-- Day and time of day with a `T` between them. -/
def Instant.text (i : Instant) : String :=
  i.date.text ++ "T" ++ i.time.text

end EagerLoad
