/-
Dates and times of day in the proleptic Gregorian calendar. Moments are counted from the start of the
year 2000; counts and calendar fields are related by the usual arithmetic of eras of 400 years.
-/
import TypedStore.Text.Word

set_option autoImplicit false

namespace TypedStore.Calendar

open TypedStore.Text (natText padded)

/-! ## 1. Fields -/

/-- A day of the calendar. -/
structure Date where
  year : Int
  month : Nat
  day : Nat
deriving DecidableEq, Repr

/-- A time of day. -/
structure Time where
  hour : Nat
  minute : Nat
  second : Nat
  nanosecond : Nat
deriving DecidableEq, Repr

/-- A day and a time of day, wherever the clock hangs. -/
structure Timestamp where
  date : Date
  time : Time
deriving DecidableEq, Repr

/-- A clock reading with the distance of the clock from universal time, in seconds. -/
structure ZonedTimestamp where
  clock : Timestamp
  offset : Int
deriving DecidableEq, Repr

/-! ## 2. Counting -/

/-- Years that dates can have, on both sides of zero. -/
def yearLimit : Int := 9999

/-- Days from 2000-01-01 to a date. Years are counted from March, so a leap day ends its year. -/
def Date.toDays (d : Date) : Int :=
  let y := if d.month ≤ 2 then d.year - 1 else d.year
  let era := Int.fdiv y 400
  let yearOfEra := y - era * 400
  let monthFromMarch : Int := ((d.month + 9) % 12 : Nat)
  -- five months from March or August on have 153 days
  let dayOfYear := (153 * monthFromMarch + 2) / 5 + d.day - 1
  let dayOfEra := yearOfEra * 365 + yearOfEra / 4 - yearOfEra / 100 + dayOfYear
  era * 146097 + dayOfEra - 730425

/-- The date a count of days from 2000-01-01 away, if its year is in range. -/
def Date.ofDays? (n : Int) : Option Date :=
  let z := n + 730425
  let era := Int.fdiv z 146097
  -- an era of 400 years has 146097 days
  let dayOfEra := z - era * 146097
  let yearOfEra := (dayOfEra - dayOfEra / 1460 + dayOfEra / 36524 - dayOfEra / 146096) / 365
  let dayOfYear := dayOfEra - (365 * yearOfEra + yearOfEra / 4 - yearOfEra / 100)
  let fromMarch := (5 * dayOfYear + 2) / 153
  let day := dayOfYear - (153 * fromMarch + 2) / 5 + 1
  let month := if fromMarch < 10 then fromMarch + 3 else fromMarch - 9
  let year := yearOfEra + era * 400 + (if month ≤ 2 then 1 else 0)
  if -yearLimit ≤ year ∧ year ≤ yearLimit then some ⟨year, month.toNat, day.toNat⟩ else none

/-- Nanoseconds of a day. -/
def dayNanoseconds : Int := 86400000000000

/-- Nanoseconds since midnight. -/
def Time.toNanoseconds (t : Time) : Int :=
  (((t.hour * 60 + t.minute) * 60 + t.second) * 1000000000 + t.nanosecond : Nat)

/-- The time of day after some nanoseconds, going round at midnight. -/
def Time.ofNanoseconds (n : Int) : Time :=
  let left := (Int.fmod n dayNanoseconds).toNat
  let seconds := left / 1000000000
  ⟨seconds / 3600, seconds / 60 % 60, seconds % 60, left % 1000000000⟩

/-- Nanoseconds from the start of 2000 to a clock reading. -/
def Timestamp.toNanoseconds (t : Timestamp) : Int :=
  t.date.toDays * dayNanoseconds + t.time.toNanoseconds

/-- The clock reading after some nanoseconds, if its year is in range. -/
def Timestamp.ofNanoseconds? (n : Int) : Option Timestamp :=
  (Date.ofDays? (Int.fdiv n dayNanoseconds)).map fun date => ⟨date, Time.ofNanoseconds n⟩

/-- Nanoseconds from the start of 2000, in universal time, to a moment. -/
def ZonedTimestamp.toNanoseconds (t : ZonedTimestamp) : Int :=
  t.clock.toNanoseconds - t.offset * 1000000000

/-! ## 3. Text -/

/-- Year of at least four digits, month and day. -/
def Date.text (d : Date) : String :=
  (if d.year < 0 then "-" else "") ++ padded 4 d.year.natAbs ++ "-" ++ padded 2 d.month ++ "-"
    ++ padded 2 d.day

/-- The decimals of a second, at least one and no zeros beyond it. -/
def fractionText (nanosecond : Nat) : String :=
  match (padded 9 nanosecond).toList with
  | [] => ""
  | first :: rest =>
    String.ofList (first :: (rest.reverse.dropWhile (· == '0')).reverse)

/-- Hours without padding, minutes and seconds with it. -/
def Time.text (t : Time) : String :=
  natText t.hour ++ ":" ++ padded 2 t.minute ++ ":" ++ padded 2 t.second ++ "."
    ++ fractionText t.nanosecond

/-- Date and time. -/
def Timestamp.text (t : Timestamp) : String :=
  t.date.text ++ " " ++ t.time.text

/-- Date, time and the signed offset. -/
def ZonedTimestamp.text (t : ZonedTimestamp) : String :=
  let size := t.offset.natAbs
  t.clock.text ++ " " ++ (if t.offset < 0 then "-" else "+") ++ padded 2 (size / 3600) ++ ":"
    ++ padded 2 (size / 60 % 60) ++ ":" ++ padded 2 (size % 60)

end TypedStore.Calendar
