/-
Instants in UTC and their text.

Days count from 1 January 1970 in the proleptic Gregorian calendar.  The written form
has a fixed width for the years 0 to 9999, so that there the order of texts is the
order of instants:

* **`Timestamp.text`** — RFC 3339 with six places and `Z`;
* **`Timestamp.compact`** — date and time of day as digits, for version numbers;
* **`Timestamp.ofText?`** — reads RFC 3339 with any offset from UTC.
-/
import PlanHistory.Number.Decimal

namespace PlanHistory

/-- An instant to the microsecond: whole seconds since 1970 and the microseconds
beyond.  A leap second goes by the number of the second before it, with a million
microseconds and more. -/
structure Timestamp where
  second : Int
  micro : Nat
  micro_lt : micro < 1000000 ∨ (second % 60 = 59 ∧ micro < 2000000)
deriving DecidableEq, Repr

/-- A day of the calendar. -/
structure CalendarDate where
  year : Int
  month : Nat
  day : Nat
deriving DecidableEq, Repr

namespace CalendarDate

/-- The number of days in 400 years, after which the calendar repeats. -/
def cycleDays : Int := 146097

/-- Days from 1 March of year 0 to 1 January 1970. -/
def marchEpoch : Int := 719468

/-- The date of a day counted from 1 January 1970.  Years run from March, so that the
leap day is the last of its year. -/
def ofDays (days : Int) : CalendarDate :=
  let fromMarch := days + marchEpoch
  let cycle := fromMarch / cycleDays
  let dayOfCycle := (fromMarch % cycleDays).toNat
  let yearOfCycle :=
    (dayOfCycle - dayOfCycle / 1460 + dayOfCycle / 36524 - dayOfCycle / 146096) / 365
  let dayOfYear := dayOfCycle - (365 * yearOfCycle + yearOfCycle / 4 - yearOfCycle / 100)
  let monthFromMarch := (5 * dayOfYear + 2) / 153
  let day := dayOfYear - (153 * monthFromMarch + 2) / 5 + 1
  let month := if monthFromMarch < 10 then monthFromMarch + 3 else monthFromMarch - 9
  let year := cycle * 400 + yearOfCycle
  ⟨if month ≤ 2 then year + 1 else year, month, day⟩

/-- The day of a date, counted from 1 January 1970. -/
def days (date : CalendarDate) : Int :=
  let year := if date.month ≤ 2 then date.year - 1 else date.year
  let cycle := year / 400
  let yearOfCycle := (year % 400).toNat
  let monthFromMarch := if 2 < date.month then date.month - 3 else date.month + 9
  let dayOfYear := (153 * monthFromMarch + 2) / 5 + date.day - 1
  let dayOfCycle := yearOfCycle * 365 + yearOfCycle / 4 - yearOfCycle / 100 + dayOfYear
  cycle * cycleDays + dayOfCycle - marchEpoch

/-- Whether a year has a leap day. -/
def isLeapYear (year : Int) : Bool :=
  year % 4 == 0 && (year % 100 != 0 || year % 400 == 0)

/-- The number of days of a month. -/
def monthLength (year : Int) (month : Nat) : Nat :=
  if month == 2 then if isLeapYear year then 29 else 28
  else if month == 4 || month == 6 || month == 9 || month == 11 then 30
  else 31

/-- Whether the calendar has the date. -/
def isValid (date : CalendarDate) : Bool :=
  1 ≤ date.month && date.month ≤ 12 && 1 ≤ date.day
    && date.day ≤ monthLength date.year date.month

/-- A number with at least `width` digits. -/
def padded (width n : Nat) : List Char :=
  let digits := Decimal.numeral n
  List.replicate (width - digits.length) '0' ++ digits

/-- A year with at least four digits, and with a sign outside 0 to 9999. -/
def yearText (year : Int) : List Char :=
  if year < 0 then '-' :: padded 4 year.natAbs
  else if 9999 < year then '+' :: padded 4 year.natAbs
  else padded 4 year.natAbs

end CalendarDate

namespace Timestamp

open CalendarDate (padded)

/-- The instant some microseconds after the start of 1970. -/
def ofMicros (micros : Int) : Timestamp :=
  ⟨micros / 1000000, (micros % 1000000).toNat, by omega⟩

/-- The date of an instant. -/
def date (t : Timestamp) : CalendarDate :=
  CalendarDate.ofDays (t.second / 86400)

/-- The seconds of the day before an instant. -/
def secondOfDay (t : Timestamp) : Nat :=
  (t.second % 86400).toNat

/-- Hour and minute of the day. -/
def hour (t : Timestamp) : Nat := t.secondOfDay / 3600

/-- The minute of the hour. -/
def minute (t : Timestamp) : Nat := t.secondOfDay / 60 % 60

/-- The second of the minute; 60 in a leap second. -/
def secondOfMinute (t : Timestamp) : Nat :=
  t.secondOfDay % 60 + t.micro / 1000000

/-- RFC 3339 with six places and `Z`. -/
def text (t : Timestamp) : String :=
  String.ofList <|
    CalendarDate.yearText t.date.year ++ '-' :: padded 2 t.date.month ++ '-' :: padded 2 t.date.day
      ++ 'T' :: padded 2 t.hour ++ ':' :: padded 2 t.minute ++ ':' :: padded 2 t.secondOfMinute
      ++ '.' :: padded 6 (t.micro % 1000000) ++ ['Z']

/-- Date and time of day as digits around a point. -/
def compact (t : Timestamp) : String :=
  String.ofList <|
    CalendarDate.yearText t.date.year ++ padded 2 t.date.month ++ padded 2 t.date.day
      ++ '.' :: padded 2 t.hour ++ padded 2 t.minute ++ padded 2 t.secondOfMinute

/-- Date and time of day to the minute, for readers. -/
def toMinute (t : Timestamp) : String :=
  String.ofList <|
    CalendarDate.yearText t.date.year ++ '-' :: padded 2 t.date.month ++ '-' :: padded 2 t.date.day
      ++ ' ' :: padded 2 t.hour ++ ':' :: padded 2 t.minute

/-- Date and time of day to the second, for readers. -/
def toSecond (t : Timestamp) : String :=
  t.toMinute ++ String.ofList (':' :: padded 2 t.secondOfMinute)

/-- RFC 3339 with a numeric offset and as many places as there are, in threes. -/
def withOffset (t : Timestamp) : String :=
  let micro := t.micro % 1000000
  let fraction :=
    if micro == 0 then []
    else if micro % 1000 == 0 then '.' :: padded 3 (micro / 1000)
    else '.' :: padded 6 micro
  String.ofList <|
    CalendarDate.yearText t.date.year ++ '-' :: padded 2 t.date.month ++ '-' :: padded 2 t.date.day
      ++ 'T' :: padded 2 t.hour ++ ':' :: padded 2 t.minute ++ ':' :: padded 2 t.secondOfMinute
      ++ fraction ++ ['+', '0', '0', ':', '0', '0']

/-- A number of exactly `width` digits, and the text behind it. -/
def digits? (width : Nat) (cs : List Char) : Option (Nat × List Char) :=
  let digits := cs.take width
  if digits.length == width && digits.all Char.isDigit then
    some (Decimal.ofNumeral digits, cs.drop width)
  else none

/-- The microseconds of a fraction of a second; places beyond the sixth are dropped. -/
def fraction? : List Char → Option (Nat × List Char)
  | '.' :: rest =>
    match rest.takeWhile Char.isDigit with
    | [] => none
    | places =>
      let kept := places.take 6
      some (Decimal.ofNumeral kept * Nat.pow 10 (6 - kept.length), rest.dropWhile Char.isDigit)
  | rest => some (0, rest)

/-- The size of an offset from UTC, in minutes: hours up to 23, a colon and minutes
up to 59. -/
def offsetSize? (cs : List Char) : Option Int := do
  let (hours, rest) ← digits? 2 cs
  match rest with
  | ':' :: rest =>
    let (minutes, rest) ← digits? 2 rest
    if rest.isEmpty && hours ≤ 23 && minutes ≤ 59 then some (hours * 60 + minutes) else none
  | _ => none

/-- The offset from UTC that ends a text, in minutes. -/
def offset? : List Char → Option Int
  | ['Z'] => some 0
  | ['z'] => some 0
  | '+' :: rest => offsetSize? rest
  | '-' :: rest => (offsetSize? rest).map (- ·)
  | '−' :: rest => (offsetSize? rest).map (- ·)
  | _ => none

/-- The date that begins a text, with dashes. -/
def date? (cs : List Char) : Option (CalendarDate × List Char) := do
  let (year, rest) ← digits? 4 cs
  match rest with
  | '-' :: rest =>
    let (month, rest) ← digits? 2 rest
    match rest with
    | '-' :: rest =>
      let (day, rest) ← digits? 2 rest
      let date : CalendarDate := ⟨year, month, day⟩
      if date.isValid then some (date, rest) else none
    | _ => none
  | _ => none

/-- The time of day that begins a text, with colons: hour, minute and second. -/
def timeOfDay? (cs : List Char) : Option ((Nat × Nat × Nat) × List Char) := do
  let (hour, rest) ← digits? 2 cs
  match rest with
  | ':' :: rest =>
    let (minute, rest) ← digits? 2 rest
    match rest with
    | ':' :: rest =>
      let (second, rest) ← digits? 2 rest
      if hour ≤ 23 && minute ≤ 59 && second ≤ 60 then some ((hour, minute, second), rest)
      else none
    | _ => none
  | _ => none

/-- The instant at a number of seconds since 1970, in or out of a leap second. -/
def at? (second : Int) (micro : Nat) : Option Timestamp :=
  if h : micro < 1000000 ∨ (second % 60 = 59 ∧ micro < 2000000) then some ⟨second, micro, h⟩
  else none

/-- The instant that an RFC 3339 text names.  Date and time are parted by `T`, in
either case, or a space; a sixtieth second is a leap second. -/
def ofText? (text : String) : Option Timestamp := do
  let (date, rest) ← date? text.toList
  match rest with
  | parting :: rest =>
    if parting == 'T' || parting == 't' || parting == ' ' then
      let ((hour, minute, second), rest) ← timeOfDay? rest
      let (micro, rest) ← fraction? rest
      let offset ← offset? rest
      let minutes := date.days * 1440 + hour * 60 + minute - offset
      if second = 60 then at? (minutes * 60 + 59) (micro + 1000000)
      else at? (minutes * 60 + second) micro
    else none
  | [] => none

end Timestamp

end PlanHistory
