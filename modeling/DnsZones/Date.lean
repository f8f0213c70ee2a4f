/-!
# Calendar Dates

Days of the proleptic Gregorian calendar, as numbers of eight digits.

A serial number begins with the day on which it was given out, written as year,
month and day. The number orders days as the calendar does, because the month
never reaches 100 and neither does the day.

## Main definitions

* `Date`: A day that exists.
* `Date.base`: The day as a number, `YYYYMMDD`.
-/

namespace DnsZones

/-- Whether a year has a 29th of February. -/
def isLeapYear (year : Int) : Bool :=
  year % 4 == 0 && (year % 100 != 0 || year % 400 == 0)

/-- The number of days of a month. -/
def daysInMonth (year : Int) (month : Nat) : Nat :=
  match month with
  | 2 => if isLeapYear year then 29 else 28
  | 4 | 6 | 9 | 11 => 30
  | _ => 31

/-- A day of the calendar. -/
structure Date where
  /-- The year; the year 0 is the year before the year 1. -/
  year : Int
  month : Nat
  /-- The day of the month. -/
  day : Nat
  /-- There are twelve months. -/
  month_valid : 1 ≤ month ∧ month ≤ 12
  /-- A month has no other days. -/
  day_valid : 1 ≤ day ∧ day ≤ daysInMonth year month
  deriving DecidableEq

namespace Date

/-- The day that a year, a month and a day of the month name, if there is one. -/
def ofParts? (year : Int) (month day : Nat) : Option Date :=
  if hm : 1 ≤ month ∧ month ≤ 12 then
    if hd : 1 ≤ day ∧ day ≤ daysInMonth year month then some ⟨year, month, day, hm, hd⟩
    else none
  else none

/-- The first day of the year 1970. -/
def epoch : Date := ⟨1970, 1, 1, by decide, by decide⟩

instance : Inhabited Date := ⟨epoch⟩

/-- A day as a number of eight digits. Years before the year 0 count as the year 0. -/
def base (date : Date) : UInt32 :=
  UInt32.ofNat (date.year.toNat * 10000 + date.month * 100 + date.day)

end Date

end DnsZones
