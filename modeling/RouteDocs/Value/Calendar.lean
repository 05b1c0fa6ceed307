import RouteDocs.Decimal.Layout

/-!
# RouteDocs.Value.Calendar — dates and moments

A date of the Gregorian calendar, and a date with a time of day and, possibly, a distance from
universal time.  Both have a written form with the parts from the largest to the smallest.
-/

namespace RouteDocs

open Decimal

/-- A day of the Gregorian calendar. -/
structure Date where
  year : Nat
  month : Nat
  day : Nat
deriving Repr, DecidableEq, Inhabited

/-- A date and a time of day, with the seconds by which it is ahead of universal time if known. -/
structure Moment where
  date : Date
  hour : Nat
  minute : Nat
  second : Nat
  micro : Nat
  offset : Option Int
deriving Repr, DecidableEq, Inhabited

namespace Date

/-- A year with 29 days in February. -/
def isLeap (year : Nat) : Bool := year % 4 == 0 && (year % 100 != 0 || year % 400 == 0)

/-- The number of days of a month. -/
def daysIn (year month : Nat) : Nat :=
  match month with
  | 2 => if isLeap year then 29 else 28
  | 4 | 6 | 9 | 11 => 30
  | _ => 31

/-- The date, if there is such a day in the years 1 to 9999. -/
def ofParts? (year month day : Nat) : Option Date :=
  if 1 ≤ year && year ≤ 9999 && 1 ≤ month && month ≤ 12 && 1 ≤ day && day ≤ daysIn year month then
    some ⟨year, month, day⟩
  else none

/-- The number of days before the date since the start of year 1. -/
def ordinal (d : Date) : Nat :=
  let y := d.year - 1
  365 * y + y / 4 - y / 100 + y / 400 +
    (List.range (d.month - 1)).foldl (fun n m => n + daysIn d.year (m + 1)) 0 + (d.day - 1)

/-- The date as year, month and day. -/
def chars (d : Date) : List Char :=
  padded 4 d.year ++ '-' :: padded 2 d.month ++ '-' :: padded 2 d.day

end Date

namespace Moment

/-- The moment, if the parts are those of a date, a time of day and a distance below one day. -/
def ofParts? (date : Date) (hour minute second micro : Nat) (offset : Option Int) : Option Moment :=
  let offsetFits := match offset with
    | some o => -86400 < o && o < 86400
    | none => true
  if hour < 24 && minute < 60 && second < 60 && micro < 1000000 && offsetFits then
    some ⟨date, hour, minute, second, micro, offset⟩
  else none

/-- A distance from universal time with its sign; seconds only if there are any. -/
def offsetChars (o : Int) : List Char :=
  let n := o.natAbs
  let seconds := if n % 60 = 0 then [] else ':' :: padded 2 (n % 60)
  (if o < 0 then '-' else '+') :: padded 2 (n / 3600) ++ ':' :: padded 2 (n / 60 % 60) ++ seconds

/-- The moment as date, time of day and distance, with `separator` between date and time. -/
def chars (separator : Char) (m : Moment) : List Char :=
  let fraction := if m.micro = 0 then [] else '.' :: padded 6 m.micro
  let offset := match m.offset with
    | some o => offsetChars o
    | none => []
  m.date.chars ++ separator :: padded 2 m.hour ++ ':' :: padded 2 m.minute ++
    ':' :: padded 2 m.second ++ fraction ++ offset

/-- Seconds since the start of year 1, in universal time if the distance is known. -/
def seconds (m : Moment) : Int :=
  (m.date.ordinal * 86400 + m.hour * 3600 + m.minute * 60 + m.second : Nat) - m.offset.getD 0

/-- Two moments are the same point in time; one with a known distance differs from one without. -/
def same (a b : Moment) : Bool :=
  a.offset.isSome == b.offset.isSome && a.seconds == b.seconds && a.micro == b.micro

end Moment

end RouteDocs
