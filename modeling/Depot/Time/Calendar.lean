/-
The Gregorian calendar, extended back to the year 1, as a count of days.

Day 0 is the first of January of the year 1. `Date.toDay` counts the days before a date; `Date.ofDay` gives the date
of a day by cycles of 400, 100, 4 and 1 years, the last of which may be a day longer.
-/

namespace Depot.Time

structure Date where
  year : Nat
  month : Nat
  day : Nat
  deriving DecidableEq, Repr

namespace Date

/-- every fourth year, but no full century unless divisible by 400 -/
def isLeap (year : Nat) : Bool :=
  year % 4 == 0 && (year % 100 != 0 || year % 400 == 0)

def daysBeforeYear (year : Nat) : Nat :=
  let y := year - 1
  y * 365 + y / 4 - y / 100 + y / 400

def monthLengths (leap : Bool) : List Nat :=
  [31, if leap then 29 else 28, 31, 30, 31, 30, 31, 31, 30, 31, 30, 31]

/-- the length of one month, 0 for a month that does not exist -/
def daysInMonth (year month : Nat) : Nat :=
  if month = 0 then 0 else ((monthLengths (isLeap year))[month - 1]?).getD 0

def daysBeforeMonth (year month : Nat) : Nat :=
  ((monthLengths (isLeap year)).take (month - 1)).foldl Nat.add 0

/-- whether a date exists in the years 1 to 9999 -/
def isValid (d : Date) : Bool :=
  1 ≤ d.year && d.year ≤ 9999 && 1 ≤ d.day && d.day ≤ daysInMonth d.year d.month

def toDay (d : Date) : Nat :=
  daysBeforeYear d.year + daysBeforeMonth d.year d.month + (d.day - 1)

/-- the year of a day, and the days of that year before it -/
def yearOfDay (n : Nat) : Nat × Nat :=
  let r := n % 146097
  let century := min (r / 36524) 3
  let s := r - century * 36524
  let t := s % 1461
  let single := min (t / 365) 3
  (n / 146097 * 400 + century * 100 + s / 1461 * 4 + single + 1, t - single * 365)

/-- the month and day at a distance from the start of the month `month`, whose length comes first -/
def monthOfDay (month n : Nat) : List Nat → Nat × Nat
  | [] => (month, n + 1)
  | len :: rest => if n < len then (month, n + 1) else monthOfDay (month + 1) (n - len) rest

def ofDay (n : Nat) : Date :=
  let y := yearOfDay n
  let m := monthOfDay 1 y.2 (monthLengths (isLeap y.1))
  ⟨y.1, m.1, m.2⟩

/-- the weekday of a day, 0 for Monday -/
def weekday (day : Nat) : Nat :=
  day % 7

/-- the Monday of the first week of a year, that is the week of its first Thursday; negative before day 0 -/
def firstMonday (year : Nat) : Int :=
  let first := daysBeforeYear year
  let w := weekday first
  let monday : Int := (first : Int) - w
  if w ≤ 3 then monday else monday + 7

/-- whether a year has a 53rd week -/
def hasLongYear (year : Nat) : Bool :=
  let w := weekday (daysBeforeYear year)
  w == 3 || (w == 2 && isLeap year)

/-- the day of a year, week and weekday (1 for Monday), if there is one -/
def dayOfWeek? (year week weekday : Nat) : Option Int :=
  if 1 ≤ year ∧ (1 ≤ week ∧ week ≤ 52 ∨ week = 53 ∧ hasLongYear year) ∧ 1 ≤ weekday ∧ weekday ≤ 7 then
    some (firstMonday year + (week - 1 : Nat) * 7 + (weekday - 1 : Nat))
  else none

end Date

end Depot.Time
