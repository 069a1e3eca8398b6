/-
Moments with a resolution of one microsecond.

A `Timestamp` is what a wall clock shows, within the years 1 to 9999, and how far that clock is ahead of UTC, if
known. Its `instant` is its place on the line of UTC; a clock whose distance from UTC is not known counts as UTC
there. Two timestamps are ordered by their instants, unless the distance is known of only one of them (`isBefore?`).
The instant of a timestamp near either end of the calendar may have no date in UTC (`toUtc?`).
-/
import Depot.Time.Calendar

namespace Depot.Time

/-- microseconds in a second -/
def second : Nat := 1000000

def minute : Nat := 60 * second

def hour : Nat := 60 * minute

def day : Nat := 24 * hour

/-- the first microsecond after the year 9999 -/
def limit : Nat := 3652059 * day

/-- what a wall clock shows, and its distance from UTC -/
structure Timestamp where
  /-- microseconds since the start of the year 1 -/
  wall : Nat
  /-- microseconds that the clock is ahead of UTC, if that is known -/
  offset : Option Int
  wall_lt : wall < limit
  offset_lt : ∀ o ∈ offset, -(day : Int) < o ∧ o < day
  deriving DecidableEq

namespace Timestamp

def utc (wall : Nat) (h : wall < limit) : Timestamp :=
  ⟨wall, some 0, h, by intro o ho; cases ho; decide⟩

instance : Inhabited Timestamp := ⟨utc 0 (by decide)⟩

/-- the place on the line of UTC, in microseconds since the start of the year 1 -/
def instant (t : Timestamp) : Int :=
  t.wall - t.offset.getD 0

/-- another reading of the same clock, if within the calendar -/
def withWall? (t : Timestamp) (wall : Int) : Option Timestamp :=
  if h : 0 ≤ wall ∧ wall < limit then some { t with wall := wall.toNat, wall_lt := by omega } else none

/-- the reading of the same clock some microseconds later -/
def add? (t : Timestamp) (micros : Int) : Option Timestamp :=
  t.withWall? (t.wall + micros)

/-- the timestamp in UTC of an instant, if within the calendar -/
def ofInstant? (i : Int) : Option Timestamp :=
  if h : 0 ≤ i ∧ i < limit then some (utc i.toNat (by omega)) else none

/-- the same instant in UTC, if within the calendar -/
def toUtc? (t : Timestamp) : Option Timestamp :=
  ofInstant? t.instant

/-- whether one timestamp is before another; none if the distance from UTC is known of only one of them -/
def isBefore? (a b : Timestamp) : Option Bool :=
  if a.offset.isSome = b.offset.isSome then some (decide (a.instant < b.instant)) else none

/-- the timestamp of a date, a time of day in microseconds and a distance from UTC, if there is one -/
def of? (date : Date) (micros : Nat) (offset : Option Int) : Option Timestamp :=
  let wall := date.toDay * day + micros
  if h : date.isValid ∧ wall < limit ∧ ∀ o ∈ offset, -(day : Int) < o ∧ o < day then
    some ⟨wall, offset, h.2.1, h.2.2⟩
  else none

def date (t : Timestamp) : Date :=
  Date.ofDay (t.wall / day)

/-- the time of day that the clock shows, in microseconds -/
def timeOfDay (t : Timestamp) : Nat :=
  t.wall % day

end Timestamp

end Depot.Time
