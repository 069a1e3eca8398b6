/-
Reading a timestamp from its written form, leniently.

A date is `YYYY-MM-DD` or `YYYYMMDD`, or a week with or without a weekday, `YYYY-Www-D`, `YYYYWwwD`, `YYYY-Www`,
`YYYYWww`. Any one character separates it from the time. A time is two digits each of hours, minutes and seconds, of
which the last ones may be missing, with colons between them or none, and a fraction of which six digits count. A
distance from UTC is `Z`, or a sign and a time. Where date and time run together the place of the separator is decided
by looking ahead (`dateLength?`). Two habits are part of the form: after a colon-separated time of three fields a
colon may begin the fraction, and one more character may stand between the time and the distance from UTC.

The form is read byte by byte; a byte past the end counts as 0. What was read (`Parts`) need not be in the calendar:
`Timestamp.ofText` gives the timestamp, or says which part is to blame.
-/
import Depot.Text.Utf8
import Depot.Time.Timestamp

namespace Depot.Time.IsoReader

def isDigit (b : Nat) : Bool :=
  0x30 ≤ b && b ≤ 0x39

/-- the byte at a place, 0 past the end -/
def byteAt (bytes : List Nat) (i : Nat) : Nat :=
  (bytes[i]?).getD 0

/-- a number of exactly so many digits after those already read, and what follows it -/
def number? : Nat → Nat → List Nat → Option (Nat × List Nat)
  | 0, n, rest => some (n, rest)
  | _ + 1, _, [] => none
  | k + 1, n, b :: rest => if isDigit b then number? k (n * 10 + (b - 0x30)) rest else none

/-- the length of the date at the start of a form: the place of the separator or of the end -/
def dateLength? (bytes : List Nat) : Option Nat :=
  let look := byteAt bytes
  if bytes.length = 7 then some 7
  else if look 4 = 0x2D then
    if look 5 = 0x57 then
      if bytes.length > 8 ∧ look 8 = 0x2D then
        if bytes.length = 9 then none
        else if bytes.length > 10 ∧ isDigit (look 10) then some 8
        else some 10
      else some 8
    else some 10
  else if look 4 = 0x57 then
    let stop := 7 + ((bytes.drop 7).takeWhile isDigit).length
    if stop < 9 then some stop else if stop % 2 = 0 then some 7 else some 8
  else some 8

/-- what follows a hyphen, if one is called for -/
def hyphen? (called : Bool) : List Nat → Option (List Nat)
  | b :: rest => if called then (if b = 0x2D then some rest else none) else some (b :: rest)
  | [] => if called then none else some []

/-- the date of a year, week and weekday; those of the year 0 are no dates at all -/
def weekDate? (year week weekday : Nat) : Option Date :=
  if year = 0 then
    if 1 ≤ week ∧ week ≤ 52 ∧ 1 ≤ weekday ∧ weekday ≤ 7 then some ⟨1, 0, 1⟩ else none
  else (Date.dayOfWeek? year week weekday).map fun day => Date.ofDay day.toNat

/-- the date of a form whose date is `length` bytes long -/
def date? (length : Nat) (bytes : List Nat) : Option Date := do
  let (year, rest) ← number? 4 0 bytes
  let dashed := byteAt rest 0 == 0x2D
  let rest := if dashed then rest.drop 1 else rest
  match rest with
  | 0x57 :: rest =>
    let (week, rest) ← number? 2 0 rest
    if bytes.length - rest.length < length then
      let rest ← hyphen? dashed rest
      let (weekday, _) ← number? 1 0 rest
      weekDate? year week weekday
    else weekDate? year week 1
  | rest =>
    let (month, rest) ← number? 2 0 rest
    let rest ← hyphen? dashed rest
    let (day, _) ← number? 2 0 rest
    return ⟨year, month, day⟩

/-- a time as it was read: its fields, its microseconds, and whether something follows -/
structure Clock where
  fields : List Nat
  micros : Nat
  more : Bool

/-- the fraction of a second, and whether something other than digits follows it -/
def fraction? (fields bytes : List Nat) (next : Nat) : Option Clock := do
  let width := min 6 bytes.length
  let (n, rest) ← number? width 0 bytes
  let rest := rest.dropWhile isDigit
  return ⟨fields, n * Nat.pow 10 (6 - width), rest.headD next != 0⟩

/-- the fields still to come of a time that ends before the byte `next`, once it is known whether colons separate them -/
def clock? : Nat → Option Bool → List Nat → List Nat → Nat → Option Clock
  | 0, _, fields, bytes, next => fraction? fields bytes next
  | k + 1, colons, fields, bytes, next => do
    let (n, rest) ← number? 2 0 bytes
    let fields := fields ++ [n]
    let colons := colons.getD (rest.headD next == 0x3A)
    match rest with
    | [] => return ⟨fields, 0, next != 0⟩
    | [b] => return ⟨fields, 0, b != 0⟩
    | b :: rest' =>
      if colons && b == 0x3A then clock? k (some colons) fields rest' next
      else if b == 0x2E || b == 0x2C then fraction? fields rest' next
      else if colons then none
      else clock? k (some colons) fields rest next

namespace Clock

/-- hours, minutes and seconds, 0 for the missing ones -/
def field (c : Clock) (i : Nat) : Nat :=
  (c.fields[i]?).getD 0

def seconds (c : Clock) : Nat :=
  c.field 0 * 3600 + c.field 1 * 60 + c.field 2

def timeOfDay? (c : Clock) : Option Nat :=
  if c.field 0 < 24 ∧ c.field 1 < 60 ∧ c.field 2 < 60 then some (c.seconds * second + c.micros) else none

def midnight : Clock := ⟨[], 0, false⟩

end Clock

/-- a byte that begins a distance from UTC -/
def beginsOffset (b : Nat) : Bool :=
  b == 0x2B || b == 0x2D || b == 0x5A

/-- the distance from UTC that a sign or `Z` begins; one of less than a second is none at all -/
def offset? : List Nat → Option Int
  | [] => none
  | 0x5A :: rest => if rest.headD 0 = 0 then some 0 else none
  | sign :: rest => do
    let c ← clock? 3 none [] rest 0
    if c.more then none
    else if c.seconds = 0 then some 0
    else
      let micros : Int := c.seconds * second + c.micros
      return if sign = 0x2D then -micros else micros

/-- the time and the distance from UTC, if one is given -/
def time? (bytes : List Nat) : Option (Clock × Option Int) := do
  let clockBytes := bytes.takeWhile (!beginsOffset ·)
  let rest := bytes.dropWhile (!beginsOffset ·)
  let c ← clock? 3 none [] clockBytes (rest.headD 0)
  if rest.isEmpty then
    if c.more then none else some (c, none)
  else
    let o ← offset? rest
    return (c, some o)

def dropChar : List Nat → List Nat
  | [] => []
  | b :: rest =>
    if b < 0x80 then rest
    else if 0xF0 ≤ b then rest.drop 3
    else if 0xE0 ≤ b then rest.drop 2
    else rest.drop 1

structure Parts where
  date : Date
  clock : Clock
  offset : Option Int

/-- what a form given by its bytes says -/
def ofBytes? (bytes : List Nat) : Option Parts := do
  let length ← dateLength? bytes
  let date ← date? length bytes
  if bytes.length ≤ length then return ⟨date, .midnight, none⟩
  else
    let (clock, offset) ← time? (dropChar (bytes.drop length))
    return ⟨date, clock, offset⟩

/-- what a text says, if it has the form -/
def ofText? (s : String) : Option Parts :=
  if s.length < 7 then none
  else ofBytes? ((Text.Utf8.encode s).map UInt8.toNat)

/-- the timestamp that has these parts, if there is one -/
def Parts.timestamp? (p : Parts) : Option Timestamp := do
  Timestamp.of? p.date (← p.clock.timeOfDay?) p.offset

end IsoReader

/-- why a text is no timestamp: it does not have the form, or a part of it is out of range -/
inductive Refusal where
  | form
  /-- microseconds ahead of UTC -/
  | offset (micros : Int)
  | year (n : Nat)
  | month
  | day
  | hour
  | minute
  | second
  deriving DecidableEq, Repr

/-- the first part that no timestamp has -/
def IsoReader.Parts.blame (p : Parts) : Refusal :=
  let offset := p.offset.getD 0
  if day ≤ offset.natAbs then .offset offset
  else if p.date.year = 0 ∨ 9999 < p.date.year then .year p.date.year
  else if p.date.month = 0 ∨ 12 < p.date.month then .month
  else if !p.date.isValid then .day
  else if 24 ≤ p.clock.field 0 then .hour
  else if 60 ≤ p.clock.field 1 then .minute
  else .second

namespace Timestamp

/-- the timestamp of a written form -/
def ofText (s : String) : Except Refusal Timestamp :=
  match IsoReader.ofText? s with
  | none => .error .form
  | some p =>
    match p.timestamp? with
    | some t => .ok t
    | none => .error p.blame

/-- the timestamp of a written form, if it is one -/
def ofIso? (s : String) : Option Timestamp :=
  (ofText s).toOption

end Timestamp

end Depot.Time
