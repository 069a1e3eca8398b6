/-
The written form of a timestamp: `2024-01-01T00:00:00+00:00`.

Six digits of a second's fraction follow the time if they are not all zero. The distance from UTC, if known, follows
with its sign, with seconds if they are not zero, and with a fraction if that is not zero.
-/
import Depot.Text.Numeral
import Depot.Time.Timestamp

namespace Depot.Time

open Depot.Text

/-- the fraction of a second, if not zero -/
def fractionText (micros : Nat) : String :=
  if micros = 0 then "" else "." ++ Numeral.padded 6 micros

/-- a date: four digits of the year, two of the month, two of the day -/
def Date.text (d : Date) : String :=
  Numeral.padded 4 d.year ++ "-" ++ Numeral.padded 2 d.month ++ "-" ++ Numeral.padded 2 d.day

def timeText (micros : Nat) : String :=
  Numeral.padded 2 (micros / hour) ++ ":" ++ Numeral.padded 2 (micros / minute % 60) ++ ":"
    ++ Numeral.padded 2 (micros / second % 60) ++ fractionText (micros % second)

def distanceText (micros : Nat) : String :=
  let seconds := micros / second % 60
  let fraction := micros % second
  Numeral.padded 2 (micros / hour) ++ ":" ++ Numeral.padded 2 (micros / minute % 60)
    ++ if seconds = 0 ∧ fraction = 0 then "" else ":" ++ Numeral.padded 2 seconds ++ fractionText fraction

/-- a distance from UTC with its sign, nothing if unknown -/
def offsetText : Option Int → String
  | none => ""
  | some o => (if o < 0 then "-" else "+") ++ distanceText o.natAbs

namespace Timestamp

/-- the written form with a given character between date and time -/
def text (separator : String) (t : Timestamp) : String :=
  t.date.text ++ separator ++ timeText t.timeOfDay ++ offsetText t.offset

/-- the written form with a `T` between date and time -/
def iso (t : Timestamp) : String :=
  t.text "T"

/-- the written form with a space between date and time -/
def spaced (t : Timestamp) : String :=
  t.text " "

end Timestamp

end Depot.Time
