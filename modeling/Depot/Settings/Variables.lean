/-
The variables that settings are read from: those of the environment, and those of a file.

A line of the file sets a variable if it has an equals sign and no `#` at its start; blanks around the name and the
value do not count, and one pair of equal quotes around the value is taken off. The last line that sets a variable
wins, and the environment wins over the file. A value can be read as a number or as yes or no.
-/
import Depot.Failure
import Depot.Text.Blank
import Depot.Text.Lower

namespace Depot.Settings

open Depot.Text

structure Variables where
  environment : List (String × String)
  file : List (String × String)
  deriving DecidableEq, Repr

namespace Variables

/-! ## The file -/

/-- the lines of a text; a line ends with a line feed, a carriage return, or one after the other -/
def lines : List Char → List (List Char)
  | [] => [[]]
  | '\r' :: '\n' :: rest => [] :: lines rest
  | c :: rest =>
    if c = '\n' ∨ c = '\r' then [] :: lines rest
    else match lines rest with
      | [] => [[c]]
      | line :: more => (c :: line) :: more

/-- a value without the quotes around it -/
def unquoted (cs : List Char) : List Char :=
  match cs with
  | [] => []
  | c :: rest =>
    let quote := c = Char.ofNat 0x22 ∨ c = Char.ofNat 0x27
    if quote ∧ rest ≠ [] ∧ rest.getLast? = some c then rest.dropLast else cs

/-- the variable that a line sets -/
def ofLine? (line : List Char) : Option (String × String) :=
  let line := Blank.trim Blank.isGap line
  if line.head? = some '#' ∨ !line.contains '=' then none
  else
    let name := line.takeWhile (· != '=')
    let value := (line.dropWhile (· != '=')).drop 1
    some (String.ofList (Blank.trim Blank.isGap name), String.ofList (unquoted (Blank.trim Blank.isGap value)))

/-- the variables that a text sets, from the last line to the first -/
def ofText (s : String) : List (String × String) :=
  ((lines s.toList).filterMap ofLine?).reverse

/-! ## Reading -/

def get? (v : Variables) (name : String) : Option String :=
  (v.environment.lookup name).or (v.file.lookup name)

/-- the value of a variable, or a given one -/
def text (v : Variables) (name otherwise : String) : String :=
  (v.get? name).getD otherwise

def numberOf (s : String) : Except Failure Int :=
  match Numeral.read? .decimal s with
  | .ok n => .ok n
  | .error .malformed => .error (.fault (.notInteger s))
  | .error (.tooLong digits) => .error (.fault (.tooManyDigits digits))

def yes : List String := ["y", "yes", "t", "true", "on", "1"]

def no : List String := ["n", "no", "f", "false", "off", "0"]

/-- a text as yes or no; an empty one is no -/
def flagOf (s : String) : Except Failure Bool :=
  let word := Lower.lower s
  if s = "" then .ok false
  else if yes.contains word then .ok true
  else if no.contains word then .ok false
  else .error (.fault (.notBoolean word))

/-- the number in a variable, or a given one -/
def number (v : Variables) (name : String) (otherwise : Int) : Except Failure Int :=
  match v.get? name with
  | some s => numberOf s
  | none => .ok otherwise

/-- the yes or no in a variable, or a given one -/
def flag (v : Variables) (name : String) (otherwise : Bool) : Except Failure Bool :=
  match v.get? name with
  | some s => flagOf s
  | none => .ok otherwise

end Variables

end Depot.Settings
