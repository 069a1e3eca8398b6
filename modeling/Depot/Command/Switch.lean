/-
Switches on a command line, and how arguments are read as switches.

An argument that starts with a dash is a switch: by one of its names, by the start of just one long name where that is
enough, with its value after an equals sign or, for short names, right behind the name. A value can also be the next
argument, if that is no switch. A switch whose value is written as `--` is given without a value. Behind the short name
of a switch that has no value the short names of others may stand (`group`). Negative numbers and arguments with a
space are no switches unless they name one, and nothing is after `--`. All arguments are told apart before any is read,
so an ambiguous one is reported before all other trouble; then the first trouble counts. The first row of arguments
that belong to no switch can be taken as operands (`Stage`); what is left over is reported last.
-/
import Depot.Failure

namespace Depot.Command

open Depot.Text

/-- what follows a switch -/
inductive Operand where
  | nothing
  | text
  /-- a whole number, one of the choices if there are any -/
  | number (choices : List Int)
  deriving DecidableEq, Repr

structure Switch where
  names : List String
  operand : Operand
  deriving DecidableEq, Repr

namespace Switch

/-- how a switch is called in messages -/
def label (s : Switch) : String :=
  "/".intercalate s.names

end Switch

/-- the value of a switch that was given; none also where `--` stood for the value -/
inductive Value where
  | none
  | text (s : String)
  | number (n : Int)
  deriving DecidableEq, Repr

structure Given where
  switch : Switch
  value : Value
  deriving DecidableEq, Repr

/-! ## Telling arguments apart -/

/-- the argument after which there are no switches -/
def divider : String := "--"

/-- what an argument is -/
inductive Kind where
  /-- a value, or nothing known -/
  | plain
  /-- the argument after which there are no switches -/
  | divider
  /-- a switch by one of its names, with what stands behind the name in the same argument -/
  | switch (name : String) (s : Switch) (behind : Option String)
  /-- looks like a switch, but is none -/
  | unknown
  deriving DecidableEq, Repr

/-- all names of switches, each with its switch -/
def named (switches : List Switch) : List (String × Switch) :=
  switches.flatMap fun s => s.names.map fun n => (n, s)

/-- an argument up to its first equals sign, and what comes after it -/
def splitAtEquals (cs : List Char) : List Char × Option (List Char) :=
  match cs.dropWhile (· != '=') with
  | [] => (cs, none)
  | _ :: value => (cs.takeWhile (· != '='), some value)

/-- the switches that an argument can mean by the start of a long name, if names may be cut short, or by a short name
with a value behind it -/
def candidates (switches : List Switch) (cut : Bool) (cs : List Char) : List (String × Switch × Option String) :=
  match cs with
  | '-' :: '-' :: _ =>
    let (start, value) := splitAtEquals cs
    (named switches).filterMap fun (n, s) =>
      if cut && start.isPrefixOf n.toList then some (n, s, value.map String.ofList) else none
  | _ =>
    (named switches).filterMap fun (n, s) =>
      if n.toList = cs.take 2 then some (n, s, some (String.ofList (cs.drop 2)))
      else if cs.isPrefixOf n.toList then some (n, s, none)
      else none

/-- whether all characters are digits, and there are some -/
def allDigits (cs : List Char) : Bool :=
  !cs.isEmpty && cs.all fun c => (Digit.value? c).isSome

/-- whether an argument is a negative number; it may end with a line feed -/
def isNegativeNumber (cs : List Char) : Bool :=
  match cs with
  | '-' :: rest =>
    let rest := if rest.getLast? = some '\n' then rest.dropLast else rest
    let whole := rest.takeWhile (· != '.')
    match rest.dropWhile (· != '.') with
    | [] => allDigits whole
    | _ :: part => (whole.isEmpty || allDigits whole) && allDigits part
  | _ => false

/-- what an argument is, if `--` does not stand before it -/
def kindOf (switches : List Switch) (cut : Bool) (argument : String) : Except Misuse Kind :=
  let cs := argument.toList
  let (front, value) := splitAtEquals cs
  if argument = divider then .ok .divider
  else if cs.head? ≠ some '-' then .ok .plain
  else match (named switches).lookup argument with
    | some s => .ok (.switch argument s none)
    | none =>
      if cs.length = 1 then .ok .plain
      else match value.bind fun v => ((named switches).lookup (String.ofList front)).map (·, v) with
        | some (s, v) => .ok (.switch (String.ofList front) s (some (String.ofList v)))
        | none =>
          match candidates switches cut cs with
          | [(n, s, v)] => .ok (.switch n s v)
          | [] => .ok (if isNegativeNumber cs || cs.contains ' ' then .plain else .unknown)
          | several => .error (.ambiguous argument (several.map (·.1)))

def kinds (switches : List Switch) (cut : Bool) : List String → Except Misuse (List (String × Kind))
  | [] => .ok []
  | a :: rest => do
    match ← kindOf switches cut a with
    | .divider => return (a, .divider) :: rest.map (·, .plain)
    | kind => return (a, kind) :: (← kinds switches cut rest)

/-! ## Switches in one argument -/

/-- the switches that stand together in one argument: those before the last one have no value -/
structure Group where
  before : List Switch
  last : Switch
  value : Option String
  deriving DecidableEq, Repr

/-- the switch by a short name and those behind it, up to one that takes what is left as its value -/
def spread (switches : List Switch) (s : Switch) : List Char → Except Misuse Group
  | [] => .ok ⟨[], s, none⟩
  | c :: rest =>
    if s.operand ≠ .nothing then .ok ⟨[], s, some (String.ofList (c :: rest))⟩
    else match (named switches).lookup (String.ofList ['-', c]) with
      | none => .error (.unwantedValue s.label (String.ofList (c :: rest)))
      | some next => do
        let g ← spread switches next rest
        return { g with before := s :: g.before }

/-- whether a name begins with two dashes -/
def isLong (name : String) : Bool :=
  match name.toList with
  | '-' :: '-' :: _ => true
  | _ => false

/-- the switches that an argument gives by a name and what stands behind it -/
def group (switches : List Switch) (name : String) (s : Switch) : Option String → Except Misuse Group
  | none => .ok ⟨[], s, none⟩
  | some behind =>
    if s.operand ≠ .nothing then .ok ⟨[], s, some behind⟩
    else if isLong name || behind = "" then .error (.unwantedValue s.label behind)
    else spread switches s behind.toList

/-! ## Reading -/

/-- a text as the value of a switch -/
def Switch.read (s : Switch) (text : String) : Except Misuse Given :=
  if s.operand = .nothing then .error (.unwantedValue s.label text)
  else if text = divider then .ok ⟨s, .none⟩
  else match s.operand with
    | .nothing | .text => .ok ⟨s, .text text⟩
    | .number choices =>
      match Numeral.read? .decimal text with
      | .error _ => .error (.notInteger s.label text)
      | .ok n =>
        if choices.isEmpty || choices.contains n then .ok ⟨s, .number n⟩
        else .error (.notAChoice s.label n choices)

/-- arguments read in turn: the switches given, up to one that ends all reading, the operands, and the arguments that
belong to neither -/
structure Reading where
  given : List Given
  operands : List String
  extra : List String

namespace Reading

def empty : Reading := ⟨[], [], []⟩

/-- one more switch before those of a reading -/
def withGiven (g : Given) (r : Reading) : Reading :=
  { r with given := g :: r.given }

/-- one more operand before those of a reading -/
def withOperand (a : String) (r : Reading) : Reading :=
  { r with operands := a :: r.operands }

/-- one more argument that belongs to nothing before those of a reading -/
def withExtra (a : String) (r : Reading) : Reading :=
  { r with extra := a :: r.extra }

end Reading

/-- how far a reading is with the operands, which stand in one row -/
inductive Stage where
  | before
  | within
  | after
  deriving DecidableEq, Repr

/-- how far a reading is with the operands after an argument that is none -/
def Stage.passed : Stage → Stage
  | .before => .before
  | .within | .after => .after

/-- switches without values and then what is read later, unless one of them ends all reading -/
def readSwitches (ends : Switch → Bool) (later : Except Misuse Reading) : List Switch → Except Misuse Reading
  | [] => later
  | s :: rest =>
    if ends s then .ok (Reading.empty.withGiven ⟨s, .none⟩)
    else (readSwitches ends later rest).map (·.withGiven ⟨s, .none⟩)

/-- a group whose last switch has a value, and then what is read later -/
def Group.read (ends : Switch → Bool) (g : Group) (value : String) (later : Except Misuse Reading) :
    Except Misuse Reading :=
  readSwitches ends (do
    let last ← g.last.read value
    return (← later).withGiven last) g.before

/-- reads arguments up to a switch that ends all reading -/
def readAll (switches : List Switch) (ends : Switch → Bool) : Stage → List (String × Kind) → Except Misuse Reading
  | _, [] => .ok .empty
  | stage, (_, .switch name s behind) :: rest => do
    let g ← group switches name s behind
    match g.value with
    | some value => g.read ends value (readAll switches ends stage.passed rest)
    | none =>
      if g.last.operand = .nothing then
        readSwitches ends (readAll switches ends stage.passed rest) (g.before ++ [g.last])
      else match rest with
        | (value, .plain) :: rest => g.read ends value (readAll switches ends stage.passed rest)
        | _ => .error (.noValue g.last.label)
  | stage, (a, .unknown) :: rest => do return (← readAll switches ends stage.passed rest).withExtra a
  | .after, (a, _) :: rest => do return (← readAll switches ends .after rest).withExtra a
  | _, (_, .divider) :: rest => readAll switches ends .within rest
  | _, (a, .plain) :: rest => do return (← readAll switches ends .within rest).withOperand a

/-- the switches that arguments give; all arguments have to belong to one, unless a switch ends all reading -/
def parse (switches : List Switch) (ends : Switch → Bool) (arguments : List String) : Except Misuse (List Given) := do
  let r ← readAll switches ends .after (← kinds switches true arguments)
  if r.extra = [] || r.given.getLast?.any (fun g => ends g.switch) then return r.given
  else .error (.unrecognized r.extra)

/-- the switches and operands that arguments give among others; names may not be cut short -/
def parseSome (switches : List Switch) (arguments : List String) : Except Misuse Reading := do
  readAll switches (fun _ => false) .before (← kinds switches false arguments)

def isGiven (given : List Given) (s : Switch) : Bool :=
  given.any (·.switch == s)

/-- the value given last for a switch -/
def valueFor (given : List Given) (s : Switch) : Option Value :=
  ((given.filter (·.switch == s)).map (·.value)).getLast?

/-! ## Usage -/

/-- how a switch is shown in a usage line -/
def Switch.usage (s : Switch) : String :=
  let name := s.names.headD ""
  let word := String.ofList (((s.names.getLast?.getD "").toList.dropWhile (· == '-')).map fun c =>
    if c = '-' then '_' else c.toUpper)
  let value := match s.operand with
    | .nothing => ""
    | .text | .number [] => " " ++ word
    | .number choices => " \x7b" ++ ",".intercalate (choices.map Numeral.ofInt) ++ "\x7d"
  "[" ++ name ++ value ++ "]"

def lineLength : Nat := 78

/-- words put into lines, given the words of the line under way and the indent of the lines after it -/
def fill (indent : String) (line : String) : List String → List String
  | [] => [line]
  | w :: rest =>
    if line.length + 1 + w.length > lineLength then line :: fill indent (indent ++ w) rest
    else fill indent (line ++ " " ++ w) rest

def usage (program : String) (switches : List Switch) : String :=
  let start := "usage: " ++ program
  let indent := String.ofList (List.replicate (start.length + 1) ' ')
  String.join ((fill indent start (switches.map (·.usage))).map (· ++ "\n"))

end Depot.Command
