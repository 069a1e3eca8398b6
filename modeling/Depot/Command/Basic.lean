/-
The commands, and the switches that each of them takes.

All commands share some switches; the cleanup has two of its own, whose values in default are settings.
`cleanup_expired` deletes expired records, `reconcile_files` removes the rows of files without content. Failures of
the stores in the latter, and failed cleaners in the former, are reported as failures of the command.
-/
import Depot.Command.Switch
import Depot.Retention.Cleanup

namespace Depot.Command

open Depot.Text

inductive Name where
  | cleanup
  | reconcile
  deriving DecidableEq, Repr

def Name.text : Name → String
  | .cleanup => "cleanup_expired"
  | .reconcile => "reconcile_files"

/-- the command that is called so -/
def Name.ofText? (s : String) : Option Name :=
  [Name.cleanup, .reconcile].find? (·.text == s)

/-! ## Switches -/

def help : Switch := ⟨["-h", "--help"], .nothing⟩

def version : Switch := ⟨["--version"], .nothing⟩

/-- how much is said -/
def verbosity : Switch := ⟨["-v", "--verbosity"], .number [0, 1, 2, 3]⟩

def settings : Switch := ⟨["--settings"], .text⟩

def modulePath : Switch := ⟨["--pythonpath"], .text⟩

/-- lets a failed command fail as it is -/
def traceback : Switch := ⟨["--traceback"], .nothing⟩

def noColor : Switch := ⟨["--no-color"], .nothing⟩

def forceColor : Switch := ⟨["--force-color"], .nothing⟩

def skipChecks : Switch := ⟨["--skip-checks"], .nothing⟩

/-- for how many days records are retained -/
def retentionDays : Switch := ⟨["--retention-days"], .number []⟩

/-- how many records are fetched at a time -/
def pageSize : Switch := ⟨["--page-size"], .number []⟩

/-- the switches that all commands take, but for the one that asks for help -/
def shared : List Switch :=
  [version, verbosity, settings, modulePath, traceback, noColor, forceColor, skipChecks]

/-- the switches of one command alone -/
def Name.own : Name → List Switch
  | .cleanup => [retentionDays, pageSize]
  | .reconcile => []

/-- the switches of a command in the order in which names are compared -/
def Name.switches (c : Name) : List Switch :=
  help :: shared ++ c.own

def Name.usage (c : Name) (program : String) : String :=
  Command.usage (program ++ c.text) (help :: c.own ++ shared)

/-- whether a switch ends all reading -/
def ends (s : Switch) : Bool :=
  s == help || s == version

/-! ## Output -/

def writeLine (line : String) : Op Unit :=
  Op.ask (.print (line ++ "\n"))

/-- writes a line about a success, in bold green if colors are demanded -/
def writeSuccess (colored : Bool) (line : String) : Op Unit :=
  writeLine (if colored then "\x1b[32;1m" ++ line ++ "\x1b[0m" else line)

/-- an operation whose failures of a kind are failures of the command -/
def reporting {α : Type} (reported : Failure → Bool) (p : Op α) : Op α :=
  p.rescue fun e => .fail (if reported e then .command e else e)

/-! ## Deletion of expired records -/

/-- the most days that a machine word holds -/
def maxWord : Int := 2147483647

def maxDays : Int := 999999999

def daysBefore (time : Time.Timestamp) (days : Int) : Except Failure Time.Timestamp :=
  if maxWord < days then .error (.fault .daysTooLarge)
  else if maxDays < days then .error (.fault (.tooManyDays days))
  else match time.add? (-(days * Time.day)) with
    | some cutoff => .ok cutoff
    | none => .error (.fault .outOfCalendar)

/-- whether cleaners failed -/
def isCleanup : Failure → Bool
  | .cleanup _ => true
  | _ => false

/-- the number given for a switch, or else that of a setting -/
def numberOr (setting : Int) : Option Value → Except Failure Int
  | none => .ok setting
  | some (.number n) => .ok n
  | some _ => .error (.fault .valueless)

/-- a number of days that can be retained -/
def checkDays (days : Int) : Except Failure Int :=
  if days < 0 then .error (.usage .negativeRetention) else .ok days

/-- a size that a page can have -/
def checkSize (size : Int) : Except Failure Int :=
  if size < 1 then .error (.usage .pageSizeNotPositive) else .ok size

/-- deletes the records older than some days, in pages of a size -/
def expire (site : Site) (colored : Bool) (days size : Int) : Op Unit := do
  let now ← Op.ask .now
  let cutoff ← Prog.ofExcept (daysBefore now days)
  writeLine ("Deleting records older than " ++ cutoff.spaced ++ " (" ++ Numeral.ofInt days ++ " days)")
  let counts ← reporting isCleanup (Retention.cleanup site (some size) cutoff)
  counts.forM fun (name, n) => writeSuccess colored ("Deleted " ++ Numeral.ofNat n ++ " " ++ name)

/-! ## Removal of rows without content -/

/-- removes the rows of files whose content is missing -/
def reconcile (site : Site) (colored : Bool) : Op Unit := do
  let removed ← reporting Failure.isStorage (Files.sweep site)
  writeSuccess colored ("Removed " ++ Numeral.ofNat removed ++ " file entries without content")

/-! ## Running -/

/-- what a command is asked to do: to say something about itself, or to run with some switches -/
inductive Request where
  | help
  | version
  | run (given : List Given)

/-- what arguments ask a command to do -/
def Name.request (c : Name) (arguments : List String) : Except Misuse Request := do
  let given ← parse c.switches ends arguments
  return if isGiven given help then .help else if isGiven given version then .version else .run given

def versionText : String := "5.2"

/-- runs a command with the switches given; a setting that takes the place of a switch has to be there -/
def Name.run (c : Name) (site : Site) (given : List Given) : Op Unit := do
  let colored := isGiven given forceColor
  if colored && isGiven given noColor then .fail (.usage .contraryColors)
  else match c with
    | .reconcile => Command.reconcile site colored
    | .cleanup =>
      let days ← Files.setting site.retentionDays
      let size ← Files.setting site.pageSize
      let days ← Prog.ofExcept (numberOr days (valueFor given retentionDays) >>= checkDays)
      let size ← Prog.ofExcept (numberOr size (valueFor given pageSize) >>= checkSize)
      expire site colored days size

/-- fails where a command needs a setting that is missing -/
def Name.prepare (c : Name) (site : Site) : Op Unit := do
  match c with
  | .reconcile => pure ()
  | .cleanup =>
    let _ ← Files.setting site.retentionDays
    let _ ← Files.setting site.pageSize

/-- carries out a request to a command called by a program -/
def Name.carryOut (c : Name) (site : Site) (program : String) : Request → Op Unit
  | .help => Op.ask (.print (c.usage program))
  | .version => writeLine versionText
  | .run given => c.run site given

def call (site : Site) (command : String) (arguments : List String) : Op Unit :=
  match Name.ofText? command with
  | none => .fail (.usage (.unknownCommand command none))
  | some c => do
    c.prepare site
    match c.request arguments with
    | .error m => .fail (.usage (.unreadable m))
    | .ok r => c.carryOut site "" r

end Depot.Command
