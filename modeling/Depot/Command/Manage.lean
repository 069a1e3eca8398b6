/-
The program that runs commands by name.

A command that fails says so on the error output, and the program ends with 1; so does a name that is no command's,
for which the name of a command that resembles it is proposed. Arguments that a command cannot read are answered with
its usage, and the program ends with 2. Failures that no command reports are left as they are, and so is every failure
of a command that is asked for a traceback.

The switches for settings and for modules are looked for before the command is (`readEarly`); what that leaves is read
by the help. Where they lack a value the command says so, but the help has nothing to read.
-/
import Depot.Command.Basic
import Depot.Text.Resemblance

namespace Depot.Command

open Depot.Text

/-- how the program ends: its code, and what it wrote to the error output -/
structure Exit where
  code : Nat
  errors : String
  deriving DecidableEq, Repr

def program : String := "manage.py"

def Exit.success : Exit := ⟨0, ""⟩

/-- whether a failure is one that a command reports -/
def isReported : Failure → Bool
  | .usage _ | .command _ => true
  | _ => false

def runReporting (c : Name) (site : Site) (r : Request) : Op Exit := do
  let asIs := match r with
    | .run given => isGiven given traceback
    | _ => false
  match ← (c.carryOut site (program ++ " ") r).attempt with
  | .ok () => pure .success
  | .error e =>
    if isReported e && !asIs then pure ⟨1, "CommandError: " ++ e.message ++ "\n"⟩ else .fail e

/-- the names of the commands that come with the program whatever it manages; none of them works on a depot -/
def builtIn : List String := [
    "check", "compilemessages", "createcachetable", "dbshell", "diffsettings", "dumpdata", "flush", "inspectdb",
    "loaddata", "makemessages", "makemigrations", "migrate", "optimizemigration", "runserver", "sendtestemail", "shell",
    "showmigrations", "sqlflush", "sqlmigrate", "sqlsequencereset", "squashmigrations", "startapp", "startproject",
    "test", "testserver"]

def sections : List (String × List String) :=
  [("cleanup", [Name.cleanup.text]), ("django", builtIn), ("files", [Name.reconcile.text])]

def sectionText (title : String) (names : List String) : String :=
  "\n[" ++ title ++ "]\n" ++ String.join (names.map fun n => "    " ++ n ++ "\n")

/-- what is said about the program itself -/
def overview : String :=
  "\nType '" ++ program ++ " help <subcommand>' for help on a specific subcommand.\n\nAvailable subcommands:\n"
    ++ String.join (sections.map fun (title, names) => sectionText title names)

/-- what is said about a name that is no command's -/
def unknown (name : String) : Usage :=
  .unknownCommand name (Resemblance.closest? name (sections.flatMap (·.2)))

/-- ends with a name that is no command's -/
def Exit.unknown (name : String) : Exit :=
  ⟨1, (Command.unknown name).message ++ "\nType '" ++ program ++ " help' for usage.\n"⟩

/-- writes to the standard output and ends without an error -/
def say (text : String) : Op Exit := do
  Op.ask (.print text)
  pure .success

/-- the switches that are looked for before the command is -/
def early : List Switch := [settings, modulePath]

/-- arguments behind the name of a command, as they are read whatever the command is -/
def readEarly (arguments : List String) : Option Reading :=
  (parseSome early arguments).toOption

/-- takes over the name of the settings given last; no name has a null character -/
def adopt (given : List Given) : Op Unit :=
  match valueFor given settings with
  | some (.text name) => if name.toList.contains '\x00' then .fail (.fault .nullInName) else pure ()
  | _ => pure ()

/-- tells about a command, about all of them, or just their names -/
def tell : Option Reading → Op Exit
  | none => .fail (.fault .unreadHelp)
  | some r =>
    if r.extra.contains "--commands" then
      say (String.join (((sections.flatMap (·.2)).mergeSort fun a b => a ≤ b).map (· ++ "\n")))
    else match r.operands with
      | [] => say overview
      | name :: _ =>
        match Name.ofText? name with
        | none => pure (.unknown name)
        | some c => say (c.usage (program ++ " "))

def runWith (site : Site) (c : Name) (arguments : List String) : Op Exit := do
  c.prepare site
  match c.request arguments with
  | .error m =>
    let name := program ++ " " ++ c.text
    pure ⟨2, c.usage (program ++ " ") ++ name ++ ": error: " ++ m.message ++ "\n"⟩
  | .ok r =>
    match r with
    | .run given => adopt given
    | _ => pure ()
    runReporting c site r

/-- runs the program with arguments, the first of which names a command -/
def manage (site : Site) (arguments : List String) : Op Exit := do
  let read := readEarly (arguments.drop 1)
  match read with
  | some r => adopt r.given
  | none => pure ()
  match arguments with
  | [] | ["--help"] | ["-h"] => say overview
  | "help" :: _ => tell read
  | "version" :: _ | ["--version"] => say (versionText ++ "\n")
  | command :: arguments =>
    match Name.ofText? command with
    | none => pure (.unknown command)
    | some c => runWith site c arguments

end Depot.Command
