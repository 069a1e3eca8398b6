/-
What can go wrong, as causes.

A `Fault` is a single trouble: of a call to the bucket or the database, of a local file or stream, or of a value that
cannot be used. A `Failure` is what an operation ends with: a fault as it is, or the service's own account of one. The
accounts of storage trouble carry the fault behind them, so none is ever lost. `message` gives the wording of each.
-/
import Depot.Disk.Basic
import Depot.Text.Numeral
import Depot.Text.Quoted
import Depot.Time.Iso
import Depot.Time.IsoReader

namespace Depot

open Depot.Text

/-! ## Faults -/

/-- the calls on which a remote fault can strike -/
inductive Endpoint where
  | putObject
  | getObject
  | headObject
  | deleteObject
  | listObjects
  | deleteObjects
  | selectFiles
  | insertFiles
  | deleteFiles
  | selectExecutions
  | deleteExecutions
  deriving DecidableEq, Repr

def Endpoint.name : Endpoint → String
  | .putObject => "PutObject"
  | .getObject => "GetObject"
  | .headObject => "HeadObject"
  | .deleteObject => "DeleteObject"
  | .listObjects => "ListObjects"
  | .deleteObjects => "DeleteObjects"
  | .selectFiles => "SELECT:files"
  | .insertFiles => "INSERT:files"
  | .deleteFiles => "DELETE:files"
  | .selectExecutions => "SELECT:history"
  | .deleteExecutions => "DELETE:history"

inductive Table where
  | files
  | executions
  deriving DecidableEq, Repr

def Table.name : Table → String
  | .files => "artifact_files"
  | .executions => "history_historicexecution"

/-- how a row of a table is called -/
def Table.rowName : Table → String
  | .files => "FileEntry"
  | .executions => "HistoricExecution"

/-- the exceptions by which a stream breaks while it is read -/
inductive Breakage where
  | system
  | connectionReset
  | timeout
  | value
  | runtime
  deriving DecidableEq, Repr

/-- whether a stream broke by the operating system's doing -/
def Breakage.isSystem : Breakage → Bool
  | .system | .connectionReset | .timeout => true
  | .value | .runtime => false

/-- a single trouble -/
inductive Fault where
  /-- the bucket answered with an error, with a code or without one -/
  | client (code : Option String) (endpoint : Endpoint) (text : String)
  /-- the bucket cannot be reached -/
  | unreachable
  /-- the transfer of an object failed -/
  | transfer
  /-- a request with an empty key was not sent -/
  | emptyKey
  /-- the database failed -/
  | database
  /-- a row with the new row's id exists in a table -/
  | duplicateId (table : Table)
  /-- a new row names a parent that does not exist -/
  | missingParent
  /-- a table has no row with an id -/
  | noRow (table : Table)
  /-- a size is beyond the database's numbers -/
  | sizeTooLarge
  /-- a row to be deleted is locked -/
  | lockedRow
  /-- a row cannot be removed by hand while it is locked -/
  | heldRow
  /-- a count of rows is beyond the database's numbers -/
  | limitTooLarge
  /-- anything else that is raised, in its own words; an interruption is no exception, and only a stream raises one -/
  | broken (text : String)
  /-- a listing has more pages than were allowed for -/
  | endlessListing
  /-- a local path cannot be used -/
  | file (trouble : Disk.Trouble) (path : Disk.Path)
  /-- a stream broke while it was read -/
  | stream (how : Breakage)
  /-- a stream could not be closed -/
  | closeFailed
  /-- a target has no room for a chunk -/
  | diskFull
  /-- the receiver of a file's content failed, by the operating system's doing or not -/
  | processing (system : Bool)
  /-- no digest algorithm has this name -/
  | unknownAlgorithm (name : String)
  /-- the algorithm has no digest of a fixed length -/
  | openEndedDigest
  /-- a key leads out of the location of the store -/
  | deniedKey (name : String)
  /-- a location starts at the root -/
  | rootedLocation (location : String)
  /-- a time with a known distance from UTC was compared with one without -/
  | unordered
  /-- a time has no date in the calendar -/
  | outOfCalendar
  /-- a text is no timestamp -/
  | notATime (text : String) (why : Time.Refusal)
  /-- the digits of an id are too few or too many, or they are no hexadecimal number -/
  | notAnId (digits : String)
  /-- a number of days is beyond those of a period -/
  | tooManyDays (days : Int)
  /-- a number of days is beyond a machine word -/
  | daysTooLarge
  /-- a quotient is beyond the floating point numbers -/
  | quotientTooLarge
  /-- a page must hold at least one item -/
  | pageSize (size : Int)
  /-- a number of rows to fetch is negative -/
  | negativeLimit
  /-- a setting was removed -/
  | missingSetting
  /-- a text is not a whole number -/
  | notInteger (text : String)
  /-- a text has more digits than a number may have -/
  | tooManyDigits (digits : Nat)
  /-- a text is neither yes nor no -/
  | notBoolean (text : String)
  /-- a switch was given without the number that it needs -/
  | valueless
  /-- a name to be taken over has a null character -/
  | nullInName
  /-- help was asked for with arguments that cannot be read -/
  | unreadHelp
  deriving DecidableEq

namespace Fault

/-- whether a fault is the bucket's or of the way to it -/
def isBucketFault : Fault → Bool
  | .client .. | .unreachable | .transfer | .emptyKey => true
  | _ => false

def isDatabaseFault : Fault → Bool
  | .database | .duplicateId _ | .missingParent | .lockedRow | .limitTooLarge => true
  | _ => false

/-- whether a fault is the operating system's; a path that no system takes is refused before it -/
def isSystemFault : Fault → Bool
  | .file trouble _ => trouble != .nullInPath
  | .closeFailed | .diskFull => true
  | .stream how => how.isSystem
  | .processing system => system
  | _ => false

/-- the codes by which the bucket says that there is no object at a key -/
def missingCodes : List String := ["NoSuchKey", "404", "NotFound"]

/-- whether a fault says that there is no object at a key -/
def isMissingKey : Fault → Bool
  | .client (some code) _ _ => missingCodes.contains code
  | _ => false

/-- the wording for a path that cannot be used: with the system's number of the trouble, if it is the system's -/
def fileMessage (path : Disk.Path) : Disk.Trouble → String
  | .notFound => numbered 2 "No such file or directory"
  | .alreadyThere => numbered 17 "File exists"
  | .notFolder => numbered 20 "Not a directory"
  | .isFolder => numbered 21 "Is a directory"
  | .nameTooLong => numbered 36 "File name too long"
  | .nullInPath => "embedded null byte"
where
  numbered (n : Nat) (text : String) : String :=
    "[Errno " ++ Numeral.ofNat n ++ "] " ++ text ++ ": " ++ Quoted.quote path.text

/-- a span of time in a message: whole days, and the seconds and microseconds of the rest, without those that are 0 -/
def spanText (micros : Int) : String :=
  let rest := (micros % Time.day).toNat
  let parts : List (String × Int) :=
    [("days", micros / Time.day), ("seconds", rest / Time.second), ("microseconds", rest % Time.second)]
  let shown := (parts.filter (·.2 != 0)).map fun (name, n) => name ++ "=" ++ Numeral.ofInt n
  "datetime.timedelta(" ++ ", ".intercalate shown ++ ")"

def timeMessage (text : String) : Time.Refusal → String
  | .form => "Invalid isoformat string: " ++ Quoted.quote text
  | .offset micros =>
    "offset must be a timedelta strictly between -timedelta(hours=24) and timedelta(hours=24), not " ++ spanText micros
      ++ "."
  | .year n => "year " ++ Numeral.ofNat n ++ " is out of range"
  | .month => "month must be in 1..12"
  | .day => "day is out of range for month"
  | .hour => "hour must be in 0..23"
  | .minute => "minute must be in 0..59"
  | .second => "second must be in 0..59"

/-- the most characters of a quoted text that is shown as no number -/
def shownLength : Nat := 200

def noNumber (base : Nat) (text : String) : String :=
  "invalid literal for int() with base " ++ Numeral.ofNat base ++ ": "
    ++ String.ofList ((Quoted.quote text).toList.take shownLength)

def message : Fault → String
  | .client code endpoint text =>
    "An error occurred (" ++ code.getD "Unknown" ++ ") when calling the " ++ endpoint.name ++ " operation: "
      ++ if code.isSome then text else "Unknown"
  | .unreachable => "Could not connect to the endpoint URL: \"http://s3\""
  | .transfer => "injected"
  | .emptyKey => "Parameter validation failed:\nInvalid length for parameter Key, value: 0, valid min length: 1"
  | .database => "injected"
  | .duplicateId table => "UNIQUE constraint failed: " ++ table.name ++ ".id"
  | .missingParent => "FOREIGN KEY constraint failed"
  | .noRow table => table.rowName ++ " matching query does not exist."
  | .sizeTooLarge => "Python int too large to convert to SQLite INTEGER"
  | .lockedRow | .heldRow => "row is locked"
  | .limitTooLarge => "datatype mismatch"
  | .broken text => text
  | .endlessListing => "listing has too many pages"
  | .file trouble path => fileMessage path trouble
  | .stream _ => "stream broken"
  | .closeFailed => "close failed"
  | .diskFull => "disk full"
  | .processing _ => "processing failed"
  | .unknownAlgorithm name => "unsupported hash type " ++ name
  | .openEndedDigest => "hexdigest() missing required argument 'length' (pos 1)"
  | .deniedKey name => "Attempted access to '" ++ name ++ "' denied."
  | .rootedLocation location =>
    "FileContentStorage.location cannot begin with a leading slash. Found '" ++ location ++ "'. Use '"
      ++ String.ofList (location.toList.dropWhile (· == '/')) ++ "' instead."
  | .unordered => "can't compare offset-naive and offset-aware datetimes"
  | .outOfCalendar => "date value out of range"
  | .notATime text why => timeMessage text why
  | .notAnId digits =>
    if digits.length = 32 then noNumber 16 digits else "badly formed hexadecimal UUID string"
  | .tooManyDays days => "days=" ++ Numeral.ofInt days ++ "; must have magnitude <= 999999999"
  | .daysTooLarge => "Python int too large to convert to C int"
  | .quotientTooLarge => "integer division result too large for a float"
  | .pageSize size => "Page size must be positive, got " ++ Numeral.ofInt size
  | .negativeLimit => "Negative indexing is not supported."
  | .missingSetting => ""
  | .notInteger text => noNumber 10 text
  | .tooManyDigits digits =>
    "Exceeds the limit (4300 digits) for integer string conversion: value has " ++ Numeral.ofNat digits
      ++ " digits; use sys.set_int_max_str_digits() to increase the limit"
  | .notBoolean text => "Invalid truth value: " ++ text
  | .valueless => "'<' not supported between instances of 'list' and 'int'"
  | .nullInName => "embedded null byte"
  | .unreadHelp => "cannot access local variable 'args' where it is not associated with a value"

end Fault

/-! ## What an operation was about -/

/-- the files that a bulk deletion is about -/
inductive Selection where
  | inNamespace (space : String) (namespace_ : Option String)
  | inSpaces (spaces : List String)
  | before (cutoff : Time.Timestamp)
  deriving DecidableEq

def namespaceText (namespace_ : Option String) : String :=
  namespace_.getD "None"

def Selection.text : Selection → String
  | .inNamespace space ns => "space " ++ space ++ ", namespace " ++ namespaceText ns
  | .inSpaces spaces => "spaces " ++ Quoted.list spaces
  | .before cutoff => "modified before " ++ cutoff.iso

/-- what the service could not do -/
inductive Task where
  | createTemporary
  | findLocal (name : String)
  | openLocal (name : String)
  | readUpload (name : String)
  | putContent (id : String)
  | readContent (id : String)
  | deleteContent (id : String)
  | deleteContents (selection : Selection)
  | listContents
  | insertEntry (id : String)
  | getEntry (id : String)
  | listEntries (space : String) (namespace_ : Option String)
  | deleteEntry (id : String)
  | deleteEntries (selection : Selection)
  | listAllEntries
  | deleteEntriesWithoutContent
  /-- a task in the caller's own words -/
  | other (text : String)
  deriving DecidableEq

def Task.message : Task → String
  | .createTemporary => "Failed to create temporary file for upload"
  | .findLocal name => "Could not find file to upload: " ++ name
  | .openLocal name => "Could not open file to upload: " ++ name
  | .readUpload name => "Could not read file to upload: " ++ name
  | .putContent id => "Failed to upload content of file " ++ id
  | .readContent id => "Failed to read content of file " ++ id
  | .deleteContent id => "Failed to delete content of file " ++ id
  | .deleteContents selection => "Failed to delete file contents: " ++ selection.text
  | .listContents => "Failed to list file contents"
  | .insertEntry id => "Failed to store metadata of file " ++ id
  | .getEntry id => "Failed to get file " ++ id
  | .listEntries space ns => "Failed to list files in " ++ (Selection.inNamespace space ns).text
  | .deleteEntry id => "Failed to delete metadata of file " ++ id
  | .deleteEntries (.before cutoff) => "Failed to delete files " ++ (Selection.before cutoff).text
  | .deleteEntries selection => "Failed to delete files in " ++ selection.text
  | .listAllEntries => "Failed to list all files"
  | .deleteEntriesWithoutContent => "Failed to delete file entries without content"
  | .other text => text

/-- why content has no digest -/
inductive DigestTrouble where
  | unsupported (algorithm : String)
  | unreadable (algorithm : String)
  | other (text : String)
  deriving DecidableEq

def DigestTrouble.message : DigestTrouble → String
  | .unsupported algorithm => "Unsupported digest algorithm: " ++ algorithm
  | .unreadable algorithm => "Failed to read content for " ++ algorithm ++ " digest"
  | .other text => text

/-- why arguments cannot be read as switches -/
inductive Misuse where
  | notInteger (switch text : String)
  | notAChoice (switch : String) (n : Int) (choices : List Int)
  | noValue (switch : String)
  | unwantedValue (switch text : String)
  | ambiguous (argument : String) (names : List String)
  | unrecognized (arguments : List String)
  deriving DecidableEq

def Misuse.message : Misuse → String
  | .notInteger switch text => "argument " ++ switch ++ ": invalid int value: " ++ Quoted.quote text
  | .notAChoice switch n choices =>
    "argument " ++ switch ++ ": invalid choice: " ++ Numeral.ofInt n ++ " (choose from "
      ++ ", ".intercalate (choices.map Numeral.ofInt) ++ ")"
  | .noValue switch => "argument " ++ switch ++ ": expected one argument"
  | .unwantedValue switch text => "argument " ++ switch ++ ": ignored explicit argument " ++ Quoted.quote text
  | .ambiguous argument names => "ambiguous option: " ++ argument ++ " could match " ++ ", ".intercalate names
  | .unrecognized arguments => "unrecognized arguments: " ++ " ".intercalate arguments

/-- why a command cannot be carried out as asked -/
inductive Usage where
  | unreadable (m : Misuse)
  | negativeRetention
  | pageSizeNotPositive
  | contraryColors
  /-- no command has this name; another name may resemble it -/
  | unknownCommand (name : String) (meant : Option String)
  deriving DecidableEq

def Usage.message : Usage → String
  | .unreadable m => "Error: " ++ m.message
  | .negativeRetention => "--retention-days must not be negative"
  | .pageSizeNotPositive => "--page-size must be positive"
  | .contraryColors => "The --no-color and --force-color options can't be used together."
  | .unknownCommand name meant =>
    "Unknown command: " ++ Quoted.quote name ++ meant.elim "" fun other => ". Did you mean " ++ other ++ "?"

/-! ## Failures -/

/-- what an operation ends with when it does not succeed -/
inductive Failure where
  /-- a fault that nobody accounts for -/
  | fault (f : Fault)
  /-- a store failed at a task -/
  | storage (task : Task) (cause : Fault)
  /-- content cannot be read or hashed -/
  | digest (trouble : DigestTrouble) (cause : Fault)
  /-- a file has no row in a space -/
  | noEntry (space id : String)
  /-- a file has no content -/
  | noContent (space id : String) (cause : Fault)
  /-- some kinds of records could not be cleaned up -/
  | cleanup (failed : List String)
  /-- a command cannot be carried out as asked -/
  | usage (problem : Usage)
  /-- a command reports a failure -/
  | command (of : Failure)
  deriving DecidableEq

namespace Failure

def message : Failure → String
  | .fault f => f.message
  | .storage task _ => task.message
  | .digest trouble _ => trouble.message
  | .noEntry space id => "File " ++ id ++ " not found in space " ++ space
  | .noContent space id _ => "Content of file " ++ id ++ " not found in space " ++ space
  | .cleanup failed => "Cleanup failed for: " ++ ", ".intercalate failed
  | .usage problem => problem.message
  | .command reported => reported.message

/-- what stands behind a failure; the database's own refusals of a row stand behind themselves -/
def cause : Failure → Option Failure
  | .fault (.duplicateId table) => some (.fault (.duplicateId table))
  | .fault .missingParent => some (.fault .missingParent)
  | .fault .lockedRow => some (.fault .lockedRow)
  | .fault .limitTooLarge => some (.fault .limitTooLarge)
  | .fault _ => none
  | .storage _ f => some (.fault f)
  | .digest _ f => some (.fault f)
  | .noContent _ _ f => some (.fault f)
  | .noEntry .. | .cleanup _ | .usage _ => none
  | .command reported => some reported

/-- whether a failure is the service's account of storage trouble -/
def isStorage : Failure → Bool
  | .storage .. | .digest .. | .noEntry .. | .noContent .. => true
  | _ => false

end Failure

end Depot
