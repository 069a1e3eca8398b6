/-
The file service: metadata in the database, contents in the bucket.

No transaction spans both, so every operation touches them in one order: an upload stores the content first and then
inserts the row; a deletion removes the content first and then the row. What a failure leaves behind is then at most a
content without a row, which no reader sees. Rows whose content has gone missing all the same are removed by `sweep`
alone.

A failed statement is put on record and accounted for. Times are kept in UTC, and a time without a date in UTC fails
the statement it was meant for before it is made.
-/
import Depot.Content.Bulk
import Depot.Upload

namespace Depot.Files

variable {α : Type}

/-! ## Rows -/

/-- a statement about a task, whose faults are accounted for -/
def statement (task : Task) (p : Op α) : Op α :=
  Op.account Fault.isDatabaseFault (.taskFailed task) task p

def inUtc (time : Time.Timestamp) : Op Time.Timestamp :=
  match time.toUtc? with
  | some utc => pure utc
  | none => .fail (.fault .outOfCalendar)

/-- a question as the database takes it, with its cutoff in UTC -/
def prepare : FileQuery → Op FileQuery
  | .before cutoff => do pure (.before (← inUtc cutoff))
  | q => pure q

def select (q : FileQuery) : Op (List Entry) := do
  let q ← prepare q
  if q.isEmpty then pure [] else Prog.ofReply (← Op.ask (.selectFiles q))

def count (q : FileQuery) : Op Nat := do
  let q ← prepare q
  Prog.ofReply (← Op.ask (.countFiles q))

def remove (q : FileQuery) : Op Nat := do
  let q ← prepare q
  if q.isEmpty then pure 0 else Prog.ofReply (← Op.ask (.deleteFiles q))

def setting : Option α → Op α
  | some value => pure value
  | none => .fail (.fault .missingSetting)

/-! ## Uploads -/

/-- stores the content of a local file and then its row -/
def store (site : Site) (space : String) (namespace_ : Option String) (name : String) (file : Upload.LocalFile) :
    Op Entry := do
  let id ← Op.ask .freshId
  let modified ← Op.ask .now
  let e : Entry := ⟨id, space, namespace_, name, file.size, file.digest, file.algorithm, modified⟩
  match ← Op.ask (.readFile file.path) with
  | .error f => Upload.failAt (.readUpload name) f
  | .ok content =>
    Content.put site e content
    statement (.insertEntry id) do
      let utc ← inUtc modified
      Prog.ofReply (← Op.ask (.insertFile { e with modified := utc }))
    Prog.record (.stored id name e.size space)
    pure e

/-- the stream of an upload as a temporary file, after which the stream is closed whatever happened -/
def receive (site : Site) (s : Stream) : Op Upload.LocalFile := do
  let staged ← Prog.attempt do
    let algorithm ← setting site.digestAlgorithm
    let folder ← setting site.stagingFolder
    Upload.stage s algorithm folder
  Prog.ofReply (← Op.ask (.close s))
  Prog.ofExcept staged

def add (site : Site) (space : String) (namespace_ : Option String) (name : String) (s : Stream) : Op Entry := do
  let file ← receive site s
  let stored ← (store site space namespace_ name file).attempt
  Upload.removeStaged file.path
  Prog.ofExcept stored

def addExisting (site : Site) (space : String) (namespace_ : Option String) (name : String) (path : Disk.Path) :
    Op Entry := do
  let algorithm ← setting site.digestAlgorithm
  let file ← Upload.describe path algorithm
  store site space namespace_ name file

/-! ## Reading -/

def get (space id : String) : Op Entry := do
  let rows ← statement (.getEntry id) (select (.file space id))
  match rows with
  | e :: _ => pure e
  | [] => .fail (.noEntry space id)

def list (space : String) (namespace_ : Option String) : Op (List Entry) :=
  statement (.listEntries space namespace_) (select (.inNamespace space namespace_))

/-- hands the content of a file to a receiver -/
def process (site : Site) (space id : String) (receiver : ByteArray → Except Fault α) : Op (Except Fault α) :=
  Content.process site space id receiver

/-! ## Deletion -/

/-- deletes a file; whether it had a row -/
def delete (site : Site) (space id : String) : Op Bool := do
  Content.delete site space id
  let count ← statement (.deleteEntry id) (remove (.file space id))
  Prog.record (.entryDeleted id space)
  pure (0 < count)

/-- the question for the rows of a selection -/
def queryOf : Selection → FileQuery
  | .inNamespace space ns => .inNamespace space ns
  | .inSpaces spaces => .inSpaces spaces
  | .before cutoff => .before cutoff

/-- deletes the files of a selection, and counts their rows -/
def deleteSelected (site : Site) (selection : Selection) : Op Nat := do
  let _ ← Content.deleteMatching site selection
  statement (.deleteEntries selection) (remove (queryOf selection))

def deleteNamespace (site : Site) (space : String) (namespace_ : Option String) : Op Nat :=
  deleteSelected site (.inNamespace space namespace_)

def deleteSpaces (site : Site) (spaces : List String) : Op Nat :=
  deleteSelected site (.inSpaces spaces)

/-- deletes the files that were uploaded before a cutoff -/
def deleteBefore (site : Site) (cutoff : Time.Timestamp) : Op Nat := do
  let count ← deleteSelected site (.before cutoff)
  Prog.record (.entriesDeletedBefore count cutoff)
  pure count

/-- removes the rows whose content is missing -/
def sweep (site : Site) : Op Nat := do
  let entries ← statement .listAllEntries (select .all)
  let missing ← Content.withoutContent site entries
  if missing = [] then pure 0
  else do
    missing.forM fun e => Prog.record (.contentMissing e.id e.space)
    statement .deleteEntriesWithoutContent (remove (.withIds (missing.map (·.id))))

end Depot.Files
