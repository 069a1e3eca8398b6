/-
The surroundings of the file service, and how they answer its calls.

A `World` holds a bucket, the tables of a database, a disk, a clock and a supply of ids. Faults can be scheduled: each
`Rule` says on which call it strikes, how many such calls it lets pass first, and how often it strikes. Rows can be
locked; a statement that would delete a locked row fails as a whole. `World.serve` answers one call.

A request with an empty key is not sent, so no scheduled fault can strike it.
-/
import Depot.Service
import Depot.Site

namespace Depot

/-- something that happens to some of the calls it could happen to -/
structure Rule (α : Type) where
  what : α
  /-- the calls that are let pass first -/
  skip : Nat
  /-- how often it still happens; none for always -/
  times : Option Nat
  deriving DecidableEq

/-- the first rule in turn among those that apply, and the rules after it was looked for -/
def Rule.next {α : Type} (applies : α → Bool) : List (Rule α) → Option α × List (Rule α)
  | [] => (none, [])
  | r :: rest =>
    let later := Rule.next applies rest
    if applies r.what then
      match r.skip, r.times with
      | k + 1, _ => (later.1, { r with skip := k } :: later.2)
      | 0, some 0 => (later.1, r :: later.2)
      | 0, some (k + 1) => (some r.what, { r with times := some k } :: rest)
      | 0, none => (some r.what, r :: rest)
    else (later.1, r :: later.2)

/-- a fault and the call that it strikes -/
structure Strike where
  endpoint : Endpoint
  fault : Fault
  deriving DecidableEq

/-- how streams were used -/
structure Meter where
  /-- the lengths that reads of a stream gave -/
  reads : List Nat
  closes : Nat
  /-- the contents of objects that were given and not closed since -/
  contentsOpen : Nat
  deriving DecidableEq, Repr

/-- all that the file service works on -/
structure World where
  /-- none if the bucket does not exist -/
  bucket : Option Bucket
  files : FileTable
  executions : ExecutionTable
  /-- the ids of locked rows; those of executions in any grouping of their digits -/
  locked : List String
  strikes : List (Rule Strike)
  refusals : List (Rule (List Refused))
  disk : Disk
  clock : Time.Timestamp
  /-- how far the clock goes on each time it is asked, in microseconds -/
  tick : Int
  /-- the ids given next -/
  ids : List String
  /-- the ids given after those -/
  serial : Nat
  meter : Meter
  output : String

namespace World

def start : Time.Timestamp :=
  (Time.Timestamp.of? ⟨2024, 1, 1⟩ 0 (some 0)).getD default

/-- surroundings in which nothing has happened -/
def fresh : World where
  bucket := some .empty
  files := .empty
  executions := .empty
  locked := []
  strikes := []
  refusals := []
  disk := .fresh
  clock := start
  tick := Time.second
  ids := []
  serial := 0
  meter := ⟨[], 0, 0⟩
  output := ""

instance : Inhabited World := ⟨fresh⟩

/-! ## Scheduled faults -/

/-- the fault that strikes a call now, if one does -/
def strike (w : World) (e : Endpoint) : Option Fault × World :=
  let (hit, strikes) := Rule.next (·.endpoint == e) w.strikes
  (hit.map (·.fault), { w with strikes := strikes })

/-- the refusals that a call to delete many objects gives now -/
def refuse (w : World) : List Refused × World :=
  let (hit, refusals) := Rule.next (fun _ => true) w.refusals
  (hit.getD [], { w with refusals := refusals })

/-! ## The bucket -/

/-- what is said of a bucket that does not exist -/
def noBucket : Endpoint → Fault
  | .headObject => .client (some "404") .headObject "Not Found"
  | e => .client (some "NoSuchBucket") e "The specified bucket does not exist"

/-- a request to the bucket that names some keys -/
def request {α : Type} (w : World) (e : Endpoint) (keys : List String)
    (answer : Bucket → World → Except Fault α × World) : Except Fault α × World :=
  if keys.contains "" then (.error .emptyKey, w)
  else match w.strike e with
    | (some f, w) => (.error f, w)
    | (none, w) =>
      match w.bucket with
      | none => (.error (noBucket e), w)
      | some b => answer b w

def deleteObjects (keys : List String) (b : Bucket) (w : World) : Except Fault (List Refused) × World :=
  let (refused, w) := w.refuse
  let kept := refused.filterMap (·.key)
  (.ok refused, { w with bucket := some (b.erase (keys.filter fun k => !kept.contains k)) })

/-! ## The database -/

/-- a statement that a fault can strike -/
def statement {α : Type} (w : World) (e : Endpoint) (answer : World → Except Fault α × World) : Except Fault α × World :=
  match w.strike e with
  | (some f, w) => (.error f, w)
  | (none, w) => answer w

/-- the largest number of rows that can be asked for -/
def maxLimit : Nat := Nat.pow 2 63 - 1

/-- the first rows of an answer, for a limit that the database can take -/
def limited {α : Type} (limit : Nat) (rows : List α) : Except Fault (List α) :=
  if limit ≤ maxLimit then .ok (rows.take limit) else .error .limitTooLarge

def insertFile (e : Entry) (w : World) : Except Fault Unit × World :=
  match w.files.insert? e with
  | some files => (.ok (), { w with files := files })
  | none => (.error (.duplicateId .files), w)

def deleteFiles (q : FileQuery) (w : World) : Except Fault Nat × World :=
  let rows := w.files.select q
  if rows.any fun e => w.locked.contains e.id then (.error .lockedRow, w)
  else (.ok rows.length, { w with files := w.files.remove q })

/-- looks for the children of one level after another -/
def lookBelow (w : World) : List (List String) → Except Fault Unit × World
  | [] => (.ok (), w)
  | _ :: below => w.statement .selectExecutions fun w => w.lookBelow below

/-- the answer to a transaction that removes an execution: a look for its row, one for the children of each level of its
tree, and the removal of all rows found -/
def deleteExecution (id : String) (w : World) : Except Fault Nat × World :=
  w.statement .selectExecutions fun w =>
    if w.executions.rows.any (·.id == id) then
      let levels := Execution.treeLevels w.executions.rows id
      match w.lookBelow levels with
      | (.error f, w) => (.error f, w)
      | (.ok (), w) =>
        w.statement .deleteExecutions fun w =>
          let tree := levels.flatten
          if tree.any fun id => w.locked.any (Execution.sameId id) then (.error .lockedRow, w)
          else (.ok tree.length, { w with executions := w.executions.remove tree })
    else (.ok 0, w)

/-! ## The surroundings -/

/-- the time, after which the clock goes on -/
def now (w : World) : Time.Timestamp × World :=
  (w.clock, { w with clock := (w.clock.add? w.tick).getD w.clock })

/-- an id: the next one given, or a numbered one -/
def freshId (w : World) : String × World :=
  match w.ids with
  | id :: rest => (id, { w with ids := rest })
  | [] => ("id-" ++ Text.Numeral.padded 4 (w.serial + 1), { w with serial := w.serial + 1 })

def drain (s : Stream) (w : World) : Reading × World :=
  (s.reading, { w with meter := { w.meter with reads := w.meter.reads ++ s.reading.lengths } })

def close (s : Stream) (w : World) : Except Fault Unit × World :=
  (if s.closeFails then .error .closeFailed else .ok (),
    { w with
      meter := { w.meter with closes := w.meter.closes + 1 }
      disk := if s.clearsStaging then w.disk.clear .staging else w.disk })

/-- trouble with a local path as a fault -/
def ofDisk {α : Type} (path : Disk.Path) : Except Disk.Trouble α → Except Fault α
  | .ok a => .ok a
  | .error trouble => .error (.file trouble path)

@[simp] def serve (c : Call) (w : World) : c.Reply × World :=
  match c with
  | .putObject key content metadata =>
    w.request .putObject [key] fun b w => (.ok (), { w with bucket := some (b.put key ⟨content, metadata⟩) })
  | .getObject key =>
    w.request .getObject [key] fun b w =>
      match b.get? key with
      | some o => (.ok o.content, { w with meter := { w.meter with contentsOpen := w.meter.contentsOpen + 1 } })
      | none => (.error (.client (some "NoSuchKey") .getObject "The specified key does not exist."), w)
  | .headObject key =>
    w.request .headObject [key] fun b w =>
      match b.get? key with
      | some o => (.ok o.metadata, w)
      | none => (.error (.client (some "404") .headObject "Not Found"), w)
  | .deleteObject key =>
    w.request .deleteObject [key] fun b w => (.ok (), { w with bucket := some (b.erase [key]) })
  | .listObjects start after => w.request .listObjects [] fun b w => (.ok (b.page start after), w)
  | .deleteObjects keys => w.request .deleteObjects keys (deleteObjects keys)
  | .selectFiles q => w.statement .selectFiles fun w => (.ok (w.files.select q), w)
  | .countFiles q => w.statement .selectFiles fun w => (.ok (w.files.select q).length, w)
  | .pageFiles q limit =>
    w.statement .selectFiles fun w => (limited limit (oldestFirst (·.modified) (w.files.select q)), w)
  | .insertFile e => w.statement .insertFiles (insertFile e)
  | .deleteFiles q => w.statement .deleteFiles (deleteFiles q)
  | .selectExecutions cutoff => w.statement .selectExecutions fun w => (.ok (w.executions.expired cutoff), w)
  | .countExecutions cutoff =>
    w.statement .selectExecutions fun w => (.ok (w.executions.expired cutoff).length, w)
  | .pageExecutions cutoff limit =>
    w.statement .selectExecutions fun w =>
      (limited limit (oldestFirst (·.startedAt) (w.executions.expired cutoff)), w)
  | .deleteExecution id => w.deleteExecution id
  | .now => w.now
  | .freshId => w.freshId
  | .drain s => w.drain s
  | .close s => w.close s
  | .closeContent => ((), { w with meter := { w.meter with contentsOpen := w.meter.contentsOpen - 1 } })
  | .createTemporary folder =>
    match w.disk.createTemporary folder with
    | .ok (path, disk) => (.ok path, { w with disk := disk })
    | .error trouble => (.error (.file trouble folder), w)
  | .writeFile path content => ((), { w with disk := w.disk.write path content })
  | .readFile path => (ofDisk path (w.disk.read path), w)
  | .removeFile path =>
    match w.disk.remove path with
    | .ok disk => (.ok (), { w with disk := disk })
    | .error trouble => (.error (.file trouble path), w)
  | .print text => ((), { w with output := w.output ++ text })

def run {α : Type} (w : World) (p : Op α) : Prog.Run World α :=
  Prog.run (I := service) serve p w

/-- the settings with pages enough for every listing of the bucket as it is -/
def provide (w : World) (site : Site) : Site :=
  { site with pageLimit := w.bucket.elim 0 (·.objects.length) + 1 }

/-- the surroundings with nothing written and no stream used so far -/
def cleared (w : World) : World :=
  { w with meter := ⟨[], 0, 0⟩, output := "" }

/-- runs an operation from cleared surroundings, with pages enough -/
def perform {α : Type} (w : World) (site : Site) (p : Site → Op α) : Prog.Run World α :=
  w.cleared.run (p (w.provide site))

end World

end Depot
