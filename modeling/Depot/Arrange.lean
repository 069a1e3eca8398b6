/-
Surroundings prepared by hand: rows, objects, local files, faults and locks that no operation of the service put
there.

No scheduled fault strikes here. Rows keep their times in UTC, as those of the service do.
-/
import Depot.World

namespace Depot.World

/-! ## Rows -/

/-- a time as rows keep it -/
def stored (time : Time.Timestamp) : Except Failure Time.Timestamp :=
  match time.toUtc? with
  | some utc => .ok utc
  | none => .error (.fault .outOfCalendar)

/-- the first size that a row cannot keep -/
def sizeLimit : Nat := Nat.pow 2 63

def addRow (w : World) (e : Entry) : Except Failure World := do
  let modified ← stored e.modified
  if e.size < -(sizeLimit : Int) || (sizeLimit : Int) ≤ e.size then .error (.fault .sizeTooLarge)
  else match w.files.insert? { e with modified := modified } with
    | some files => return { w with files := files }
    | none => .error (.fault (.duplicateId .files))

/-- rows of files that differ in their numbered ids -/
def addRows (w : World) (e : Entry) (count : Nat) : Except Failure World :=
  (List.range count).foldlM (fun w i => w.addRow { e with id := e.id ++ Text.Numeral.padded 5 i }) w

def addExecution (w : World) (e : Execution) : Except Failure World := do
  let startedAt ← stored e.startedAt
  let endedAt ← e.endedAt.mapM stored
  match w.executions.insert? { e with startedAt := startedAt, endedAt := endedAt } with
  | none => .error (.fault (.duplicateId .executions))
  | some executions =>
    if e.parent.all fun p => executions.rows.any (·.id == p) then return { w with executions := executions }
    else .error (.fault .missingParent)

/-- a row of a file less, unless it is locked -/
def removeRow (w : World) (id : String) : Except Failure World :=
  match World.deleteFiles (.withIds [id]) w with
  | (.ok _, w) => .ok w
  | (.error _, _) => .error (.fault .heldRow)

def retime (w : World) (id : String) (modified : Time.Timestamp) : Except Failure World := do
  let modified ← stored modified
  return { w with files := w.files.retime id modified }

def row (w : World) (id : String) : Except Fault Entry :=
  match w.files.rows.find? (·.id == id) with
  | some e => .ok e
  | none => .error (.noRow .files)

def execution (w : World) (id : String) : Except Fault Execution :=
  match w.executions.rows.find? (·.id == id) with
  | some e => .ok e
  | none => .error (.noRow .executions)

/-! ## Objects -/

def addObject (w : World) (key : String) (o : Object) : World :=
  { w with bucket := w.bucket.map (·.put key o) }

/-- empty objects at numbered keys -/
def addObjects (w : World) (key : String) (count : Nat) (metadata : Metadata) : World :=
  (List.range count).foldl
    (fun w i => w.addObject (key ++ Text.Numeral.padded 5 i) ⟨ByteArray.empty, metadata⟩) w

def hasObject (w : World) (key : String) : Bool :=
  w.bucket.any fun b => (b.get? key).isSome

def removeObject (w : World) (key : String) : World :=
  { w with bucket := w.bucket.map (·.erase [key]) }

def keys (w : World) : List String :=
  w.bucket.elim [] (·.keys)

/-! ## Local files -/

/-- makes a local folder, with all folders on the way to it; those made before a trouble stay -/
def addFolder (w : World) (path : Disk.Path) : Except Failure Unit × World :=
  let (made, disk) := w.disk.addFolder path
  let outcome := match made with
    | .ok () => .ok ()
    | .error (trouble, path) => .error (.fault (.file trouble path))
  (outcome, { w with disk := disk })

/-- makes a local file, with all folders on the way to it -/
def addFile (w : World) (path : Disk.Path) (content : ByteArray) : Except Failure Unit × World :=
  match w.addFolder path.parent with
  | (.error e, w) => (.error e, w)
  | (.ok (), w) =>
    match w.disk.addFile path content with
    | .ok disk => (.ok (), { w with disk := disk })
    | .error trouble => (.error (.fault (.file trouble path)), w)

end Depot.World
