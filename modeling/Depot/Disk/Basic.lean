/-
A local disk: files and folders in one working directory, which holds the folder `staging`.

Using a path follows it name by name (`follow`): every name but the last has to lead to a folder, and a name or path
that is too long is refused. The folders above the working directory are there, but nothing else in them is known.
Temporary files get a serial number as their name, never one that was used before.
-/
import Depot.Disk.Path

namespace Depot

namespace Disk

/-- why a path cannot be used -/
inductive Trouble where
  | notFound
  | alreadyThere
  | isFolder
  | notFolder
  | nameTooLong
  /-- no call to the disk takes a path with this character -/
  | nullInPath
  deriving DecidableEq, Repr

/-- what a path leads to -/
inductive Node where
  | file (content : ByteArray)
  | folder

end Disk

/-- all files and folders by their places, and the serial of the next temporary file -/
structure Disk where
  nodes : List (List Disk.Name × Disk.Node)
  serial : Nat

namespace Disk

/-- a disk that holds the empty folder `staging` -/
def fresh : Disk := ⟨[(Path.staging.names, .folder)], 0⟩

instance : Inhabited Disk := ⟨fresh⟩

/-- what stands at a place; the working directory and all above it are folders -/
def at? (d : Disk) (place : List Name) : Option Node :=
  if Path.isAbove place then some .folder else d.nodes.lookup place

/-! ## Following paths -/

/-- the longest name in bytes -/
def maxName : Nat := 255

/-- the longest path from the working directory on, in bytes -/
def maxPath : Nat := 4078

/-- refuses a path that no call takes -/
def check (p : Path) : Except Trouble Unit :=
  let text := "/".intercalate (p.names.map Name.text)
  if text.toList.contains '\x00' then .error .nullInPath
  else if maxPath < text.utf8ByteSize then .error .nameTooLong
  else .ok ()

/-- the place that names lead to from a folder, with what stands there, if anything does -/
def follow (d : Disk) (folder : List Name) : List Name → Except Trouble (List Name × Option Node)
  | [] => .ok (folder, d.at? folder)
  | n :: rest =>
    match d.at? folder with
    | none => .error .notFound
    | some (.file _) => .error .notFolder
    | some .folder =>
      if n.text.utf8ByteSize > maxName then .error .nameTooLong else d.follow (Path.step folder n) rest

def find (d : Disk) (p : Path) : Except Trouble (List Name × Option Node) := do
  check p
  d.follow [] p.names

def holds (d : Disk) (p : Path) : Bool :=
  match d.find p with
  | .ok (_, some _) => true
  | _ => false

def read (d : Disk) (p : Path) : Except Trouble ByteArray :=
  match d.find p with
  | .error e => .error e
  | .ok (_, none) => .error .notFound
  | .ok (_, some .folder) => .error .isFolder
  | .ok (_, some (.file content)) => .ok content

/-! ## Changes -/

def put (d : Disk) (place : List Name) (node : Node) : Disk :=
  { d with nodes := d.nodes.filter (·.1 ≠ place) ++ [(place, node)] }

/-- the disk without what stands at a place -/
def drop (d : Disk) (place : List Name) : Disk :=
  { d with nodes := d.nodes.filter (·.1 ≠ place) }

def write (d : Disk) (p : Path) (content : ByteArray) : Disk :=
  match d.find p with
  | .ok (place, some (.file _)) => d.put place (.file content)
  | _ => d

/-- the disk without a file; a file that does not exist is no trouble -/
def remove (d : Disk) (p : Path) : Except Trouble Disk :=
  match d.find p with
  | .error .notFound => .ok d
  | .error e => .error e
  | .ok (_, none) => .ok d
  | .ok (_, some .folder) => .error .isFolder
  | .ok (place, some (.file _)) => .ok (d.drop place)

/-- a new empty temporary file in a folder, whose path is taken in its normal form -/
def createTemporary (d : Disk) (folder : Path) : Except Trouble (Path × Disk) :=
  let p := folder.normal.child (.temporary d.serial)
  match d.find p with
  | .error e => .error e
  | .ok (place, _) => .ok (p, { d.put place (.file ByteArray.empty) with serial := d.serial + 1 })

/-- the disk with a folder at a path, a new one if nothing is there -/
def makeFolder (d : Disk) (p : Path) : Except Trouble Disk := do
  match ← d.find p with
  | (_, some .folder) => return d
  | (_, some (.file _)) => .error .alreadyThere
  | (place, none) => return d.put place .folder

/-- makes a folder at the path with some names, the last one first, after all folders on the way to it that are
missing; a trouble comes with the path that met it, and the folders made before it stay -/
def addFolders (d : Disk) : List Name → Except (Trouble × Path) Unit × Disk
  | [] => (.ok (), d)
  | n :: above =>
    let p : Path := ⟨(n :: above).reverse⟩
    let reached := match d.makeFolder p with
      | .error .notFound => d.addFolders above
      | _ => (.ok (), d)
    match reached with
    | (.error e, d) => (.error e, d)
    | (.ok (), d) =>
      match d.makeFolder p with
      | .ok d => (.ok (), d)
      | .error trouble => (.error (trouble, p), d)

def addFolder (d : Disk) (p : Path) : Except (Trouble × Path) Unit × Disk :=
  d.addFolders p.names.reverse

def addFile (d : Disk) (p : Path) (content : ByteArray) : Except Trouble Disk := do
  match ← d.find p with
  | (_, some .folder) => .error .isFolder
  | (place, _) => return d.put place (.file content)

def list (d : Disk) (folder : Path) : List Name :=
  d.nodes.filterMap fun (place, _) =>
    if place.dropLast = folder.names then place.getLast? else none

/-- the disk with an empty folder in place of a full one -/
def clear (d : Disk) (folder : Path) : Disk :=
  { d with nodes := d.nodes.filter fun (place, _) => !(folder.names.isPrefixOf place && place != folder.names) }

end Disk

end Depot
