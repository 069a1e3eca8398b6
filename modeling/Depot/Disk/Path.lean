/-
Paths on the local disk, seen from one working directory.

A path is a row of names; `..` is a name here, and leads back up when the path is used. A *place* is a row of names in
which `..` stands only at the start: `step` goes from one place to the next, and `normal` is the place that a path
names without a look at the disk. The names of temporary files are chosen by the disk and no other name equals them;
they are shown as `upload-*`.
-/

namespace Depot.Disk

inductive Name where
  | given (text : String)
  | temporary (serial : Nat)
  deriving DecidableEq, Repr

namespace Name

def text : Name → String
  | .given s => s
  | .temporary _ => "upload-*"

/-- the name that leads back up -/
def parent : Name := .given ".."

end Name

/-- a path from the working directory on -/
structure Path where
  names : List Name
  deriving DecidableEq, Repr

namespace Path

def root : String := "<TMP>"

/-- the path that a text means: its parts between slashes, but for empty ones and `.` -/
def ofText (s : String) : Path :=
  ⟨((s.splitOn "/").filter fun p => !(p == "" || p == ".")).map .given⟩

def text (p : Path) : String :=
  "/".intercalate (root :: p.names.map Name.text)

def name (p : Path) : String :=
  match p.names.getLast? with
  | some n => n.text
  | none => root

/-- the folder of uploads under way -/
def staging : Path := ⟨[.given "staging"]⟩

def parent (p : Path) : Path :=
  ⟨p.names.dropLast⟩

/-- a path one name further down -/
def child (p : Path) (n : Name) : Path :=
  ⟨p.names ++ [n]⟩

/-- whether a place is the working directory or lies above it -/
def isAbove (place : List Name) : Bool :=
  place.all (· == .parent)

/-- the place that one more name leads to -/
def step (place : List Name) (n : Name) : List Name :=
  if n = .parent && !isAbove place then place.dropLast else place ++ [n]

/-- the path with every `..` taken back together with the name before it -/
def normal (p : Path) : Path :=
  ⟨p.names.foldl step []⟩

end Path

end Depot.Disk
