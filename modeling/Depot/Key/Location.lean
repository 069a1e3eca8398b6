/-
Where in a bucket the contents of files are kept.

The content of a file is the object at `Location.key`, which is made of the file's space and id. The objects of a
space are those whose keys start with `Location.start`. A space or id may lead out of the location; then there is no
key.
-/
import Depot.Failure
import Depot.Key.Path

namespace Depot.Key

/-- a place in a bucket, not given from the root -/
structure Location where
  text : String
  relative : text.toList.head? ≠ some '/'
  deriving DecidableEq

namespace Location

def ofText (s : String) : Except Failure Location :=
  if h : s.toList.head? ≠ some '/' then .ok ⟨s, h⟩ else .error (.fault (.rootedLocation s))

def top : Location := ⟨"", by decide⟩

instance : Inhabited Location := ⟨top⟩

/-- the key of a cleaned name -/
def place (l : Location) (name : List Char) : Except Failure String :=
  match Path.join? l.text.toList name with
  | some key => .ok (String.ofList key)
  | none => .error (.fault (.deniedKey (String.ofList name)))

def key (l : Location) (space id : String) : Except Failure String :=
  l.place (Path.clean (space.toList ++ '/' :: id.toList))

/-- what the keys of a space start with, or all keys -/
def start (l : Location) : Option String → Except Failure String
  | none => l.place []
  | some space => l.key space ""

end Location

end Depot.Key
