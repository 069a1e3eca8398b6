/-
Shelves: records in memory that behave as they are told, to try cleaners on.

A shelf counts and gives its records like any store, and can be told to fail at either, or to count wrongly. What a
record does when it is to be deleted is its `Conduct`. The shelf keeps the sizes of the pages it gave and the names of
the records it was asked to delete.
-/
import Depot.Retention.Cleaner

namespace Depot.Retention

/-- what a record does when it is to be deleted -/
inductive Conduct where
  | goes
  /-- stays, with a failure -/
  | locked
  /-- stays the first time, with a failure -/
  | onceLocked
  /-- stays, without a failure -/
  | refused
  /-- goes, but says that it was not there -/
  | gone
  /-- goes, but cannot be described -/
  | undescribable
  deriving DecidableEq, Repr

structure Specimen where
  serial : Nat
  name : String
  /-- the minutes from the cutoff to its creation -/
  minutes : Int
  conduct : Conduct
  deriving DecidableEq, Repr

/-- where a shelf fails -/
inductive Defect where
  | counting
  /-- fetching, after so many more pages -/
  | fetching (pages : Nat)
  deriving DecidableEq, Repr

/-- a defect after one more page was given -/
def Defect.afterPage : Defect → Defect
  | .counting => .counting
  | .fetching pages => .fetching (pages - 1)

/-- records, and what happened to them -/
structure Shelf where
  name : String
  specimens : List Specimen
  defect : Option Defect
  /-- the number that the shelf is told to give as the count -/
  claimed : Option Int
  /-- the sizes of the pages given, the last one first -/
  given : List Nat
  /-- the names of the records that were to be deleted, the last one first -/
  asked : List String
  deriving DecidableEq, Repr

namespace Shelf

/-- a shelf on which nothing has happened -/
def stocked (name : String) (specimens : List (String × Int × Conduct)) (defect : Option Defect) (claimed : Option Int) :
    Shelf where
  name := name
  specimens := specimens.zipIdx.map fun ((n, minutes, conduct), i) => ⟨i, n, minutes, conduct⟩
  defect := defect
  claimed := claimed
  given := []
  asked := []

def expired (s : Shelf) : List Specimen :=
  (s.specimens.filter (·.minutes < 0)).mergeSort fun a b => a.minutes ≤ b.minutes

def remaining (s : Shelf) : List String :=
  s.specimens.map (·.name)

/-- the sizes of the pages given -/
def fetched (s : Shelf) : List Nat :=
  s.given.reverse

/-- the names of the records that were to be deleted -/
def attempts (s : Shelf) : List String :=
  s.asked.reverse

def count (s : Shelf) : Except Fault Int :=
  if s.defect = some .counting then .error (.broken "count failed")
  else .ok (s.claimed.getD s.expired.length)

def fetch (s : Shelf) (limit : Nat) : Except Fault (List Specimen) × Shelf :=
  if s.defect = some (.fetching 0) then (.error (.broken "fetch failed"), s)
  else
    let page := s.expired.take limit
    (.ok page, { s with given := page.length :: s.given, defect := s.defect.map Defect.afterPage })

def without (s : Shelf) (serial : Nat) : Shelf :=
  { s with specimens := s.specimens.filter (·.serial != serial) }

/-- the shelf with a record that goes the next time -/
def release (s : Shelf) (serial : Nat) : Shelf :=
  { s with specimens := s.specimens.map fun x => if x.serial = serial then { x with conduct := .goes } else x }

def delete (s : Shelf) (x : Specimen) : Except Fault Bool × Shelf :=
  let s := { s with asked := x.name :: s.asked }
  match x.conduct with
  | .goes | .undescribable => (.ok true, s.without x.serial)
  | .locked => (.error .lockedRow, s)
  | .onceLocked => (.error .lockedRow, s.release x.serial)
  | .refused => (.ok false, s)
  | .gone => (.ok false, s.without x.serial)

end Shelf

inductive ShelfCall where
  | count (place : Nat)
  | fetch (place limit : Nat)
  | delete (place : Nat) (specimen : Specimen)

abbrev ShelfCall.Reply : ShelfCall → Type
  | .count _ => Except Fault Int
  | .fetch .. => Except Fault (List Specimen)
  | .delete .. => Except Fault Bool

abbrev shelving : Interface := ⟨ShelfCall, ShelfCall.Reply⟩

/-- asks something of the shelf in a place; where there is none, nothing is there -/
def atShelf {α : Type} (shelves : List Shelf) (place : Nat) (none_ : α) (f : Shelf → α × Shelf) : α × List Shelf :=
  match shelves[place]? with
  | some s =>
    let (reply, s) := f s
    (reply, shelves.set place s)
  | none => (none_, shelves)

def serveShelf (c : ShelfCall) (shelves : List Shelf) : c.Reply × List Shelf :=
  match c with
  | .count place => atShelf shelves place (.ok 0) fun s => (s.count, s)
  | .fetch place limit => atShelf shelves place (.ok []) fun s => s.fetch limit
  | .delete place x => atShelf shelves place (.ok false) fun s => s.delete x

def askShelf (c : ShelfCall) : Prog shelving c.Reply :=
  Prog.ask (I := shelving) c

def onShelf (place : Nat) (name : String) : ExpiredItems shelving where
  Item := Specimen
  name := name
  count _ := do Prog.ofReply (← askShelf (.count place))
  fetchPage _ limit := do Prog.ofReply (← askShelf (.fetch place limit.toNat))
  deleteOne x := do Prog.ofReply (← askShelf (.delete place x))
  describe x :=
    if x.conduct = .undescribable then .fail (.fault (.broken "describe failed")) else pure ("record " ++ x.name)

end Depot.Retention
