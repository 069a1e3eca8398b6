/-
Deletion of expired records page by page.

One algorithm serves every kind of record. A kind says how its expired items are counted, fetched, deleted and
described (`ExpiredItems`); a `Cleaner` counts them once, works out how many pages they fill, and then fetches and
deletes so many pages. Every page is fetched anew by the cutoff, so what earlier pages deleted is not fetched again,
and what they could not delete is. Failures to count, fetch or describe end the run; a failure to delete an item is
put on record and passed over. All these are exceptions: nothing here reads a stream, and only that can be interrupted.
-/
import Depot.Number.Quotient
import Depot.Prog

namespace Depot.Retention

variable {I : Interface}

/-- access to the expired items of one kind of record -/
structure ExpiredItems (I : Interface) where
  Item : Type
  /-- the name of the kind -/
  name : String
  /-- counts the items that expired before a cutoff -/
  count : Time.Timestamp → Prog I Int
  /-- gives so many of them at most -/
  fetchPage : Time.Timestamp → Int → Prog I (List Item)
  /-- deletes an item, and says whether it was there -/
  deleteOne : Item → Prog I Bool
  /-- identifies an item in records -/
  describe : Item → Prog I String

/-- deletes the expired items of a kind in pages that can hold at least one -/
structure Cleaner (I : Interface) where
  items : ExpiredItems I
  pageSize : Nat
  positive : 0 < pageSize

namespace Cleaner

/-- a cleaner with pages of a size, if a page can have it -/
def ofSize (items : ExpiredItems I) (size : Int) : Except Failure (Cleaner I) :=
  if h : 1 ≤ size then .ok ⟨items, size.toNat, by omega⟩ else .error (.fault (.pageSize size))

def name (c : Cleaner I) : String := c.items.name

/-- a quotient, if it is a number -/
def finite : Option Int → Except Failure Int
  | some n => .ok n
  | none => .error (.fault .quotientTooLarge)

def pages (c : Cleaner I) (total : Int) : Except Failure Int :=
  finite (Number.ceil? total c.pageSize)

/-- deletes one item, and says whether it was deleted -/
def deleteSafely (c : Cleaner I) (item : c.items.Item) : Prog I Bool := do
  let description ← c.items.describe item
  Prog.record (.deleting description)
  match ← (c.items.deleteOne item).attempt with
  | .ok true => pure true
  | .ok false =>
    Prog.record (.itemGone description)
    pure false
  | .error _ =>
    Prog.record (.itemNotDeleted description)
    pure false

/-- deletes items, and adds the number deleted to a count -/
def deleteEach (c : Cleaner I) (count : Nat) (page : List c.items.Item) : Prog I Nat :=
  page.foldlM (fun n item => do pure (if ← c.deleteSafely item then n + 1 else n)) count

/-- fetches and deletes one page, and adds the number deleted to a count -/
def deletePage (c : Cleaner I) (cutoff : Time.Timestamp) (count : Nat) : Prog I Nat := do
  let page ← c.items.fetchPage cutoff c.pageSize
  c.deleteEach count page

/-- fetches and deletes so many pages, and adds the number deleted to a count -/
def deletePages (c : Cleaner I) (cutoff : Time.Timestamp) : Nat → Nat → Prog I Nat
  | 0, count => pure count
  | pages + 1, count => do
    let count ← c.deletePage cutoff count
    c.deletePages cutoff pages count

/-- deletes all items that expired before a cutoff, and counts those deleted -/
def execute (c : Cleaner I) (cutoff : Time.Timestamp) : Prog I Nat := do
  Prog.record (.willDelete c.name cutoff)
  let total ← c.items.count cutoff
  let pages ← Prog.ofExcept (c.pages total)
  Prog.record (.expiredFound total c.name pages)
  let deleted ← c.deletePages cutoff pages.toNat 0
  Prog.record (.itemsDeleted deleted c.name)
  pure deleted

end Cleaner

end Depot.Retention
