/-
What an operation is given besides its arguments: where contents are kept, and the settings in force.

A setting that was removed is none. A listing is read page by page up to `pageLimit` pages, which the one who runs an
operation chooses large enough for the bucket at hand.
-/
import Depot.Disk.Path
import Depot.Key.Location

namespace Depot

/-- the settings in force -/
structure Site where
  /-- where contents are kept -/
  location : Key.Location
  /-- the keys that are collected before a request to delete them is made -/
  batchSize : Nat
  /-- the most pages of one listing -/
  pageLimit : Nat
  /-- the name of the digest algorithm of uploads -/
  digestAlgorithm : Option String
  /-- the folder of uploads under way -/
  stagingFolder : Option Disk.Path
  /-- the expired records that are fetched at a time -/
  pageSize : Option Int
  /-- the days for which records are retained -/
  retentionDays : Option Int
  deriving DecidableEq

namespace Site

/-- the settings at the start, for a place in a bucket -/
def standard (location : Key.Location) : Site where
  location := location
  batchSize := 1000
  pageLimit := 1
  digestAlgorithm := some "sha1"
  stagingFolder := some .staging
  pageSize := some 100
  retentionDays := some 5

instance : Inhabited Site := ⟨standard .top⟩

end Site

end Depot
