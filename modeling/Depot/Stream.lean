/-
Streams of bytes, as what reading them gives.

A `Reading` is the pieces that successive reads of a stream give and how they end: with nothing more, with an exception,
or with an interruption, which is no exception and so passes every handler of exceptions. A `Device` is a stream over
bytes at hand that may give fewer of them at a time than asked for, and may break at some place; `Device.reading` says
what reading it to its end gives. A `Stream` can also be closed, which may fail, and may empty the staging folder.
-/
import Depot.Failure

namespace Depot

/-- how the pieces of a stream end -/
inductive Ending where
  | finished
  /-- a read raises an exception -/
  | broke (how : Breakage)
  /-- a read is interrupted: the process is told to stop, say, or the task that reads is cancelled -/
  | interrupted (text : String)
  deriving DecidableEq, Repr

/-- the pieces that successive reads of a stream give, and what comes after them -/
structure Reading where
  pieces : List ByteArray
  ending : Ending

namespace Reading

/-- the pieces up to the first empty one, by which a reader takes a stream to have ended -/
def taken (r : Reading) : List ByteArray :=
  r.pieces.takeWhile (·.size != 0)

/-- all bytes that a reader gets -/
def content (r : Reading) : ByteArray :=
  r.taken.foldl (· ++ ·) ByteArray.empty

/-- the lengths that a reader gets, the last one 0 if the stream ended -/
def lengths (r : Reading) : List Nat :=
  r.taken.map (·.size) ++ if r.ending = .finished ∨ r.taken.length < r.pieces.length then [0] else []

/-- whether a reader is interrupted; an empty piece ends the reading before -/
def interrupted (r : Reading) : Bool :=
  match r.ending with
  | .finished | .broke _ => false
  | .interrupted _ => r.pieces.all (·.size != 0)

end Reading

/-- a stream over bytes at hand -/
structure Device where
  data : ByteArray
  /-- the most bytes that one read gives -/
  most : Option Nat
  /-- the place at which reading breaks -/
  breaksAt : Option Nat
  how : Breakage

namespace Device

/-- a stream that gives all it is asked for and never breaks -/
def ofContent (data : ByteArray) : Device :=
  ⟨data, none, none, .system⟩

/-- the place up to which bytes are given -/
def stop (d : Device) : Nat :=
  min d.data.size (d.breaksAt.getD d.data.size)

/-- the bytes that one read of a size gives, if so many are left -/
def width (d : Device) (size : Nat) : Nat :=
  min size (d.most.getD size)

/-- the pieces from a place -/
def piecesFrom (d : Device) (size pos : Nat) : List ByteArray :=
  if d.width size = 0 ∨ d.stop ≤ pos then []
  else
    let next := pos + min (d.width size) (d.stop - pos)
    d.data.extract pos next :: d.piecesFrom size next
termination_by d.stop - pos

/-- what reading a device with reads of one size gives -/
def reading (d : Device) (size : Nat) : Reading :=
  let reached := if d.width size = 0 then 0 else d.stop
  { pieces := d.piecesFrom size 0
    ending := if d.breaksAt.any (· ≤ reached) then .broke d.how else .finished }

end Device

/-- a stream that is handed over to be read to its end and closed -/
structure Stream where
  reading : Reading
  /-- closing empties the staging folder -/
  clearsStaging : Bool
  /-- closing fails, after that -/
  closeFails : Bool

end Depot
