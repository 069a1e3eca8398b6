/-
Size and digest of a stream in one pass, and the copy of it that is made on the way.

`copy` takes the pieces of a reading one by one into a target, which may have limited room, until a read gives
nothing, a read fails or the target is full. `digestCopy` is the whole pass: the size and hexadecimal digest of the
content, or the failure. Trouble of the operating system, in the stream or in the target, is reported as content that
cannot be digested; any other trouble is not accounted for, nor is an interruption.
-/
import Depot.Hash.Algorithm
import Depot.Stream

namespace Depot.Digest

/-- the bytes asked for at a time -/
def chunkSize : Nat := 8192

/-- what became of a stream that was copied -/
structure Copied where
  /-- the pieces that the target took -/
  chunks : List ByteArray
  /-- the lengths that reads gave -/
  reads : List Nat
  /-- why the copy is not complete -/
  fault : Option Fault

/-- copies pieces into a target with room for so many bytes, or for any number -/
def copy (ending : Ending) : Option Nat → List ByteArray → Copied
  | _, [] =>
    match ending with
    | .finished => ⟨[], [0], none⟩
    | .broke how => ⟨[], [], some (.stream how)⟩
    | .interrupted text => ⟨[], [], some (.broken text)⟩
  | room, piece :: rest =>
    if piece.size = 0 then ⟨[], [0], none⟩
    else if room.any (· < piece.size) then ⟨[], [piece.size], some .diskFull⟩
    else
      let c := copy ending (room.map (· - piece.size)) rest
      ⟨piece :: c.chunks, piece.size :: c.reads, c.fault⟩

namespace Copied

def written (c : Copied) : ByteArray :=
  c.chunks.foldl (· ++ ·) ByteArray.empty

def size (c : Copied) : Nat :=
  c.chunks.foldl (fun n piece => n + piece.size) 0

/-- the digest of the pieces, if the algorithm has one -/
def digest? (algorithm : Hash.Algorithm) (c : Copied) : Option String :=
  algorithm.function?.map fun h => Hash.hexText (c.chunks.foldl (·.update ·) h.begin).digest

def result (name : String) (algorithm : Hash.Algorithm) (c : Copied) : Except Failure (Nat × String) :=
  match c.fault with
  | some f => .error (if f.isSystemFault then .digest (.unreadable name) f else .fault f)
  | none =>
    match c.digest? algorithm with
    | some digest => .ok (c.size, digest)
    | none => .error (.fault .openEndedDigest)

end Copied

def algorithmOf (name : String) : Except Failure Hash.Algorithm :=
  match Hash.Algorithm.ofName? name with
  | some a => .ok a
  | none => .error (.digest (.unsupported name) (.unknownAlgorithm name))

/-- a pass over a stream: its outcome, the lengths that reads gave, and what the target holds -/
structure Pass where
  outcome : Except Failure (Nat × String)
  reads : List Nat
  written : ByteArray

/-- digests a stream while copying it; nothing is read for an algorithm that does not exist -/
def digestCopy (name : String) (room : Option Nat) (r : Reading) : Pass :=
  match algorithmOf name with
  | .error e => ⟨.error e, [], ByteArray.empty⟩
  | .ok a =>
    let c := copy r.ending room r.pieces
    ⟨c.result name a, c.reads, c.written⟩

end Depot.Digest
