/-
The SHA-3 family: a sponge over a state of twenty-five words, which takes as many bytes at a time as twice the digest
leaves of the state's two hundred.
-/
import Depot.Hash.Block
import Depot.Hash.Words

namespace Depot.Hash.Sha3

/-- one constant for each round -/
def constants : Array UInt64 := #[
    0x0000000000000001, 0x0000000000008082, 0x800000000000808a, 0x8000000080008000, 0x000000000000808b,
    0x0000000080000001, 0x8000000080008081, 0x8000000000008009, 0x000000000000008a, 0x0000000000000088,
    0x0000000080008009, 0x000000008000000a, 0x000000008000808b, 0x800000000000008b, 0x8000000000008089,
    0x8000000000008003, 0x8000000000008002, 0x8000000000000080, 0x000000000000800a, 0x800000008000000a,
    0x8000000080008081, 0x8000000000008080, 0x0000000080000001, 0x8000000080008008]

/-- how far each word is turned; the word of column x and row y stands at x + 5 y -/
def turns : Array UInt64 := #[
    0, 1, 62, 28, 27, 36, 44, 6, 55, 20, 3, 10, 43, 25, 39, 41, 45, 15, 21, 8, 18, 2, 61, 56, 14]

def columns (a : Array UInt64) : Array UInt64 :=
  ((List.range 5).map fun x =>
    word64 a x ^^^ word64 a (x + 5) ^^^ word64 a (x + 10) ^^^ word64 a (x + 15) ^^^ word64 a (x + 20)).toArray

/-- every word with the sums of the columns beside its own -/
def spread (a : Array UInt64) : Array UInt64 :=
  let c := columns a
  a.mapIdx fun i w => w ^^^ word64 c ((i + 4) % 5) ^^^ turnLeft64 (word64 c ((i + 1) % 5)) 1

/-- the words turned and moved: the word for column x and row y comes from column x + 3 y of row x -/
def scatter (a : Array UInt64) : Array UInt64 :=
  ((List.range 25).map fun i =>
    let x := i % 5
    let y := i / 5
    let j := (x + 3 * y) % 5 + 5 * x
    turnLeft64 (word64 a j) (word64 turns j)).toArray

/-- each word mixed with the next two of its row -/
def combine (a : Array UInt64) : Array UInt64 :=
  a.mapIdx fun i w =>
    let row := i / 5 * 5
    w ^^^ (~~~(word64 a (row + (i + 1) % 5)) &&& word64 a (row + (i + 2) % 5))

def round (a : Array UInt64) (i : Nat) : Array UInt64 :=
  (combine (scatter (spread a))).modify 0 (· ^^^ word64 constants i)

def permute (a : Array UInt64) : Array UInt64 :=
  (List.range 24).foldl round a

/-- one block of `rate` bytes -/
def absorb (rate : Nat) (a : Array UInt64) (block : ByteArray) : Array UInt64 :=
  let w := littleWords64 (rate / 8) block
  permute (a.mapIdx fun i x => x ^^^ word64 w i)

/-- the bytes after the last ones of a message -/
def ending (rate pending : Nat) : List UInt8 :=
  if pending + 1 = rate then [0x86]
  else 0x06 :: List.replicate (rate - pending - 2) 0 ++ [0x80]

def finish (rate digestSize : Nat) (a : Array UInt64) (tail : ByteArray) : ByteArray :=
  let a := absorb rate a (tail ++ ofBytes (ending rate tail.size))
  ofBytes ((a.toList.flatMap fun w => littleBytes 8 w.toNat).take digestSize)

/-- the member of the family with digests of a size below a hundred bytes -/
def function (digestSize : Nat) (h : digestSize < 100) : BlockHash where
  State := Array UInt64
  start := Array.replicate 25 0
  blockSize := 200 - 2 * digestSize
  keepsLast := false
  absorb := absorb (200 - 2 * digestSize)
  finish := finish (200 - 2 * digestSize) digestSize
  blockSize_pos := by omega

end Depot.Hash.Sha3
