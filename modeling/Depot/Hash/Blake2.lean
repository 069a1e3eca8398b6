/-
BLAKE2b and BLAKE2s with digests of their full size and no key. The last block is taken in its own way, so a whole
block is kept back until the input has ended.
-/
import Depot.Hash.Sha2

namespace Depot.Hash.Blake2

/-- the order in which each round takes the words of a block -/
def orders : Array (Array Nat) := #[
    #[0, 1, 2, 3, 4, 5, 6, 7, 8, 9, 10, 11, 12, 13, 14, 15],
    #[14, 10, 4, 8, 9, 15, 13, 6, 1, 12, 0, 2, 11, 7, 5, 3],
    #[11, 8, 12, 0, 5, 2, 15, 13, 10, 14, 3, 6, 7, 1, 9, 4],
    #[7, 9, 3, 1, 13, 12, 11, 14, 2, 6, 5, 10, 4, 0, 15, 8],
    #[9, 0, 5, 7, 2, 4, 10, 15, 14, 1, 11, 12, 6, 8, 3, 13],
    #[2, 12, 6, 10, 0, 11, 8, 3, 4, 13, 7, 5, 15, 14, 1, 9],
    #[12, 5, 1, 15, 14, 13, 4, 10, 0, 7, 6, 3, 9, 2, 8, 11],
    #[13, 11, 7, 14, 12, 1, 3, 9, 5, 0, 15, 4, 8, 6, 2, 10],
    #[6, 15, 14, 9, 11, 3, 0, 8, 12, 2, 13, 7, 1, 4, 10, 5],
    #[10, 2, 8, 4, 7, 6, 1, 5, 15, 11, 9, 14, 3, 12, 13, 0]]

/-- the places of the state that the eight steps of a round mix -/
def places : List (Nat × Nat × Nat × Nat) :=
  [(0, 4, 8, 12), (1, 5, 9, 13), (2, 6, 10, 14), (3, 7, 11, 15),
    (0, 5, 10, 15), (1, 6, 11, 12), (2, 7, 8, 13), (3, 4, 9, 14)]

/-- the place of the word that step `step` of a round takes first or second -/
def order (round step second : Nat) : Nat :=
  (orders.getD (round % 10) #[]).getD (2 * step + second) 0

/-! ## Words of 64 bits -/

/-- the eight words of the state and the bytes absorbed -/
structure StateB where
  words : Array UInt64
  size : Nat

/-- one step: four places of the state and two words of the block -/
def mixB (v : Array UInt64) (spot : Nat × Nat × Nat × Nat) (x y : UInt64) : Array UInt64 :=
  let (i, j, k, l) := spot
  let a := word64 v i + word64 v j + x
  let d := turnRight64 (word64 v l ^^^ a) 32
  let c := word64 v k + d
  let b := turnRight64 (word64 v j ^^^ c) 24
  let a := a + b + y
  let d := turnRight64 (d ^^^ a) 16
  let c := c + d
  let b := turnRight64 (b ^^^ c) 63
  (((v.setIfInBounds i a).setIfInBounds j b).setIfInBounds k c).setIfInBounds l d

def roundB (w v : Array UInt64) (round : Nat) : Array UInt64 :=
  places.zipIdx.foldl (fun v (spot, step) =>
    mixB v spot (word64 w (order round step 0)) (word64 w (order round step 1))) v

/-- one block, up to a count of bytes, the last one or not -/
def compressB (h : Array UInt64) (block : ByteArray) (count : Nat) (last : Bool) : Array UInt64 :=
  let w := littleWords64 16 block
  let v := h ++ Sha2.start512
  let v := v.modify 12 (· ^^^ count.toUInt64)
  let v := v.modify 13 (· ^^^ (count >>> 64).toUInt64)
  let v := if last then v.modify 14 (~~~ ·) else v
  let v := (List.range 12).foldl (roundB w) v
  h.mapIdx fun i x => x ^^^ word64 v i ^^^ word64 v (i + 8)

/-- BLAKE2b with digests of 64 bytes -/
def blake2b : BlockHash where
  State := StateB
  start := ⟨Sha2.start512.modify 0 (· ^^^ 0x01010040), 0⟩
  blockSize := 128
  keepsLast := true
  absorb s block := ⟨compressB s.words block (s.size + 128) false, s.size + 128⟩
  finish s tail :=
    let block := tail ++ ofBytes (List.replicate (128 - tail.size) 0)
    ofBytes ((compressB s.words block (s.size + tail.size) true).toList.flatMap fun w => littleBytes 8 w.toNat)
  blockSize_pos := size128_pos

/-! ## Words of 32 bits -/

/-- the eight words of the state and the bytes absorbed -/
structure StateS where
  words : Array UInt32
  size : Nat

/-- one step: four places of the state and two words of the block -/
def mixS (v : Array UInt32) (spot : Nat × Nat × Nat × Nat) (x y : UInt32) : Array UInt32 :=
  let (i, j, k, l) := spot
  let a := word32 v i + word32 v j + x
  let d := turnRight32 (word32 v l ^^^ a) 16
  let c := word32 v k + d
  let b := turnRight32 (word32 v j ^^^ c) 12
  let a := a + b + y
  let d := turnRight32 (d ^^^ a) 8
  let c := c + d
  let b := turnRight32 (b ^^^ c) 7
  (((v.setIfInBounds i a).setIfInBounds j b).setIfInBounds k c).setIfInBounds l d

def roundS (w v : Array UInt32) (round : Nat) : Array UInt32 :=
  places.zipIdx.foldl (fun v (spot, step) =>
    mixS v spot (word32 w (order round step 0)) (word32 w (order round step 1))) v

/-- one block, up to a count of bytes, the last one or not -/
def compressS (h : Array UInt32) (block : ByteArray) (count : Nat) (last : Bool) : Array UInt32 :=
  let w := littleWords32 16 block
  let v := h ++ Sha2.start256
  let v := v.modify 12 (· ^^^ count.toUInt32)
  let v := v.modify 13 (· ^^^ (count >>> 32).toUInt32)
  let v := if last then v.modify 14 (~~~ ·) else v
  let v := (List.range 10).foldl (roundS w) v
  h.mapIdx fun i x => x ^^^ word32 v i ^^^ word32 v (i + 8)

/-- BLAKE2s with digests of 32 bytes -/
def blake2s : BlockHash where
  State := StateS
  start := ⟨Sha2.start256.modify 0 (· ^^^ 0x01010020), 0⟩
  blockSize := 64
  keepsLast := true
  absorb s block := ⟨compressS s.words block (s.size + 64) false, s.size + 64⟩
  finish s tail :=
    let block := tail ++ ofBytes (List.replicate (64 - tail.size) 0)
    ofBytes ((compressS s.words block (s.size + tail.size) true).toList.flatMap fun w => littleBytes 4 w.toNat)
  blockSize_pos := size64_pos

end Depot.Hash.Blake2
