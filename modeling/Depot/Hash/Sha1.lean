/-
SHA-1: 20-byte digests of blocks of 64 bytes.
-/
import Depot.Hash.Block
import Depot.Hash.Words

namespace Depot.Hash.Sha1

/-- the five words of the state and the bytes absorbed -/
structure State where
  words : Array UInt32
  size : Nat

/-- the words of the eighty rounds: the block's sixteen, and each later one from four before it -/
def schedule (block : ByteArray) : Array UInt32 :=
  (List.range 64).foldl (fun w i =>
    w.push (turnLeft32 (word32 w (i + 13) ^^^ word32 w (i + 8) ^^^ word32 w (i + 2) ^^^ word32 w i) 1))
    (bigWords32 16 block)

/-- the mixing function and the constant of a round -/
def mix (i : Nat) (b c d : UInt32) : UInt32 :=
  if i < 20 then ((b &&& c) ||| (~~~b &&& d)) + 0x5a827999
  else if i < 40 then (b ^^^ c ^^^ d) + 0x6ed9eba1
  else if i < 60 then ((b &&& c) ||| (b &&& d) ||| (c &&& d)) + 0x8f1bbcdc
  else (b ^^^ c ^^^ d) + 0xca62c1d6

def round (w : Array UInt32) (s : UInt32 × UInt32 × UInt32 × UInt32 × UInt32) (i : Nat) :
    UInt32 × UInt32 × UInt32 × UInt32 × UInt32 :=
  let (a, b, c, d, e) := s
  (turnLeft32 a 5 + mix i b c d + e + word32 w i, a, turnLeft32 b 30, c, d)

def absorb (s : State) (block : ByteArray) : State :=
  let (a, b, c, d, e) := (List.range 80).foldl (round (schedule block))
    (word32 s.words 0, word32 s.words 1, word32 s.words 2, word32 s.words 3, word32 s.words 4)
  ⟨addWords32 s.words #[a, b, c, d, e], s.size + 64⟩

def finish (s : State) (tail : ByteArray) : ByteArray :=
  let bits := bigBytes 8 ((s.size + tail.size) * 8)
  let last := tail ++ ofBytes (padding 64 8 bits tail.size)
  let s := absorb s (last.extract 0 64)
  let s := if last.size > 64 then absorb s (last.extract 64 128) else s
  ofBytes (s.words.toList.flatMap fun w => bigBytes 4 w.toNat)

def function : BlockHash where
  State := State
  start := ⟨#[0x67452301, 0xefcdab89, 0x98badcfe, 0x10325476, 0xc3d2e1f0], 0⟩
  blockSize := 64
  keepsLast := false
  absorb := absorb
  finish := finish
  blockSize_pos := size64_pos

end Depot.Hash.Sha1
