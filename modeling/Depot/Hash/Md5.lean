/-
MD5: 16-byte digests of blocks of 64 bytes.
-/
import Depot.Hash.Block
import Depot.Hash.Words

namespace Depot.Hash.Md5

/-- the four words of the state and the bytes absorbed -/
structure State where
  words : Array UInt32
  size : Nat

/-- one constant for each round: the fraction of a sine -/
def constants : Array UInt32 := #[
    0xd76aa478, 0xe8c7b756, 0x242070db, 0xc1bdceee, 0xf57c0faf, 0x4787c62a, 0xa8304613, 0xfd469501, 0x698098d8,
    0x8b44f7af, 0xffff5bb1, 0x895cd7be, 0x6b901122, 0xfd987193, 0xa679438e, 0x49b40821, 0xf61e2562, 0xc040b340,
    0x265e5a51, 0xe9b6c7aa, 0xd62f105d, 0x02441453, 0xd8a1e681, 0xe7d3fbc8, 0x21e1cde6, 0xc33707d6, 0xf4d50d87,
    0x455a14ed, 0xa9e3e905, 0xfcefa3f8, 0x676f02d9, 0x8d2a4c8a, 0xfffa3942, 0x8771f681, 0x6d9d6122, 0xfde5380c,
    0xa4beea44, 0x4bdecfa9, 0xf6bb4b60, 0xbebfbc70, 0x289b7ec6, 0xeaa127fa, 0xd4ef3085, 0x04881d05, 0xd9d4d039,
    0xe6db99e5, 0x1fa27cf8, 0xc4ac5665, 0xf4292244, 0x432aff97, 0xab9423a7, 0xfc93a039, 0x655b59c3, 0x8f0ccc92,
    0xffeff47d, 0x85845dd1, 0x6fa87e4f, 0xfe2ce6e0, 0xa3014314, 0x4e0811a1, 0xf7537e82, 0xbd3af235, 0x2ad7d2bb,
    0xeb86d391]

/-- how far a round turns its sum -/
def shifts : Array UInt32 := #[7, 12, 17, 22, 5, 9, 14, 20, 4, 11, 16, 23, 6, 10, 15, 21]

def round (block : Array UInt32) (s : UInt32 × UInt32 × UInt32 × UInt32) (i : Nat) :
    UInt32 × UInt32 × UInt32 × UInt32 :=
  let (a, b, c, d) := s
  let (f, g) :=
    if i < 16 then ((b &&& c) ||| (~~~b &&& d), i)
    else if i < 32 then ((d &&& b) ||| (~~~d &&& c), (5 * i + 1) % 16)
    else if i < 48 then (b ^^^ c ^^^ d, (3 * i + 5) % 16)
    else (c ^^^ (b ||| ~~~d), 7 * i % 16)
  let sum := a + f + word32 constants i + word32 block g
  (d, b + turnLeft32 sum (word32 shifts (i / 16 * 4 + i % 4)), b, c)

def absorb (s : State) (block : ByteArray) : State :=
  let w := littleWords32 16 block
  let (a, b, c, d) := (List.range 64).foldl (round w)
    (word32 s.words 0, word32 s.words 1, word32 s.words 2, word32 s.words 3)
  ⟨addWords32 s.words #[a, b, c, d], s.size + 64⟩

def finish (s : State) (tail : ByteArray) : ByteArray :=
  let bits := littleBytes 8 ((s.size + tail.size) * 8)
  let last := tail ++ ofBytes (padding 64 8 bits tail.size)
  let s := absorb s (last.extract 0 64)
  let s := if last.size > 64 then absorb s (last.extract 64 128) else s
  ofBytes (s.words.toList.flatMap fun w => littleBytes 4 w.toNat)

def function : BlockHash where
  State := State
  start := ⟨#[0x67452301, 0xefcdab89, 0x98badcfe, 0x10325476], 0⟩
  blockSize := 64
  keepsLast := false
  absorb := absorb
  finish := finish
  blockSize_pos := size64_pos

end Depot.Hash.Md5
